import Defib.Boot.Rack
import Defib.Properties.BootUpload

/-!
# What an upload sends

The transfers of an upload and the images in them: when every HEAD frame declares what follows it
(`announces_iff`), and when the pod uploads what the host uploads (`sameImages_iff`).
-/

namespace Defib
open HiSiliconStandard

/-! ## Declared lengths -/

/-- The frames a run has sent, retransmissions merged. -/
def sentBy (o : HostOutcome RecoveryResult) : List (List UInt8) :=
  (observed o.trace).map Entry.frame

/-- Every transfer of every run declares the length of its data. -/
def Announces (profile : SoCProfile) (firmware : List UInt8)
    (splOverride : Option (List UInt8)) : Prop :=
  ∀ script, ∀ t ∈ transfers (sentBy (sendFirmware (some profile) firmware splOverride script)),
    t.length = t.data.length

lemma sentBy_eq (o : HostOutcome RecoveryResult) :
    sentBy o = ((observed o.trace).map Entry.key).map Prod.snd := by
  rw [sentBy, List.map_map]
  rfl

variable {profile : SoCProfile} {firmware : List UInt8} {splOverride : Option (List UInt8)}

/-- The transfers of a run that gets to the end of its plan. -/
lemma transfers_of_acksEvery {script : List (Reading UInt8)}
    (h : AcksEvery (sendFirmware (some profile) firmware splOverride script).trace) :
    transfers (sentBy (sendFirmware (some profile) firmware splOverride script)) =
      ((segments profile firmware splOverride).takeWhile Segment.encodable).map
        Segment.transfer := by
  rw [sentBy_eq, (sendFirmware_of_acksEvery h).1]
  exact transfers_framesOf _

/-- The transfers that are made declare the length of their data. -/
def AllAnnounced (ts : List Segment) : Prop :=
  ∀ t ∈ ts.takeWhile Segment.encodable, t.length = t.chunks.flatten.length

/-- It is enough to look at the plan. -/
lemma announces_iff_segments :
    Announces profile firmware splOverride ↔
      AllAnnounced (segments profile firmware splOverride) := by
  constructor
  · intro h t ht
    obtain ⟨script, hacks⟩ := exists_acksEvery profile firmware splOverride
    refine h script t.transfer ?_
    rw [transfers_of_acksEvery hacks]
    exact List.mem_map_of_mem ht
  · intro h script t ht
    have hinit : transfers (sentBy (sendFirmware (some profile) firmware splOverride script)) <+:
        ((segments profile firmware splOverride).takeWhile Segment.encodable).map
          Segment.transfer := by
      rw [sentBy_eq, ← transfers_framesOf]
      exact transfers_mono
        ((sendFirmware_recorded profile firmware splOverride script).keys_initial.map _)
    obtain ⟨s, hs, rfl⟩ := List.mem_map.mp (hinit.subset ht)
    exact h s hs

lemma allAnnounced_nil : AllAnnounced [] := by simp [AllAnnounced]

/-- One more transfer in front. -/
lemma allAnnounced_cons {t : Segment} {ts : List Segment} :
    AllAnnounced (t :: ts) ↔ (t.length < 2 ^ 32 → t.address < 2 ^ 32 →
      t.length = t.chunks.flatten.length ∧ AllAnnounced ts) := by
  have hencodable : t.encodable = true ↔ t.length < 2 ^ 32 ∧ t.address < 2 ^ 32 :=
    decide_eq_true_iff
  rw [AllAnnounced, List.takeWhile_cons, ← and_imp, ← hencodable]
  split
  · rename_i h
    simp [h, AllAnnounced]
  · rename_i h
    simp [h]

lemma length_chunkData_flatten (data : List UInt8) :
    (chunkData data maxDataLen).flatten.length = data.length := by
  rw [chunkData_flatten data (by simp [maxDataLen])]

/-- The two halves of the SPL image. -/
lemma of_splImage {splSize : ℕ} {splData : List UInt8}
    (h : splImage profile firmware splOverride = .ok (splSize, splData)) :
    detectSplSize (splOverride.getD firmware) profile.splMaxSize profile.splSramLimit =
        .ok splSize ∧
      splData = zeroLongFfRuns (cutSpl firmware splOverride splSize) ffThreshold := by
  unfold splImage at h
  cases hdetect : detectSplSize (splOverride.getD firmware) profile.splMaxSize
      profile.splSramLimit with
  | error e =>
      rw [hdetect] at h
      cases h
  | ok n =>
      rw [hdetect] at h
      cases h
      exact ⟨rfl, rfl⟩

lemma splImage_eq_ok {splSize : ℕ}
    (h : detectSplSize (splOverride.getD firmware) profile.splMaxSize profile.splSramLimit =
      .ok splSize) :
    ∃ splData, splImage profile firmware splOverride = .ok (splSize, splData) := by
  unfold splImage
  rw [h]
  exact ⟨_, rfl⟩

/-- Only an image that is cut from a firmware that is too short is shorter than declared. -/
lemma length_splImage_iff {splSize : ℕ} {splData : List UInt8}
    (h : splImage profile firmware splOverride = .ok (splSize, splData)) :
    splSize = splData.length ↔ splOverride = none → splSize ≤ firmware.length := by
  obtain ⟨-, rfl⟩ := of_splImage h
  rw [length_zeroLongFfRuns]
  cases splOverride with
  | none => simp [cutSpl]
  | some spl => simp [cutSpl, List.rightpad]

/-- The transfers of the SPL and of U-Boot. -/
lemma allAnnounced_imageSegments :
    AllAnnounced (imageSegments profile firmware splOverride) ↔
      (profile.splAddress < 2 ^ 32 → profile.splMaxSize < 2 ^ 32 → splOverride = none →
        Unmarked firmware → profile.splMaxSize ≤ firmware.length) := by
  have huboot : AllAnnounced [ubootSegment profile firmware] := by
    rw [allAnnounced_cons]
    refine fun _ _ => ⟨?_, allAnnounced_nil⟩
    rw [ubootSegment, length_chunkData_flatten, length_zeroLongFfRuns]
  rw [imageSegments]
  cases himage : splImage profile firmware splOverride with
  | error e =>
      refine ⟨fun _ _ _ hoverride hunmarked => ?_, fun _ => allAnnounced_nil⟩
      subst hoverride
      have hdetect : detectSplSize ((none : Option (List UInt8)).getD firmware) profile.splMaxSize
          profile.splSramLimit = .ok profile.splMaxSize := detectSplSize_of_unmarked hunmarked _ _
      obtain ⟨splData, hok⟩ := splImage_eq_ok hdetect
      rw [hok] at himage
      cases himage
  | ok image =>
      obtain ⟨splSize, splData⟩ := image
      have hlength := length_splImage_iff himage
      obtain ⟨hdetect, -⟩ := of_splImage himage
      simp only
      rw [allAnnounced_cons, length_chunkData_flatten]
      constructor
      · intro h haddress hmax hoverride hunmarked
        subst hoverride
        have hsize : splSize = profile.splMaxSize := by
          have hok := detectSplSize_of_unmarked hunmarked profile.splMaxSize profile.splSramLimit
          rw [Option.getD_none, hok] at hdetect
          exact (Except.ok.inj hdetect).symm
        rw [← hsize] at hmax ⊢
        exact hlength.mp (h hmax haddress).1 rfl
      · intro h hsize haddress
        refine ⟨hlength.mpr fun hoverride => ?_, huboot⟩
        subst hoverride
        by_contra hlt
        obtain ⟨hunmarked, hmax, hshort⟩ := (lt_detectSplSize_iff hdetect).mp (by simpa using hlt)
        have hle := h haddress (hmax ▸ hsize) rfl hunmarked
        simp only [Option.getD_none] at hshort
        omega

/-- The profile's steps have the 64 bytes that are declared for them, and an SPL that is cut from
the firmware at the size of the profile finds that many bytes there.  Where a HEAD frame before
cannot be encoded, nothing is asked. -/
structure LengthsAgree (profile : SoCProfile) (firmware : List UInt8)
    (splOverride : Option (List UInt8)) : Prop where
  prestep : ∀ prestep ∈ profile.prestepData, prestep.length = 64
  ddrStep : profile.ddrStepData.length = 64
  spl : (∀ prestep1 ∈ profile.prestep1Data, prestep1.length < 2 ^ 32) →
    profile.splAddress < 2 ^ 32 → profile.splMaxSize < 2 ^ 32 → splOverride = none →
      Unmarked firmware → profile.splMaxSize ≤ firmware.length

/-- The transfers after the DDR step. -/
lemma allAnnounced_after_ddr (haddress : profile.ddrStepAddress < 2 ^ 32) :
    AllAnnounced (profile.prestep1Data.toList.map (fun prestep1 =>
        ⟨.ddrInit, prestep1.length, profile.ddrStepAddress, [prestep1]⟩) ++
        imageSegments profile firmware splOverride) ↔
      ((∀ prestep1 ∈ profile.prestep1Data, prestep1.length < 2 ^ 32) →
        profile.splAddress < 2 ^ 32 → profile.splMaxSize < 2 ^ 32 → splOverride = none →
        Unmarked firmware → profile.splMaxSize ≤ firmware.length) := by
  rw [← allAnnounced_imageSegments]
  cases profile.prestep1Data with
  | none => simp
  | some prestep1 =>
      rw [Option.toList_some, List.map_singleton, List.singleton_append, allAnnounced_cons,
        imp_iff_right haddress]
      simp

/-- **When every transfer declares what it sends.** -/
theorem announces_iff (profile : SoCProfile) (firmware : List UInt8)
    (splOverride : Option (List UInt8)) :
    Announces profile firmware splOverride ↔
      (profile.ddrStepAddress < 2 ^ 32 → LengthsAgree profile firmware splOverride) := by
  rw [announces_iff_segments, segments, ddrSegments, List.append_assoc, List.cons_append]
  have h64 : 64 < 2 ^ 32 := by omega
  constructor
  · intro h haddress
    cases hprestep : profile.prestepData with
    | none =>
        rw [hprestep, Option.toList_none, List.map_nil, List.nil_append, allAnnounced_cons] at h
        obtain ⟨hddr, hrest⟩ := h h64 haddress
        refine ⟨by simp [hprestep], by simpa using hddr.symm, ?_⟩
        exact (allAnnounced_after_ddr haddress).mp hrest
    | some prestep =>
        rw [hprestep, Option.toList_some, List.map_singleton, List.singleton_append,
          allAnnounced_cons] at h
        obtain ⟨hfirst, h⟩ := h h64 haddress
        rw [allAnnounced_cons] at h
        obtain ⟨hddr, hrest⟩ := h h64 haddress
        refine ⟨?_, by simpa using hddr.symm, (allAnnounced_after_ddr haddress).mp hrest⟩
        intro data hdata
        rw [hprestep] at hdata
        cases hdata
        simpa using hfirst.symm
  · intro h
    have hddr : AllAnnounced (⟨.ddrInit, 64, profile.ddrStepAddress, [profile.ddrStepData]⟩ ::
        (profile.prestep1Data.toList.map (fun prestep1 =>
          ⟨.ddrInit, prestep1.length, profile.ddrStepAddress, [prestep1]⟩) ++
          imageSegments profile firmware splOverride)) := by
      rw [allAnnounced_cons]
      intro _ haddress
      exact ⟨by simp [(h haddress).ddrStep], (allAnnounced_after_ddr haddress).mpr (h haddress).spl⟩
    cases hprestep : profile.prestepData with
    | none => simpa using hddr
    | some prestep =>
        rw [Option.toList_some, List.map_singleton, List.singleton_append, allAnnounced_cons]
        intro _ haddress
        exact ⟨by simp [(h haddress).prestep prestep hprestep], hddr⟩

/-- The profile `hi3531dv200`, whose DDR step has 72 bytes. -/
def SoCProfile.hi3531dv200 : SoCProfile where
  prestepData := none
  prestep1Data := none
  ddrStepData := [
    253, 123, 191, 169, 160, 1, 0, 88, 65, 1, 0, 24, 1, 0, 0, 185, 128, 1, 0, 88, 1, 1, 0, 24,
    1, 68, 0, 184, 30, 0, 0, 185, 253, 123, 193, 168, 192, 3, 95, 214, 239, 190, 173, 222,
    239, 190, 173, 222, 120, 86, 52, 18, 117, 106, 105, 122, 60, 1, 2, 17, 0, 0, 0, 0,
    64, 1, 2, 17, 0, 0, 0, 0]
  ddrStepAddress := 0x04013000
  splAddress := 0x04010500
  ubootAddress := 0x41000000
  splMaxSize := 0x7800
  splSramLimit := none

/-- The HEAD frame of a DDR step of 72 bytes declares 64. -/
theorem hi3531dv200_declares_less : ¬ Announces .hi3531dv200 [0x00] none := by
  intro h
  rw [announces_iff_segments] at h
  have hsegments : segments .hi3531dv200 [0x00] none =
      ⟨.ddrInit, 64, SoCProfile.hi3531dv200.ddrStepAddress, [SoCProfile.hi3531dv200.ddrStepData]⟩ ::
        imageSegments .hi3531dv200 [0x00] none := rfl
  rw [hsegments, allAnnounced_cons] at h
  have hlength : 64 = [SoCProfile.hi3531dv200.ddrStepData].flatten.length :=
    (h (by decide) (by decide)).1
  revert hlength
  decide

/-! ## Complete uploads -/

/-- The fields of all HEAD frames of an upload have 32 bits. -/
structure Fits (profile : SoCProfile) (splSize ubootSize : ℕ) : Prop where
  ddrStep : profile.ddrStepAddress < 2 ^ 32
  prestep1 : ∀ prestep1 ∈ profile.prestep1Data, prestep1.length < 2 ^ 32
  splSize : splSize < 2 ^ 32
  splAddress : profile.splAddress < 2 ^ 32
  ubootSize : ubootSize < 2 ^ 32
  ubootAddress : profile.ubootAddress < 2 ^ 32

lemma all_ddrSegments_iff :
    (ddrSegments profile).all Segment.encodable = true ↔ profile.ddrStepAddress < 2 ^ 32 ∧
      ∀ prestep1 ∈ profile.prestep1Data, prestep1.length < 2 ^ 32 := by
  have h64 : 64 < 2 ^ 32 := by omega
  constructor
  · intro h
    refine ⟨ddrStepAddress_lt_of_all h, fun prestep1 hmem => ?_⟩
    rw [List.all_eq_true] at h
    have henc := h ⟨.ddrInit, prestep1.length, profile.ddrStepAddress, [prestep1]⟩ (by
      rw [Option.mem_def] at hmem
      simp [ddrSegments, hmem])
    exact (of_decide_eq_true henc).1
  · rintro ⟨haddress, hprestep1⟩
    rw [List.all_eq_true]
    intro t ht
    simp only [ddrSegments, List.mem_append, List.mem_map, List.mem_cons, Option.mem_toList] at ht
    rcases ht with ⟨_, -, rfl⟩ | rfl | ⟨prestep1, hmem, rfl⟩
    · exact decide_eq_true ⟨h64, haddress⟩
    · exact decide_eq_true ⟨h64, haddress⟩
    · exact decide_eq_true ⟨hprestep1 prestep1 hmem, haddress⟩

/-- Nothing in an upload raises an exception exactly if the SPL image is defined and every HEAD
frame can be encoded. -/
lemma forall_not_raises_iff :
    (∀ part ∈ uploadParts profile firmware splOverride, part.raises = false) ↔
      ∃ splSize splData, splImage profile firmware splOverride = .ok (splSize, splData) ∧
        Fits profile splSize firmware.length := by
  simp only [uploadParts, List.forall_mem_cons, List.not_mem_nil, false_imp_iff, implies_true,
    and_true]
  rw [(ddrPart_makes profile).raises_eq, Bool.not_eq_false', all_ddrSegments_iff]
  constructor
  · rintro ⟨⟨haddress, hprestep1⟩, hspl, huboot⟩
    rw [(ubootPart_makes (ubootPart_opens firmware haddress)).raises_eq] at huboot
    cases himage : splImage profile firmware splOverride with
    | error e => simp [Part.raises, splPart, himage, Opener.raises] at hspl
    | ok image =>
        rw [(splPart_makes himage).raises_eq] at hspl
        have hspl' : Segment.encodable
            ⟨.spl, image.1, profile.splAddress, chunkData image.2 maxDataLen⟩ = true := by
          simpa using hspl
        have huboot' : (ubootSegment profile firmware).encodable = true := by simpa using huboot
        obtain ⟨hsize, hsplAddress⟩ := of_decide_eq_true hspl'
        obtain ⟨hlength, hubootAddress⟩ := of_decide_eq_true huboot'
        exact ⟨image.1, image.2, rfl, haddress, hprestep1, hsize, hsplAddress, hlength,
          hubootAddress⟩
  · rintro ⟨splSize, splData, himage, hfits⟩
    refine ⟨⟨hfits.ddrStep, hfits.prestep1⟩, ?_, ?_⟩
    · rw [(splPart_makes himage).raises_eq]
      have henc : Segment.encodable
          ⟨.spl, splSize, profile.splAddress, chunkData splData maxDataLen⟩ = true :=
        decide_eq_true ⟨hfits.splSize, hfits.splAddress⟩
      simp [henc]
    · rw [(ubootPart_makes (ubootPart_opens firmware hfits.ddrStep)).raises_eq]
      have henc : (ubootSegment profile firmware).encodable = true :=
        decide_eq_true ⟨hfits.ubootSize, hfits.ubootAddress⟩
      simp [henc]

/-- With a device that ACKs every frame, an upload returns exactly if nothing raises. -/
lemma returns_iff_of_acksEvery {script : List (Reading UInt8)}
    (h : AcksEvery (sendFirmware (some profile) firmware splOverride script).trace) :
    (∃ r, (sendFirmware (some profile) firmware splOverride script).result = .ok r) ↔
      ∃ splSize splData, splImage profile firmware splOverride = .ok (splSize, splData) ∧
        Fits profile splSize firmware.length := by
  have hrecorded := sendFirmware_recorded profile firmware splOverride script
  rw [← forall_not_raises_iff]
  constructor
  · rintro ⟨r, hr⟩
    exact (hrecorded.success r hr ((sendFirmware_of_acksEvery h).2 r hr)).2.1
  · intro hraises
    cases hresult : (sendFirmware (some profile) firmware splOverride script).result with
    | ok r => exact ⟨r, rfl⟩
    | error e =>
        obtain ⟨-, part, hpart, htrue⟩ := hrecorded.raised e hresult
        rw [hraises part hpart] at htrue
        cases htrue

/-- The transfers of a complete upload. -/
lemma takeWhile_segments_of_fits {splSize : ℕ} {splData : List UInt8}
    (himage : splImage profile firmware splOverride = .ok (splSize, splData))
    (hfits : Fits profile splSize firmware.length) :
    (segments profile firmware splOverride).takeWhile Segment.encodable =
      segments profile firmware splOverride := by
  rw [List.takeWhile_eq_self_iff]
  intro t ht
  rw [segments, imageSegments, himage, List.mem_append] at ht
  rcases ht with ht | ht
  · exact List.all_eq_true.mp (all_ddrSegments_iff.mpr ⟨hfits.ddrStep, hfits.prestep1⟩) t ht
  · simp only [List.mem_cons, List.not_mem_nil, or_false] at ht
    rcases ht with rfl | rfl
    · exact decide_eq_true ⟨hfits.splSize, hfits.splAddress⟩
    · exact decide_eq_true ⟨hfits.ubootSize, hfits.ubootAddress⟩

/-! ## The pod and the host -/

/-- The SPL and the second stage that an upload has transmitted, unless it ended in an
exception. -/
def imagesOf (o : HostOutcome RecoveryResult) : Option (List UInt8 × List UInt8) :=
  match o.result with
  | .error _ => none
  | .ok _ =>
      some (stagePayload .spl ((observed o.trace).map Entry.key),
        stagePayload .uboot ((observed o.trace).map Entry.key))

lemma imagesOf_eq_none {script : List (Reading UInt8)}
    (h : AcksEvery (sendFirmware (some profile) firmware splOverride script).trace)
    (hnone : ∀ splSize splData, splImage profile firmware splOverride = .ok (splSize, splData) →
      ¬ Fits profile splSize firmware.length) :
    imagesOf (sendFirmware (some profile) firmware splOverride script) = none := by
  rw [imagesOf]
  cases hresult : (sendFirmware (some profile) firmware splOverride script).result with
  | error e => rfl
  | ok r =>
      obtain ⟨splSize, splData, himage, hfits⟩ := (returns_iff_of_acksEvery h).mp ⟨r, hresult⟩
      exact absurd hfits (hnone splSize splData himage)

lemma imagesOf_eq_some {script : List (Reading UInt8)}
    (h : AcksEvery (sendFirmware (some profile) firmware splOverride script).trace)
    {splSize : ℕ} {splData : List UInt8}
    (himage : splImage profile firmware splOverride = .ok (splSize, splData))
    (hfits : Fits profile splSize firmware.length) :
    imagesOf (sendFirmware (some profile) firmware splOverride script) =
      some (splData, zeroLongFfRuns firmware ffThreshold) := by
  obtain ⟨r, hr⟩ := (returns_iff_of_acksEvery h).mpr ⟨splSize, splData, himage, hfits⟩
  have hfilter : ∀ stage, stage ≠ .ddrInit → (segments profile firmware splOverride).filter
      (fun t => t.stage = stage) = (imageSegments profile firmware splOverride).filter
        (fun t => t.stage = stage) := by
    intro stage hstage
    rw [segments, List.filter_append, List.filter_eq_nil_iff.mpr, List.nil_append]
    intro t ht
    simpa [stage_of_mem_ddrSegments ht] using fun h => hstage h.symm
  have hpayload : ∀ stage, stage ≠ .ddrInit →
      stagePayload stage (plan profile firmware splOverride) =
        (((imageSegments profile firmware splOverride).filter (·.stage = stage)).map
          (·.chunks.flatten)).flatten := by
    intro stage hstage
    rw [← hfilter stage hstage, ← takeWhile_segments_of_fits himage hfits]
    exact stagePayload_framesOf stage _
  have hchunks : ∀ data, (chunkData data maxDataLen).flatten = data := fun data =>
    chunkData_flatten data (by simp [maxDataLen])
  rw [imagesOf, hr, (sendFirmware_of_acksEvery h).1]
  simp only [Option.some.injEq, Prod.mk.injEq]
  rw [hpayload .spl (by decide), hpayload .uboot (by decide), imageSegments, himage]
  simp [ubootSegment, hchunks]

/-- The host's upload of a U-Boot image, or of an agent with the SPL of the image. -/
def hostUpload (profile : SoCProfile) (firmware : List UInt8)
    (agentPayload : Option (List UInt8)) : Host RecoveryResult :=
  match agentPayload with
  | some agent => sendFirmware (some profile) agent (some firmware)
  | none => sendFirmware (some profile) firmware none

/-- The pod gets the images that the host transmits to a device that ACKs every frame. -/
def SameImages (profile : SoCProfile) (firmware : List UInt8)
    (agentPayload : Option (List UInt8)) : Prop :=
  ∀ script, AcksEvery (hostUpload profile firmware agentPayload script).trace →
    imagesOf (hostUpload profile firmware agentPayload script) =
      (fastbootBundle profile firmware agentPayload).toOption.map fun bundle =>
        (bundle.spl, bundle.agent)

/-- What the images and the profile have to satisfy for that.  The host looks for the SPL boundary
in the firmware, the pod in the agent if there is one. -/
def PodAgrees (profile : SoCProfile) (firmware : List UInt8)
    (agentPayload : Option (List UInt8)) : Prop :=
  match detectSplSize firmware profile.splMaxSize profile.splSramLimit,
    detectSplSize (agentPayload.getD firmware) profile.splMaxSize profile.splSramLimit with
  | .ok splSize, .ok podSize =>
      Fits profile splSize (agentPayload.getD firmware).length ∧ podSize = splSize ∧
        ¬ HasFfRun ffThreshold (agentPayload.getD firmware) ∧
        (agentPayload = none → splSize ≤ firmware.length)
  | .ok splSize, .error _ => ¬ Fits profile splSize (agentPayload.getD firmware).length
  | .error _, .ok _ => False
  | .error _, .error _ => True

section

variable {agentPayload : Option (List UInt8)}

lemma hostUpload_eq :
    hostUpload profile firmware agentPayload = sendFirmware (some profile)
      (agentPayload.getD firmware) (agentPayload.map fun _ => firmware) := by
  cases agentPayload <;> rfl

/-- The bytes of the SPL on the host. -/
def hostSpl (firmware : List UInt8) (agentPayload : Option (List UInt8)) (splSize : ℕ) :
    List UInt8 :=
  cutSpl (agentPayload.getD firmware) (agentPayload.map fun _ => firmware) splSize

/-- The host scans the firmware in any case. -/
lemma splImage_hostUpload :
    splImage profile (agentPayload.getD firmware) (agentPayload.map fun _ => firmware) =
      (detectSplSize firmware profile.splMaxSize profile.splSramLimit).map fun splSize =>
        (splSize, zeroLongFfRuns (hostSpl firmware agentPayload splSize) ffThreshold) := by
  have hscan : (agentPayload.map fun _ => firmware).getD (agentPayload.getD firmware) =
      firmware := by cases agentPayload <;> rfl
  unfold splImage
  rw [hscan]
  generalize detectSplSize firmware profile.splMaxSize profile.splSramLimit = detected
  cases detected <;> rfl

lemma sameImages_iff_of_none
    (h : ∀ splSize, detectSplSize firmware profile.splMaxSize profile.splSramLimit = .ok splSize →
      ¬ Fits profile splSize (agentPayload.getD firmware).length) :
    SameImages profile firmware agentPayload ↔
      (fastbootBundle profile firmware agentPayload).toOption = none := by
  have hhost : ∀ script, AcksEvery (hostUpload profile firmware agentPayload script).trace →
      imagesOf (hostUpload profile firmware agentPayload script) = none := by
    intro script hacks
    rw [hostUpload_eq] at hacks ⊢
    refine imagesOf_eq_none hacks fun splSize splData himage => h splSize ?_
    rw [splImage_hostUpload] at himage
    generalize detectSplSize firmware profile.splMaxSize profile.splSramLimit = detected at himage
    cases detected with
    | error e => cases himage
    | ok n =>
        cases himage
        rfl
  obtain ⟨script, hacks⟩ := exists_acksEvery profile (agentPayload.getD firmware)
    (agentPayload.map fun _ => firmware)
  rw [← hostUpload_eq] at hacks
  constructor
  · intro hsame
    have hmap := (hhost script hacks).symm.trans (hsame script hacks)
    simpa using hmap.symm
  · intro hnone script hacks
    rw [hhost script hacks, hnone]
    rfl

lemma sameImages_iff_of_some {splSize : ℕ}
    (hdetect : detectSplSize firmware profile.splMaxSize profile.splSramLimit = .ok splSize)
    (hfits : Fits profile splSize (agentPayload.getD firmware).length) :
    SameImages profile firmware agentPayload ↔
      (fastbootBundle profile firmware agentPayload).toOption.map
          (fun bundle => (bundle.spl, bundle.agent)) =
        some (zeroLongFfRuns (hostSpl firmware agentPayload splSize) ffThreshold,
          zeroLongFfRuns (agentPayload.getD firmware) ffThreshold) := by
  have hhost : ∀ script, AcksEvery (hostUpload profile firmware agentPayload script).trace →
      imagesOf (hostUpload profile firmware agentPayload script) =
        some (zeroLongFfRuns (hostSpl firmware agentPayload splSize) ffThreshold,
          zeroLongFfRuns (agentPayload.getD firmware) ffThreshold) := by
    intro script hacks
    rw [hostUpload_eq] at hacks ⊢
    refine imagesOf_eq_some hacks ?_ hfits
    rw [splImage_hostUpload, hdetect]
    rfl
  obtain ⟨script, hacks⟩ := exists_acksEvery profile (agentPayload.getD firmware)
    (agentPayload.map fun _ => firmware)
  rw [← hostUpload_eq] at hacks
  constructor
  · intro hsame
    rw [← hsame script hacks, hhost script hacks]
  · intro hsome script hacks
    rw [hhost script hacks, hsome]

lemma fastbootBundle_images :
    (fastbootBundle profile firmware agentPayload).toOption.map
        (fun bundle => (bundle.spl, bundle.agent)) =
      (detectSplSize (agentPayload.getD firmware) profile.splMaxSize
        profile.splSramLimit).toOption.map fun podSize =>
          (zeroLongFfRuns ((firmware.take podSize).rightpad podSize 0) ffThreshold,
            agentPayload.getD firmware) := by
  simp only [fastbootBundle]
  generalize detectSplSize (agentPayload.getD firmware) profile.splMaxSize
    profile.splSramLimit = detected
  cases detected <;> rfl

/-- The two ways to cut the SPL. -/
lemma hostSpl_eq_iff {splSize podSize : ℕ} (hnone : agentPayload = none → podSize = splSize) :
    zeroLongFfRuns ((firmware.take podSize).rightpad podSize 0) ffThreshold =
        zeroLongFfRuns (hostSpl firmware agentPayload splSize) ffThreshold ↔
      podSize = splSize ∧ (agentPayload = none → splSize ≤ firmware.length) := by
  have hpad : ∀ n, ((firmware.take n).rightpad n 0).length = n := fun n => by simp [List.rightpad]
  cases agentPayload with
  | some agent =>
      constructor
      · intro h
        have hlength := congrArg List.length h
        rw [length_zeroLongFfRuns, length_zeroLongFfRuns, hpad] at hlength
        exact ⟨hlength.trans (hpad splSize), by rintro ⟨⟩⟩
      · rintro ⟨rfl, -⟩
        rfl
  | none =>
      obtain rfl := hnone rfl
      constructor
      · intro h
        have hlength := congrArg List.length h
        rw [length_zeroLongFfRuns, length_zeroLongFfRuns, hpad] at hlength
        have htake : podSize = min podSize firmware.length := hlength.trans List.length_take
        exact ⟨rfl, fun _ => by omega⟩
      · rintro ⟨-, hle⟩
        have htake : (firmware.take podSize).length = podSize := by
          rw [List.length_take, Nat.min_eq_left (hle rfl)]
        rw [List.rightpad, htake, Nat.sub_self, List.replicate_zero, List.append_nil]
        rfl

end

/-- **When the pod gets the images the host would transmit.** -/
theorem sameImages_iff (profile : SoCProfile) (firmware : List UInt8)
    (agentPayload : Option (List UInt8)) :
    SameImages profile firmware agentPayload ↔ PodAgrees profile firmware agentPayload := by
  rw [PodAgrees]
  cases hhost : detectSplSize firmware profile.splMaxSize profile.splSramLimit with
  | error e =>
      -- the host raises
      have hnone : ∀ splSize, detectSplSize firmware profile.splMaxSize profile.splSramLimit =
          .ok splSize → ¬ Fits profile splSize (agentPayload.getD firmware).length := by
        intro splSize hok
        rw [hhost] at hok
        cases hok
      rw [sameImages_iff_of_none hnone, ← Option.map_eq_none_iff, fastbootBundle_images]
      cases detectSplSize (agentPayload.getD firmware) profile.splMaxSize
          profile.splSramLimit with
      | error e' => simp [Except.toOption]
      | ok podSize => simp [Except.toOption]
  | ok splSize =>
      by_cases hfits : Fits profile splSize (agentPayload.getD firmware).length
      · rw [sameImages_iff_of_some hhost hfits, fastbootBundle_images]
        cases hpod : detectSplSize (agentPayload.getD firmware) profile.splMaxSize
            profile.splSramLimit with
        | error e => simp [Except.toOption, hfits]
        | ok podSize =>
            have hsame : agentPayload = none → podSize = splSize := by
              rintro rfl
              rw [Option.getD_none, hhost] at hpod
              exact (Except.ok.inj hpod).symm
            have hff : zeroLongFfRuns (agentPayload.getD firmware) ffThreshold =
                agentPayload.getD firmware ↔ ¬ HasFfRun ffThreshold (agentPayload.getD firmware) :=
              zeroLongFfRuns_eq_self_iff (by simp [ffThreshold])
            simp only [Except.toOption, Option.map_some, Option.some.injEq, Prod.mk.injEq,
              hostSpl_eq_iff hsame, ← hff]
            constructor
            · rintro ⟨⟨hsize, hle⟩, himage⟩
              exact ⟨hfits, hsize, himage.symm, hle⟩
            · rintro ⟨-, hsize, himage, hle⟩
              exact ⟨⟨hsize, hle⟩, himage.symm⟩
      · have hnone : ∀ n, detectSplSize firmware profile.splMaxSize profile.splSramLimit =
            .ok n → ¬ Fits profile n (agentPayload.getD firmware).length := by
          intro n hok
          rw [hhost] at hok
          cases hok
          exact hfits
        rw [sameImages_iff_of_none hnone, ← Option.map_eq_none_iff, fastbootBundle_images]
        cases detectSplSize (agentPayload.getD firmware) profile.splMaxSize
            profile.splSramLimit with
        | error e => simp [Except.toOption, hfits]
        | ok podSize => simp [Except.toOption, hfits]

/-- The profile `gk7205v200`. -/
def SoCProfile.gk7205v200 : SoCProfile where
  prestepData := none
  prestep1Data := none
  ddrStepData := [
    4, 224, 45, 229, 36, 0, 159, 229, 36, 16, 159, 229, 0, 16, 128, 229, 32, 0, 159, 229,
    32, 16, 159, 229, 4, 16, 128, 228, 0, 224, 128, 229, 4, 240, 157, 228, 239, 190, 173, 222,
    239, 190, 173, 222, 239, 190, 173, 222, 60, 1, 2, 18, 120, 86, 52, 18, 64, 1, 2, 18,
    117, 106, 105, 122]
  ddrStepAddress := 0x04013000
  splAddress := 0x04010500
  ubootAddress := 0x41000000
  splMaxSize := 0x6000
  splSramLimit := none

/-- An agent with twelve bytes `0xFF` in it reaches the pod as it is, and the device, through the
host, with zeros. -/
theorem pod_keeps_ffRun :
    ¬ SameImages .gk7205v200 [0x00] (some (List.replicate 12 0xFF)) := by
  have hdetect : ∀ firmware, Unmarked firmware →
      detectSplSize firmware SoCProfile.gk7205v200.splMaxSize SoCProfile.gk7205v200.splSramLimit =
        .ok 0x6000 :=
    fun firmware h => detectSplSize_of_unmarked h _ _
  have hhost := hdetect [0x00] (by decide)
  have hpod := hdetect (List.replicate 12 0xFF) (by decide)
  have hfits : Fits .gk7205v200 0x6000
      ((some (List.replicate 12 (0xFF : UInt8))).getD [0x00]).length :=
    ⟨by decide, by rintro _ ⟨⟩, by decide, by decide, by decide, by decide⟩
  rw [sameImages_iff_of_some hhost hfits, fastbootBundle_images, Option.getD_some, hpod]
  simp only [Except.toOption, Option.map_some, Option.some.injEq, Prod.mk.injEq, not_and]
  intro _ hagent
  have hrun : HasFfRun ffThreshold (List.replicate 12 (0xFF : UInt8)) := List.infix_rfl
  exact (zeroLongFfRuns_eq_self_iff (by simp [ffThreshold])).mp hagent.symm hrun

end Defib
