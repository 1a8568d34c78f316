import Defib.Boot.Web
import Defib.Properties.BootImages
import Defib.Properties.BootWire

/-!
# The browser's upload and the host's

`standardSendFirmware` is a second implementation of `send_firmware`, without the search for the
SPL boundary and the treatment of `0xFF` runs.  `webAgrees_iff` says for which profiles and images
the two make the same transfers.
-/

namespace Defib
open HiSiliconStandard

/-- The transfers of an upload of the host, unless it ended in an exception. -/
def hostTransfers (o : HostOutcome RecoveryResult) : Option (List Transfer) :=
  match o.result with
  | .error _ => none
  | .ok _ => some (transfers (sentBy o))

/-- The transfers of an upload of the browser, unless it ended in an exception. -/
def webTransfers (o : HostOutcome Bool) : Option (List Transfer) :=
  match o.result with
  | .error _ => none
  | .ok _ => some (transfers (writes o.trace))

/-- With devices that ACK every frame, the browser uploads what the host uploads. -/
def WebAgrees (profile : SoCProfile) (firmware : List UInt8) : Prop :=
  ∀ script script',
    AcksEvery (sendFirmware (some profile) firmware none script).trace →
    AcksEvery (Web.standardSendFirmware firmware profile script').trace →
    webTransfers (Web.standardSendFirmware firmware profile script') =
      hostTransfers (sendFirmware (some profile) firmware none script)

/-! ## The transfers of the browser -/

lemma packBe32_mod (n : ℕ) : packBe32 (n % 2 ^ 32) = packBe32 n := by
  simp only [packBe32, List.cons.injEq, and_true]
  refine ⟨?_, ?_, ?_, ?_⟩ <;>
  · apply UInt8.toNat_inj.mp
    rw [UInt8.toNat_ofNat', UInt8.toNat_ofNat']
    omega

/-- A field that is too long is cut to its low 32 bits. -/
lemma transferFrames_mod (length address : ℕ) (chunks : List (List UInt8)) :
    transferFrames (length % 2 ^ 32) (address % 2 ^ 32) chunks =
      transferFrames length address chunks := by
  rw [transferFrames, transferFrames, headBytes, headBytes, packBe32_mod, packBe32_mod]

lemma map_fst_transferAttempts (length address : ℕ) (chunks : List (List UInt8)) :
    (Web.transferAttempts length address chunks).map Prod.fst =
      transferFrames length address chunks := by
  simp [Web.transferAttempts, transferFrames, Function.comp_def]

lemma mem_uploadAttempts {firmware : List UInt8} {profile : SoCProfile} {k : Web.Attempts}
    (h : k ∈ Web.uploadAttempts firmware profile) : 0 < k.2 ∧ k.1 ≠ [bootmodeAck] := by
  have htransfer : ∀ length address chunks, k ∈ Web.transferAttempts length address chunks →
      0 < k.2 ∧ k.1 ≠ [bootmodeAck] := by
    intro length address chunks hk
    refine ⟨?_, ?_⟩
    · simp only [Web.transferAttempts, List.mem_cons, List.mem_append, List.mem_map,
        List.not_mem_nil, or_false] at hk
      rcases hk with rfl | ⟨f, -, rfl⟩ | rfl
      · simp
      · simp
      · simp
    · have hmem : k.1 ∈ transferFrames length address chunks := by
        rw [← map_fst_transferAttempts]
        exact List.mem_map_of_mem hk
      exact ne_handshake_of_mem_transferFrames hmem
  simp only [Web.uploadAttempts, List.mem_append] at h
  rcases h with h | h | h
  · exact htransfer _ _ _ h
  · exact htransfer _ _ _ h
  · exact htransfer _ _ _ h

variable {profile : SoCProfile} {firmware : List UInt8}

lemma webTransfers_of_acksEvery {script : List (Reading UInt8)}
    (h : AcksEvery (Web.standardSendFirmware firmware profile script).trace) :
    webTransfers (Web.standardSendFirmware firmware profile script) = some
      [⟨profile.ddrStepAddress % 2 ^ 32, 64, profile.ddrStepData⟩,
        ⟨profile.splAddress % 2 ^ 32, profile.splMaxSize % 2 ^ 32,
          firmware.take profile.splMaxSize⟩,
        ⟨profile.ubootAddress % 2 ^ 32, firmware.length % 2 ^ 32, firmware⟩] := by
  rw [Web.standardSendFirmware_eq] at h ⊢
  obtain ⟨hresult, hwrites⟩ := sendAll_of_acksEvery
    (fun k hk => Web.attempt_sends (mem_uploadAttempts hk).1) rfl
    (fun k hk => (mem_uploadAttempts hk).2) h
  have hlt : ∀ n, n % 2 ^ 32 < 2 ^ 32 := fun n => Nat.mod_lt n (by omega)
  have hchunks : ∀ data, (chunkData data maxDataLen).flatten = data := fun data =>
    chunkData_flatten data (by simp [maxDataLen])
  -- the last transfer is followed by nothing
  have hend : ∀ length address chunks, transfersFrom none (transferFrames length address chunks) =
      [⟨address % 2 ^ 32, length % 2 ^ 32, chunks.flatten⟩] := by
    intro length address chunks
    rw [← List.append_nil (transferFrames _ _ _), ← transferFrames_mod,
      transfersFrom_transferFrames (hlt _) (hlt _)]
    rfl
  rw [webTransfers, hresult, hwrites, Web.uploadAttempts, List.map_append, List.map_append,
    map_fst_transferAttempts, map_fst_transferAttempts, map_fst_transferAttempts]
  simp only [transfers, Option.some.injEq]
  rw [← transferFrames_mod, transfersFrom_transferFrames (hlt _) (hlt _),
    ← transferFrames_mod profile.splMaxSize, transfersFrom_transferFrames (hlt _) (hlt _), hend,
    hchunks, hchunks]
  simp

lemma exists_acksEvery_web (firmware : List UInt8) (profile : SoCProfile) :
    ∃ script, AcksEvery (Web.standardSendFirmware firmware profile script).trace := by
  rw [Web.standardSendFirmware_eq]
  exact exists_acksEvery_sendAll (fun k hk => Web.attempt_sends (mem_uploadAttempts hk).1) rfl

/-! ## The transfers of the host -/

lemma hostTransfers_eq_none {script : List (Reading UInt8)}
    (h : AcksEvery (sendFirmware (some profile) firmware none script).trace)
    (hnone : ¬ ∃ splSize splData, splImage profile firmware none = .ok (splSize, splData) ∧
      Fits profile splSize firmware.length) :
    hostTransfers (sendFirmware (some profile) firmware none script) = none := by
  rw [← returns_iff_of_acksEvery h] at hnone
  rw [hostTransfers]
  cases hresult : (sendFirmware (some profile) firmware none script).result with
  | error e => rfl
  | ok r => exact absurd ⟨r, hresult⟩ hnone

lemma hostTransfers_eq_some {script : List (Reading UInt8)}
    (h : AcksEvery (sendFirmware (some profile) firmware none script).trace) {splSize : ℕ}
    {splData : List UInt8} (himage : splImage profile firmware none = .ok (splSize, splData))
    (hfits : Fits profile splSize firmware.length) (hprestep : profile.prestepData = none) :
    hostTransfers (sendFirmware (some profile) firmware none script) = some
      (⟨profile.ddrStepAddress, 64, profile.ddrStepData⟩ ::
        (profile.prestep1Data.toList.map (fun prestep1 =>
          ⟨profile.ddrStepAddress, prestep1.length, prestep1⟩) ++
        [⟨profile.splAddress, splSize, splData⟩,
          ⟨profile.ubootAddress, firmware.length, zeroLongFfRuns firmware ffThreshold⟩])) := by
  obtain ⟨r, hr⟩ := (returns_iff_of_acksEvery h).mpr ⟨splSize, splData, himage, hfits⟩
  have hchunks : ∀ data, (chunkData data maxDataLen).flatten = data := fun data =>
    chunkData_flatten data (by simp [maxDataLen])
  rw [hostTransfers, hr, transfers_of_acksEvery h, takeWhile_segments_of_fits himage hfits,
    segments, imageSegments, himage, ddrSegments, hprestep]
  simp [Segment.transfer, ubootSegment, hchunks, Function.comp_def]

/-! ## When they agree -/

/-- The profile and the image are such that nothing the browser leaves out would have an effect. -/
structure Plain (profile : SoCProfile) (firmware : List UInt8) : Prop where
  prestep1 : profile.prestep1Data = none
  boundary : detectSplSize firmware profile.splMaxSize profile.splSramLimit =
    .ok profile.splMaxSize
  fits : Fits profile profile.splMaxSize firmware.length
  noRun : ¬ HasFfRun ffThreshold firmware

/-- A boundary at which the image is cut as the browser cuts it is the profile's. -/
lemma boundary_eq_of_take_eq {splSize : ℕ}
    (hdetect : detectSplSize firmware profile.splMaxSize profile.splSramLimit = .ok splSize)
    (hdata : zeroLongFfRuns (firmware.take splSize) ffThreshold =
      firmware.take profile.splMaxSize) : splSize = profile.splMaxSize := by
  rcases detectSplSize_cases hdetect with heq | hlt
  · exact heq
  · have hlength := congrArg List.length hdata
    rw [length_zeroLongFfRuns, List.length_take, List.length_take] at hlength
    omega

lemma ffThreshold_pos : 0 < ffThreshold := by simp [ffThreshold]

lemma plain_of_webAgrees (hprestep : profile.prestepData = none) (h : WebAgrees profile firmware) :
    Plain profile firmware := by
  obtain ⟨script, hacks⟩ := exists_acksEvery profile firmware none
  obtain ⟨script', hacks'⟩ := exists_acksEvery_web firmware profile
  have heq := h script script' hacks hacks'
  rw [webTransfers_of_acksEvery hacks'] at heq
  by_cases hreturns : ∃ splSize splData, splImage profile firmware none = .ok (splSize, splData) ∧
      Fits profile splSize firmware.length
  · obtain ⟨splSize, splData, himage, hfits⟩ := hreturns
    obtain ⟨hdetect, hdata⟩ := of_splImage himage
    rw [hostTransfers_eq_some hacks himage hfits hprestep, Option.some.injEq,
      List.cons.injEq] at heq
    obtain ⟨-, heq⟩ := heq
    cases hprestep1 : profile.prestep1Data with
    | some prestep1 =>
        -- the host makes one transfer more
        rw [hprestep1] at heq
        cases congrArg List.length heq
    | none =>
        rw [hprestep1] at heq
        simp only [Option.toList_none, List.map_nil, List.nil_append, List.cons.injEq,
          Transfer.mk.injEq, and_true] at heq
        obtain ⟨⟨-, -, hspl⟩, -, -, huboot⟩ := heq
        rw [hdata] at hspl
        have hsize : splSize = profile.splMaxSize := boundary_eq_of_take_eq hdetect hspl.symm
        subst hsize
        exact ⟨hprestep1, hdetect, hfits,
          (zeroLongFfRuns_eq_self_iff ffThreshold_pos).mp huboot.symm⟩
  · rw [hostTransfers_eq_none hacks hreturns] at heq
    cases heq

lemma webAgrees_of_plain (hprestep : profile.prestepData = none) (h : Plain profile firmware) :
    WebAgrees profile firmware := by
  intro script script' hacks hacks'
  have hnoRun : ¬ HasFfRun ffThreshold (firmware.take profile.splMaxSize) := fun hrun =>
    h.noRun (hrun.trans (List.take_prefix _ _).isInfix)
  have himage : splImage profile firmware none =
      .ok (profile.splMaxSize, firmware.take profile.splMaxSize) := by
    rw [splImage, Option.getD_none, h.boundary]
    change Except.ok (_, zeroLongFfRuns (firmware.take profile.splMaxSize) ffThreshold) = _
    rw [(zeroLongFfRuns_eq_self_iff ffThreshold_pos).mpr hnoRun]
  have hfits := h.fits
  rw [webTransfers_of_acksEvery hacks', hostTransfers_eq_some hacks himage hfits hprestep,
    h.prestep1, (zeroLongFfRuns_eq_self_iff ffThreshold_pos).mpr h.noRun,
    Nat.mod_eq_of_lt hfits.ddrStep, Nat.mod_eq_of_lt hfits.splAddress,
    Nat.mod_eq_of_lt hfits.splSize, Nat.mod_eq_of_lt hfits.ubootAddress,
    Nat.mod_eq_of_lt hfits.ubootSize]
  rfl

/-- **When the browser uploads what the host uploads.** -/
theorem webAgrees_iff (profile : SoCProfile) (firmware : List UInt8)
    (hprestep : profile.prestepData = none) :
    WebAgrees profile firmware ↔ Plain profile firmware :=
  ⟨plain_of_webAgrees hprestep, webAgrees_of_plain hprestep⟩

theorem webAgrees_one_byte : WebAgrees .gk7205v200 [0x00] := by
  refine (webAgrees_iff .gk7205v200 [0x00] rfl).mpr ⟨rfl, ?_, ?_, by decide⟩
  · exact detectSplSize_of_unmarked (by decide) _ _
  · exact ⟨by decide, by rintro _ ⟨⟩, by decide, by decide, by decide, by decide⟩

/-- A run of twelve bytes `0xFF` reaches the device from the browser, and as zeros from the
host. -/
theorem web_keeps_ffRun : ¬ WebAgrees .gk7205v200 (List.replicate 12 0xFF) := by
  intro h
  have hplain : Plain .gk7205v200 (List.replicate 12 0xFF) := plain_of_webAgrees rfl h
  exact hplain.noRun List.infix_rfl

end Defib
