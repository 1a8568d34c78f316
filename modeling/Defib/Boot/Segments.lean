import Mathlib.Data.List.TakeWhile
import Defib.Boot.Plan

/-!
# The plan of `sendFirmware`

An upload is a list of transfers, the `Segment`s: the DDR steps of the profile, the SPL, and
U-Boot, each with the length its HEAD frame declares.  `plan` is the sequence of frames they make,
cut before the first HEAD frame that cannot be encoded, and `planOf_uploadParts` says that it is
the plan of the parts that `sendFirmware` carries out.

`sendFirmware_recorded` is what a listener records of a run, in these terms.
-/

namespace Defib
namespace HiSiliconStandard

/-- A transfer of an upload. -/
structure Segment where
  stage : Stage
  length : ℕ
  address : ℕ
  chunks : List (List UInt8)
  deriving DecidableEq, Repr

/-- The fields of the HEAD frame have 32 bits. -/
def Segment.encodable (t : Segment) : Bool := t.length < 2 ^ 32 ∧ t.address < 2 ^ 32

def Segment.frames (t : Segment) : List (Stage × List UInt8) :=
  (transferFrames t.length t.address t.chunks).map (t.stage, ·)

def Segment.transfer (t : Segment) : Transfer := ⟨t.address, t.length, t.chunks.flatten⟩

/-- The transfers of the DDR steps. -/
def ddrSegments (profile : SoCProfile) : List Segment :=
  profile.prestepData.toList.map (fun prestep =>
    ⟨.ddrInit, 64, profile.ddrStepAddress, [prestep]⟩) ++
  (⟨.ddrInit, 64, profile.ddrStepAddress, [profile.ddrStepData]⟩ ::
    profile.prestep1Data.toList.map fun prestep1 =>
      ⟨.ddrInit, prestep1.length, profile.ddrStepAddress, [prestep1]⟩)

/-- The transfer of U-Boot. -/
def ubootSegment (profile : SoCProfile) (firmware : List UInt8) : Segment :=
  ⟨.uboot, firmware.length, profile.ubootAddress,
    chunkData (zeroLongFfRuns firmware ffThreshold) maxDataLen⟩

/-- The transfers of the images, as far as they are defined. -/
def imageSegments (profile : SoCProfile) (firmware : List UInt8)
    (splOverride : Option (List UInt8)) : List Segment :=
  match splImage profile firmware splOverride with
  | .ok (splSize, splData) =>
      [⟨.spl, splSize, profile.splAddress, chunkData splData maxDataLen⟩,
        ubootSegment profile firmware]
  | .error _ => []

/-- The transfers of an upload. -/
def segments (profile : SoCProfile) (firmware : List UInt8) (splOverride : Option (List UInt8)) :
    List Segment :=
  ddrSegments profile ++ imageSegments profile firmware splOverride

/-- The frames of an upload, with their stages. -/
def plan (profile : SoCProfile) (firmware : List UInt8) (splOverride : Option (List UInt8)) :
    List (Stage × List UInt8) :=
  ((segments profile firmware splOverride).takeWhile Segment.encodable).flatMap Segment.frames

/-- The frames whose ACK matters: every HEAD and DATA frame, and the TAIL of the SPL where the
profile has no PRESTEP0. -/
def mustAck (profile : SoCProfile) (stage : Stage) (frame : List UInt8) : Bool :=
  frameLabel frame ≠ .tail ∨ (stage = .spl ∧ profile.prestepData = none)

/-! ## The frames of a transfer -/

section

variable (length address : ℕ) (chunks : List (List UInt8)) (headRetries : ℕ)
  (headErr dataErr : String) (tailErr : Option String)

lemma sentFrames_dataSendings_append (err : String) (seq : ℕ) (chunks : List (List UInt8))
    (ss : List Sending) :
    sentFrames (dataSendings err seq chunks ++ ss) = dataFrames seq chunks ++ sentFrames ss := by
  induction chunks generalizing seq with
  | nil => rfl
  | cons c cs ih => simp [dataSendings, dataFrames, sentFrames, ih]

lemma any_raises_dataSendings (err : String) (seq : ℕ) (chunks : List (List UInt8)) :
    (dataSendings err seq chunks).any Sending.raises = false := by
  induction chunks generalizing seq with
  | nil => rfl
  | cons c cs ih => simpa [dataSendings, Sending.raises] using ih (seq + 1)

lemma headSending_of_lt {length address : ℕ} (h : length < 2 ^ 32 ∧ address < 2 ^ 32)
    (retries : ℕ) (err : String) :
    headSending length address retries err =
      .frame (headBytes length address) retries (some err) := by
  rw [headSending, headFrame, if_pos h]

lemma headSending_of_not_lt {length address : ℕ} (h : ¬ (length < 2 ^ 32 ∧ address < 2 ^ 32))
    (retries : ℕ) (err : String) :
    headSending length address retries err = .raise "argument out of range" := by
  rw [headSending, headFrame, if_neg h]

lemma sentFrames_transferSendings_append (ss : List Sending) :
    sentFrames
        (transferSendings length address chunks headRetries headErr dataErr tailErr ++ ss) =
      if length < 2 ^ 32 ∧ address < 2 ^ 32 then
        transferFrames length address chunks ++ sentFrames ss
      else [] := by
  rw [transferSendings, List.cons_append]
  split
  · rename_i h
    rw [headSending_of_lt h, sentFrames, List.append_assoc, sentFrames_dataSendings_append,
      transferFrames]
    simp [sentFrames]
  · rename_i h
    rw [headSending_of_not_lt h]
    rfl

lemma any_raises_transferSendings :
    (transferSendings length address chunks headRetries headErr dataErr tailErr).any
      Sending.raises = !decide (length < 2 ^ 32 ∧ address < 2 ^ 32) := by
  rw [transferSendings, List.any_cons, List.any_append, any_raises_dataSendings]
  by_cases h : length < 2 ^ 32 ∧ address < 2 ^ 32
  · rw [headSending_of_lt h, decide_eq_true h]
    rfl
  · rw [headSending_of_not_lt h, decide_eq_false h]
    rfl

end

/-! ## Well-formedness -/

lemma dataFrame_ne_succ (seq : ℕ) (c c' : List UInt8) :
    dataFrame seq c ≠ dataFrame (seq + 1) c' := by
  intro h
  have hbyte := congrArg (fun f => f.getD 1 0) h
  simp only [dataFrame, appendCrc, List.cons_append, List.getD_cons_succ,
    List.getD_cons_zero] at hbyte
  have hnat := congrArg UInt8.toNat hbyte
  rw [UInt8.toNat_ofNat', UInt8.toNat_ofNat'] at hnat
  omega

lemma wellFormed_dataSendings_append {must : Stage → List UInt8 → Bool} {stage : Stage}
    (hmust : ∀ f, frameLabel f ≠ .tail → must stage f = true) (err : String) {ss : List Sending}
    (hss : ∀ f, frameLabel f ≠ .tail → WellFormed must stage (some f) ss) (seq : ℕ)
    (chunks : List (List UInt8)) {prev : List UInt8} (hlabel : frameLabel prev ≠ .tail)
    (hprev : ∀ c, prev ≠ dataFrame seq c) :
    WellFormed must stage (some prev) (dataSendings err seq chunks ++ ss) := by
  induction chunks generalizing seq prev with
  | nil => exact hss prev hlabel
  | cons c cs ih =>
      have hdata : frameLabel (dataFrame seq c) ≠ .tail := by simp [frameLabel_dataFrame]
      refine ⟨by simp [frameSendRetriesLong], by simp [frameLabel_dataFrame], ?_, ?_, ?_⟩
      · simpa using hprev c
      · simp [hmust _ hdata]
      · exact ih (seq + 1) hdata (dataFrame_ne_succ seq c)

lemma wellFormed_transferSendings_append {must : Stage → List UInt8 → Bool} {stage : Stage}
    (hmust : ∀ f, frameLabel f ≠ .tail → must stage f = true) {length address : ℕ}
    {chunks : List (List UInt8)} {headRetries : ℕ} (hretries : 0 < headRetries)
    {headErr dataErr : String} {tailErr : Option String}
    (htail : ∀ seq, tailErr.isSome = must stage (tailFrame seq)) {ss : List Sending}
    (hss : ∀ seq, WellFormed must stage (some (tailFrame seq)) ss) {prev : Option (List UInt8)}
    (hprev : ∀ f ∈ prev, frameLabel f = .tail) :
    WellFormed must stage prev
      (transferSendings length address chunks headRetries headErr dataErr tailErr ++ ss) := by
  rw [transferSendings, List.cons_append]
  by_cases h : length < 2 ^ 32 ∧ address < 2 ^ 32
  · have hhead := frameLabel_headBytes length address
    rw [headSending_of_lt h, List.append_assoc]
    refine ⟨hretries, by simp [hhead], ?_, ?_, ?_⟩
    · intro heq
      have := hprev _ heq
      simp [hhead] at this
    · simp [hmust _ (show frameLabel (headBytes length address) ≠ .tail by simp [hhead])]
    · refine wellFormed_dataSendings_append hmust dataErr (fun f hf => ?_) 1 chunks
        (by simp [hhead]) fun c => headBytes_ne_of_label (by simp [frameLabel_dataFrame])
      refine ⟨by simp [frameSendRetriesShort], by simp [frameLabel_tailFrame], ?_, htail _, hss _⟩
      rintro ⟨rfl⟩
      exact hf (frameLabel_tailFrame _)
  · rw [headSending_of_not_lt h]
    trivial

lemma mustAck_of_ne_tail (profile : SoCProfile) (stage : Stage) {f : List UInt8}
    (h : frameLabel f ≠ .tail) : mustAck profile stage f = true := by
  simp [mustAck, h]

lemma mustAck_tailFrame (profile : SoCProfile) (stage : Stage) (seq : ℕ) :
    mustAck profile stage (tailFrame seq) =
      decide (stage = .spl ∧ profile.prestepData = none) := by
  simp [mustAck, frameLabel_tailFrame]

/-! ## The plan of the parts -/

/-- The frames of a list of transfers, up to one that cannot be encoded. -/
def framesOf (ts : List Segment) : List (Stage × List UInt8) :=
  (ts.takeWhile Segment.encodable).flatMap Segment.frames

lemma framesOf_cons (t : Segment) (ts : List Segment) :
    framesOf (t :: ts) = if t.encodable then t.frames ++ framesOf ts else [] := by
  rw [framesOf, List.takeWhile_cons]
  split
  · rw [List.flatMap_cons, framesOf]
  · rfl

lemma framesOf_append (ts ts' : List Segment) :
    framesOf (ts ++ ts') =
      framesOf ts ++ if ts.all Segment.encodable then framesOf ts' else [] := by
  induction ts with
  | nil => simp [framesOf]
  | cons t ts ih =>
      rw [List.cons_append, framesOf_cons, framesOf_cons, ih, List.all_cons]
      cases t.encodable <;> simp

/-- The part makes the transfers `ts`. -/
structure Part.Makes (part : Part) (ts : List Segment) : Prop where
  plan_eq : part.plan = framesOf ts
  raises_eq : part.raises = !ts.all Segment.encodable

lemma planOf_cons_of_makes {part : Part} {parts : List Part} {ts ts' : List Segment}
    (h : part.Makes ts) (h' : ts.all Segment.encodable = true → planOf parts = framesOf ts') :
    planOf (part :: parts) = framesOf (ts ++ ts') := by
  rw [planOf, h.plan_eq, h.raises_eq, framesOf_append]
  cases hall : ts.all Segment.encodable with
  | true => simp [h' hall]
  | false => simp

lemma startOpener_of_lt {profile : SoCProfile} (h : profile.ddrStepAddress < 2 ^ 32)
    (err : String) :
    startOpener profile err = .blast (headBytes 64 profile.ddrStepAddress) err := by
  rw [startOpener, headFrame, if_pos ⟨by omega, h⟩]

lemma startOpener_of_not_lt {profile : SoCProfile} (h : ¬ profile.ddrStepAddress < 2 ^ 32)
    (err : String) : startOpener profile err = .raise "argument out of range" := by
  rw [startOpener, headFrame, if_neg fun hlt => h hlt.2]

/-- The transfers of a part that has one stage and no exception before its frames. -/
lemma Part.Makes.of_sendings {part : Part} {ts : List Segment}
    (hopeners : part.openers.any Opener.raises = false)
    (hframes : (sentFrames part.sendings).map (part.stage, ·) = framesOf ts)
    (hraises : part.sendings.any Sending.raises = !ts.all Segment.encodable) : part.Makes ts where
  plan_eq := by
    rw [Part.plan, Part.frames, hopeners]
    exact hframes
  raises_eq := by rw [Part.raises, hopeners, hraises, Bool.false_or]

lemma framesOf_transferSendings_append (t : Segment) (headRetries : ℕ) (headErr dataErr : String)
    (tailErr : Option String) {ss : List Sending} {ts : List Segment}
    (h : (sentFrames ss).map (t.stage, ·) = framesOf ts) :
    (sentFrames (transferSendings t.length t.address t.chunks headRetries headErr dataErr tailErr ++
      ss)).map (t.stage, ·) = framesOf (t :: ts) := by
  rw [sentFrames_transferSendings_append, framesOf_cons, Segment.encodable]
  by_cases henc : t.length < 2 ^ 32 ∧ t.address < 2 ^ 32
  · rw [if_pos henc, if_pos (decide_eq_true henc), List.map_append, h, Segment.frames]
  · rw [if_neg henc, if_neg (by rw [decide_eq_true_eq]; exact henc), List.map_nil]

lemma any_raises_transferSendings_append (t : Segment) (headRetries : ℕ)
    (headErr dataErr : String) (tailErr : Option String) {ss : List Sending} {ts : List Segment}
    (h : ss.any Sending.raises = !ts.all Segment.encodable) :
    (transferSendings t.length t.address t.chunks headRetries headErr dataErr tailErr ++ ss).any
      Sending.raises = !(t :: ts).all Segment.encodable := by
  rw [List.any_append, any_raises_transferSendings, h, List.all_cons, Segment.encodable,
    Bool.not_and]

/-- The frames and the exceptions of a single transfer. -/
lemma transferSendings_makes (t : Segment) (headRetries : ℕ) (headErr dataErr : String)
    (tailErr : Option String) :
    (sentFrames (transferSendings t.length t.address t.chunks headRetries headErr dataErr
        tailErr)).map (t.stage, ·) = framesOf [t] ∧
      (transferSendings t.length t.address t.chunks headRetries headErr dataErr tailErr).any
        Sending.raises = !List.all [t] Segment.encodable := by
  have hnil : (sentFrames []).map (t.stage, ·) = framesOf [] := rfl
  have hnil' : ([] : List Sending).any Sending.raises =
      !([] : List Segment).all Segment.encodable := rfl
  have hframes := framesOf_transferSendings_append t headRetries headErr dataErr tailErr hnil
  have hraises := any_raises_transferSendings_append t headRetries headErr dataErr tailErr hnil'
  rw [List.append_nil] at hframes hraises
  exact ⟨hframes, hraises⟩

/-- The frames and the exceptions of the DDR steps. -/
lemma ddrPart_sendings (profile : SoCProfile) :
    (sentFrames (ddrPart profile).sendings).map (Stage.ddrInit, ·) =
        framesOf (ddrSegments profile) ∧
      (ddrPart profile).sendings.any Sending.raises =
        !(ddrSegments profile).all Segment.encodable := by
  -- from the last step to the first
  have hprestep1 : (sentFrames (prestep1Sendings profile)).map (Stage.ddrInit, ·) =
      framesOf (profile.prestep1Data.toList.map fun prestep1 =>
        ⟨.ddrInit, prestep1.length, profile.ddrStepAddress, [prestep1]⟩) ∧
      (prestep1Sendings profile).any Sending.raises =
      !(profile.prestep1Data.toList.map fun prestep1 =>
        (⟨.ddrInit, prestep1.length, profile.ddrStepAddress, [prestep1]⟩ : Segment)).all
          Segment.encodable := by
    rw [prestep1Sendings]
    cases profile.prestep1Data with
    | none => exact ⟨rfl, rfl⟩
    | some prestep1 =>
        exact transferSendings_makes
          ⟨.ddrInit, prestep1.length, profile.ddrStepAddress, [prestep1]⟩ _ _ _ _
  have hddr := framesOf_transferSendings_append
    ⟨.ddrInit, 64, profile.ddrStepAddress, [profile.ddrStepData]⟩ frameSendRetriesShort
    ("DDRSTEP0" ++ " HEAD frame not ACKed") ("DDRSTEP0" ++ " DATA frame not ACKed") none hprestep1.1
  have hddr' := any_raises_transferSendings_append
    ⟨.ddrInit, 64, profile.ddrStepAddress, [profile.ddrStepData]⟩ frameSendRetriesShort
    ("DDRSTEP0" ++ " HEAD frame not ACKed") ("DDRSTEP0" ++ " DATA frame not ACKed") none hprestep1.2
  rw [ddrPart, ddrSegments, prestep0Sendings]
  cases profile.prestepData with
  | none => exact ⟨hddr, hddr'⟩
  | some prestep =>
      exact ⟨framesOf_transferSendings_append
          ⟨.ddrInit, 64, profile.ddrStepAddress, [prestep]⟩ _ _ _ _ hddr,
        any_raises_transferSendings_append
          ⟨.ddrInit, 64, profile.ddrStepAddress, [prestep]⟩ _ _ _ _ hddr'⟩

lemma ddrPart_makes (profile : SoCProfile) : (ddrPart profile).Makes (ddrSegments profile) := by
  obtain ⟨hframes, hraises⟩ := ddrPart_sendings profile
  by_cases hopeners : (ddrPart profile).openers.any Opener.raises = true
  · -- the blasts of a frame that cannot be encoded: neither can the first HEAD frame
    obtain ⟨prestep, hprestep⟩ : ∃ prestep, profile.prestepData = some prestep := by
      cases h : profile.prestepData with
      | none => simp [ddrPart, h, Opener.raises] at hopeners
      | some prestep => exact ⟨prestep, rfl⟩
    have haddress : ¬ profile.ddrStepAddress < 2 ^ 32 := by
      intro hlt
      simp [ddrPart, hprestep, Opener.raises, startOpener_of_lt hlt] at hopeners
    have hencodable : Segment.encodable ⟨.ddrInit, 64, profile.ddrStepAddress, [prestep]⟩ =
        false := decide_eq_false fun h => haddress h.2
    have hsegments : ddrSegments profile =
        ⟨.ddrInit, 64, profile.ddrStepAddress, [prestep]⟩ :: (ddrSegments profile).tail := by
      rw [ddrSegments, hprestep]
      rfl
    refine ⟨?_, ?_⟩
    · rw [Part.plan, Part.frames, if_pos hopeners, hsegments, framesOf_cons, hencodable]
      rfl
    · rw [Part.raises, hopeners, hsegments, List.all_cons, hencodable]
      rfl
  · exact .of_sendings (by simpa using hopeners) hframes hraises

lemma splPart_makes {profile : SoCProfile} {firmware : List UInt8}
    {splOverride : Option (List UInt8)} {splSize : ℕ} {splData : List UInt8}
    (h : splImage profile firmware splOverride = .ok (splSize, splData)) :
    (splPart profile firmware splOverride).Makes
      [⟨.spl, splSize, profile.splAddress, chunkData splData maxDataLen⟩] := by
  obtain ⟨hframes, hraises⟩ := transferSendings_makes
    ⟨.spl, splSize, profile.splAddress, chunkData splData maxDataLen⟩ frameSendRetriesShort
    "Failed to send SPL" "Failed to send SPL"
    (if profile.prestepData.isNone then some "Failed to send SPL" else none)
  refine .of_sendings ?_ ?_ ?_
  · simp [splPart, h, Opener.raises]
  · simpa only [splPart, h] using hframes
  · simpa only [splPart, h] using hraises

lemma ubootPart_makes {profile : SoCProfile} {firmware : List UInt8}
    (h : (ubootPart profile firmware).openers.any Opener.raises = false) :
    (ubootPart profile firmware).Makes [ubootSegment profile firmware] := by
  obtain ⟨hframes, hraises⟩ := transferSendings_makes (ubootSegment profile firmware) 64
    "Failed to send U-Boot" "Failed to send U-Boot" none
  exact .of_sendings h hframes hraises

lemma ubootPart_opens {profile : SoCProfile} (firmware : List UInt8)
    (h : profile.ddrStepAddress < 2 ^ 32) :
    (ubootPart profile firmware).openers.any Opener.raises = false := by
  rw [ubootPart]
  cases profile.prestepData with
  | none => rfl
  | some prestep => simp [Opener.raises, startOpener_of_lt h]

lemma ddrStepAddress_lt_of_all {profile : SoCProfile}
    (h : (ddrSegments profile).all Segment.encodable = true) :
    profile.ddrStepAddress < 2 ^ 32 := by
  rw [List.all_eq_true] at h
  have hstep := h ⟨.ddrInit, 64, profile.ddrStepAddress, [profile.ddrStepData]⟩ (by
    simp [ddrSegments])
  exact (of_decide_eq_true hstep).2

/-- **The plan of the parts is the plan.** -/
lemma planOf_uploadParts (profile : SoCProfile) (firmware : List UInt8)
    (splOverride : Option (List UInt8)) :
    planOf (uploadParts profile firmware splOverride) = plan profile firmware splOverride := by
  refine planOf_cons_of_makes (ddrPart_makes profile) fun hall => ?_
  rw [imageSegments]
  cases himage : splImage profile firmware splOverride with
  | error e =>
      have hraises : (splPart profile firmware splOverride).openers.any Opener.raises = true := by
        simp [splPart, himage, Opener.raises]
      rw [planOf, Part.plan, Part.frames, if_pos hraises, Part.raises, hraises]
      rfl
  | ok image =>
      refine planOf_cons_of_makes (splPart_makes himage) fun _ => ?_
      have hnil : planOf [] = framesOf [] := rfl
      have huboot := planOf_cons_of_makes
        (ubootPart_makes (ubootPart_opens firmware (ddrStepAddress_lt_of_all hall))) fun _ => hnil
      rwa [List.append_nil] at huboot

/-! ## The parts are well-formed -/

lemma wanted_ne_nil_of_makes {profile : SoCProfile} {part : Part} {ts : List Segment}
    (hmakes : part.Makes ts) (hraises : part.raises = false) {t : Segment} (ht : t ∈ ts)
    (hstage : t.stage = part.stage) : wanted (mustAck profile) part.plan part.stage ≠ [] := by
  have hall : ts.all Segment.encodable = true := by
    have := hmakes.raises_eq
    rw [hraises] at this
    simpa using this.symm
  have hmem : (t.stage, headBytes t.length t.address) ∈ part.plan := by
    rw [hmakes.plan_eq, framesOf,
      List.takeWhile_eq_self_iff.mpr fun x hx => List.all_eq_true.mp hall x hx]
    exact List.mem_flatMap.mpr ⟨t, ht, by simp [Segment.frames, transferFrames]⟩
  have hmust := mustAck_of_ne_tail profile t.stage
    (show frameLabel (headBytes t.length t.address) ≠ .tail by simp [frameLabel_headBytes])
  intro hnil
  rw [wanted, List.map_eq_nil_iff, List.filter_eq_nil_iff] at hnil
  exact hnil _ hmem (by simpa using ⟨hstage, hmust⟩)

lemma stageAfter_startOpener (profile : SoCProfile) (err : String) (s : Stage) :
    stageAfter s [startOpener profile err] = s := by
  rw [startOpener]
  cases headFrame 64 profile.ddrStepAddress <;> rfl

lemma wellFormed_nil_of_tail (profile : SoCProfile) (stage : Stage) (seq : ℕ) :
    WellFormed (mustAck profile) stage (some (tailFrame seq)) [] := by
  rintro f ⟨⟩
  exact frameLabel_tailFrame seq

lemma wellFormed_stepSendings_append (profile : SoCProfile) (name : String) (length address : ℕ)
    (data : List UInt8) {ss : List Sending}
    (hss : ∀ seq, WellFormed (mustAck profile) .ddrInit (some (tailFrame seq)) ss)
    {prev : Option (List UInt8)} (hprev : ∀ f ∈ prev, frameLabel f = .tail) :
    WellFormed (mustAck profile) .ddrInit prev (stepSendings name length address data ++ ss) :=
  wellFormed_transferSendings_append (fun _ hf => mustAck_of_ne_tail profile _ hf)
    (by simp [frameSendRetriesShort]) (fun seq => by simp [mustAck_tailFrame]) hss hprev

lemma ddrPart_wellFormed (profile : SoCProfile) :
    (ddrPart profile).WellFormed (mustAck profile) where
  opens := by
    intro _ s
    rw [ddrPart]
    cases profile.prestepData with
    | none => rfl
    | some prestep => simp [stageAfter, stageAfter_startOpener]
  sends := by
    intro prev hprev
    have htail : ∀ seq, ∀ f ∈ some (tailFrame seq), frameLabel f = .tail := by
      rintro seq f ⟨⟩
      exact frameLabel_tailFrame seq
    have hprestep1 : ∀ seq, WellFormed (mustAck profile) .ddrInit (some (tailFrame seq))
        (prestep1Sendings profile) := by
      intro seq
      rw [prestep1Sendings]
      cases profile.prestep1Data with
      | none => exact wellFormed_nil_of_tail profile _ seq
      | some prestep1 =>
          have h := wellFormed_stepSendings_append profile "PRESTEP1" prestep1.length
            profile.ddrStepAddress prestep1 (wellFormed_nil_of_tail profile _) (htail seq)
          rwa [List.append_nil] at h
    have hddr {prev : Option (List UInt8)} (hprev : ∀ f ∈ prev, frameLabel f = .tail) :=
      wellFormed_stepSendings_append profile "DDRSTEP0" 64 profile.ddrStepAddress
        profile.ddrStepData hprestep1 hprev
    rw [ddrPart, prestep0Sendings]
    cases profile.prestepData with
    | none => exact hddr hprev
    | some prestep =>
        exact wellFormed_stepSendings_append profile "PRESTEP0" 64 _ prestep
          (fun seq => hddr (htail seq)) hprev
  matters := fun hraises => wanted_ne_nil_of_makes (ddrPart_makes profile) hraises
    (t := ⟨.ddrInit, 64, profile.ddrStepAddress, [profile.ddrStepData]⟩) (by simp [ddrSegments]) rfl

lemma splPart_wellFormed (profile : SoCProfile) (firmware : List UInt8)
    (splOverride : Option (List UInt8)) :
    (splPart profile firmware splOverride).WellFormed (mustAck profile) := by
  cases himage : splImage profile firmware splOverride with
  | error e =>
      have hraises : (splPart profile firmware splOverride).openers.any Opener.raises = true := by
        simp [splPart, himage, Opener.raises]
      refine ⟨fun h => ?_, fun prev hprev => ?_, fun h => ?_⟩
      · rw [hraises] at h
        cases h
      · simp only [splPart, himage]
        exact hprev
      · rw [Part.raises, hraises] at h
        cases h
  | ok image =>
      refine ⟨fun _ s => ?_, fun prev hprev => ?_, fun hraises => ?_⟩
      · simp [splPart, himage, stageAfter]
      · have h : WellFormed (mustAck profile) .spl prev (transferSendings image.1
            profile.splAddress (chunkData image.2 maxDataLen) frameSendRetriesShort
            "Failed to send SPL" "Failed to send SPL"
            (if profile.prestepData.isNone then some "Failed to send SPL" else none) ++ []) := by
          refine wellFormed_transferSendings_append (fun _ hf => mustAck_of_ne_tail profile _ hf)
            (by simp [frameSendRetriesShort]) (fun seq => ?_) (wellFormed_nil_of_tail profile _)
            hprev
          rw [mustAck_tailFrame]
          cases profile.prestepData <;> simp
        rw [List.append_nil] at h
        simpa only [splPart, himage] using h
      · exact wanted_ne_nil_of_makes (splPart_makes himage) hraises (List.mem_singleton_self _) rfl

lemma ubootPart_wellFormed (profile : SoCProfile) (firmware : List UInt8) :
    (ubootPart profile firmware).WellFormed (mustAck profile) where
  opens := by
    intro _ s
    rw [ubootPart]
    cases profile.prestepData with
    | none => rfl
    | some prestep => simp [stageAfter, stageAfter_startOpener]
  sends := by
    intro prev hprev
    have h : WellFormed (mustAck profile) .uboot prev
        ((ubootPart profile firmware).sendings ++ []) := by
      refine wellFormed_transferSendings_append (fun _ hf => mustAck_of_ne_tail profile _ hf)
        (by omega) (fun seq => ?_) (wellFormed_nil_of_tail profile _) hprev
      simp [mustAck_tailFrame]
    rwa [List.append_nil] at h
  matters := by
    intro hraises
    have hopeners := (Bool.or_eq_false_iff.mp hraises).1
    exact wanted_ne_nil_of_makes (ubootPart_makes hopeners) hraises (List.mem_singleton_self _) rfl

/-! ## Payloads -/

/-- The DATA payloads of a stage, put together. -/
def stagePayload (stage : Stage) (ks : List (Stage × List UInt8)) : List UInt8 :=
  ((ks.filter fun k => k.1 = stage ∧ frameLabel k.2 = .data).map fun k => dataPayload k.2).flatten

lemma stagePayload_append (stage : Stage) (ks ks' : List (Stage × List UInt8)) :
    stagePayload stage (ks ++ ks') = stagePayload stage ks ++ stagePayload stage ks' := by
  simp [stagePayload]

lemma stagePayload_mono (stage : Stage) {ks ks' : List (Stage × List UInt8)} (h : ks <+: ks') :
    stagePayload stage ks <+: stagePayload stage ks' := by
  obtain ⟨rest, rfl⟩ := h
  rw [stagePayload_append]
  exact List.prefix_append _ _

lemma stagePayload_dataFrames (stage : Stage) (seq : ℕ) (chunks : List (List UInt8)) :
    stagePayload stage ((dataFrames seq chunks).map (stage, ·)) = chunks.flatten := by
  induction chunks generalizing seq with
  | nil => rfl
  | cons c cs ih =>
      rw [dataFrames, List.map_cons, stagePayload,
        List.filter_cons_of_pos (by simp [frameLabel_dataFrame]), List.map_cons, List.flatten_cons,
        dataPayload_dataFrame, List.flatten_cons]
      exact congrArg _ (ih (seq + 1))

lemma stagePayload_frames (stage : Stage) (t : Segment) :
    stagePayload stage t.frames = if t.stage = stage then t.chunks.flatten else [] := by
  split
  · rename_i h
    have hhead : stagePayload stage [(stage, headBytes t.length t.address)] = [] := by
      simp [stagePayload, frameLabel_headBytes]
    have htail : stagePayload stage [(stage, tailFrame (t.chunks.length + 1))] = [] := by
      simp [stagePayload, frameLabel_tailFrame]
    rw [Segment.frames, h, transferFrames, List.map_cons, List.map_append,
      ← List.singleton_append, stagePayload_append, stagePayload_append, hhead,
      stagePayload_dataFrames, List.map_singleton, htail]
    simp
  · rename_i h
    rw [stagePayload, List.flatten_eq_nil_iff]
    intro x hx
    simp only [List.mem_map, List.mem_filter, Segment.frames, decide_eq_true_eq] at hx
    obtain ⟨k, ⟨⟨f, -, rfl⟩, hstage, -⟩, -⟩ := hx
    exact absurd hstage h

/-- The payloads of a plan. -/
lemma stagePayload_framesOf (stage : Stage) (ts : List Segment) :
    stagePayload stage (framesOf ts) =
      (((ts.takeWhile Segment.encodable).filter (·.stage = stage)).map
        (·.chunks.flatten)).flatten := by
  rw [framesOf]
  induction ts.takeWhile Segment.encodable with
  | nil => rfl
  | cons t ts ih =>
      rw [List.flatMap_cons, stagePayload_append, ih, stagePayload_frames]
      by_cases h : t.stage = stage
      · simp [h]
      · simp [h]

/-! ## Transfers -/

/-- **The plan makes its transfers.** -/
lemma transfers_framesOf (ts : List Segment) :
    transfers ((framesOf ts).map Prod.snd) =
      (ts.takeWhile Segment.encodable).map Segment.transfer := by
  rw [framesOf]
  have hall : ∀ t ∈ ts.takeWhile Segment.encodable, t.encodable = true := fun t ht =>
    List.mem_takeWhile_imp ht
  generalize ts.takeWhile Segment.encodable = us at hall ⊢
  induction us with
  | nil => rfl
  | cons t us ih =>
      obtain ⟨hlength, haddress⟩ := of_decide_eq_true (hall t (by simp))
      have hframes : t.frames.map Prod.snd = transferFrames t.length t.address t.chunks := by
        simp [Segment.frames]
      rw [List.flatMap_cons, List.map_append, hframes, transfers,
        transfersFrom_transferFrames hlength haddress, List.map_cons]
      congr 1
      exact ih fun t ht => hall t (by simp [ht])

/-! ## Runs -/

/-- What a listener records of an upload, and what the result says of it. -/
structure Recorded (profile : SoCProfile) (firmware : List UInt8)
    (splOverride : Option (List UInt8)) (o : HostOutcome RecoveryResult) : Prop where
  keys_initial : (observed o.trace).map Entry.key <+: plan profile firmware splOverride
  stages_eq : ∀ r, o.result = .ok r → r.stagesCompleted =
    [Stage.ddrInit, .spl, .uboot].filter (fun s =>
      Credited (mustAck profile) (plan profile firmware splOverride) (observed o.trace) s) ++
    if r.success then [.complete] else []
  success : ∀ r, o.result = .ok r → r.success = true →
    (observed o.trace).map Entry.key = plan profile firmware splOverride ∧
    (∀ part ∈ uploadParts profile firmware splOverride, part.raises = false) ∧
    ∀ s ∈ [Stage.ddrInit, .spl, .uboot],
      Credited (mustAck profile) (plan profile firmware splOverride) (observed o.trace) s
  failure : ∀ r, o.result = .ok r → r.success = false →
    ¬ Credited (mustAck profile) (plan profile firmware splOverride) (observed o.trace) .uboot
  raised : ∀ e, o.result = .error e →
    (observed o.trace).map Entry.key = plan profile firmware splOverride ∧
    ∃ part ∈ uploadParts profile firmware splOverride, part.raises = true

lemma uploadParts_wellFormed (profile : SoCProfile) (firmware : List UInt8)
    (splOverride : Option (List UInt8)) :
    ∀ part ∈ uploadParts profile firmware splOverride, part.WellFormed (mustAck profile) := by
  intro part hpart
  simp only [uploadParts, List.mem_cons, List.not_mem_nil, or_false] at hpart
  rcases hpart with rfl | rfl | rfl
  · exact ddrPart_wellFormed profile
  · exact splPart_wellFormed profile firmware splOverride
  · exact ubootPart_wellFormed profile firmware

/-- **What is recorded of a run of `sendFirmware`.** -/
lemma sendFirmware_recorded (profile : SoCProfile) (firmware : List UInt8)
    (splOverride : Option (List UInt8)) (script : List (Reading UInt8)) :
    Recorded profile firmware splOverride
      (sendFirmware (some profile) firmware splOverride script) := by
  have hparts := uploadParts_wellFormed profile firmware splOverride
  have hstages : (uploadParts profile firmware splOverride).map Part.stage =
      [.ddrInit, .spl, .uboot] := rfl
  have hnodup : ((uploadParts profile firmware splOverride).map Part.stage).Nodup := by
    rw [hstages]
    decide
  have hlast : ∀ f ∈ Log.empty.lastFrame, frameLabel f = .tail := by rintro f ⟨⟩
  obtain ⟨stage, new, hfold, hinit, hok, herr⟩ :=
    performUpload_observed hparts hnodup [] hlast rfl script
  rw [planOf_uploadParts] at hinit herr
  rw [sendFirmware_eq_performUpload]
  have hobserved : observed (performUpload (uploadParts profile firmware splOverride) []
      script).trace = new := by
    rw [observed, hfold]
    simp [Log.empty]
  refine ⟨?_, fun r hr => ?_, fun r hr hs => ?_, fun r hr hf => ?_, fun e he => ?_⟩
  · rwa [hobserved]
  · have htally := (hok r hr).stages_eq
    rw [planOf_uploadParts, hstages, List.nil_append] at htally
    rw [hobserved, htally]
  · obtain ⟨hkeys, hall⟩ := (hok r hr).success hs
    rw [planOf_uploadParts] at hkeys hall
    rw [hobserved]
    refine ⟨hkeys, fun part hpart => (hall part hpart).1, fun s hmem => ?_⟩
    rw [← hstages, List.mem_map] at hmem
    obtain ⟨part, hpart, rfl⟩ := hmem
    exact (hall part hpart).2
  · have hfailure := (hok r hr).failure hf (ubootPart profile firmware) rfl
    rw [planOf_uploadParts] at hfailure
    rwa [hobserved]
  · rw [hobserved]
    exact herr e he

end HiSiliconStandard
end Defib
