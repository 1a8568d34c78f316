import Defib.Boot.SendFirmware

/-!
# The upload as a list of parts

`sendFirmware` decides from the profile and the images alone which frames it will try to send and
which missing ACK ends the upload; what the device answers only decides how far it comes.  Here
the decision is written down as data, an upload being a list of `Part`s, and `performUpload` carries
such a list out.  `sendFirmware_eq_performUpload` says that this is the same program, and everything
about runs is proved over the lists.
-/

namespace Defib
namespace HiSiliconStandard

/-- What stands before the frames of a part. -/
inductive Opener
  | note (stage : Stage)
  | rehandshake
  /-- Blasts of a HEAD frame, and the error if none is answered. -/
  | blast (head : List UInt8) (err : String)
  | raise (e : String)
  deriving DecidableEq, Repr

/-- A frame that is sent, or an exception in its place. -/
inductive Sending
  /-- A frame with the number of attempts, and the error if its ACK matters. -/
  | frame (bytes : List UInt8) (retries : ℕ) (fatal : Option String)
  | raise (e : String)
  deriving DecidableEq, Repr

/-- One stage of an upload. -/
structure Part where
  stage : Stage
  openers : List Opener
  sendings : List Sending
  failed : String → String

/-! ## Carrying it out -/

def performOpeners : List Opener → Host (Option String)
  | [] => pure none
  | .note stage :: os => do
      Scripted.note stage
      performOpeners os
  | .rehandshake :: os => do
      let _ ← rehandshake
      performOpeners os
  | .blast head err :: os => do
      let started ← blast head
      if started then performOpeners os else pure (some err)
  | .raise e :: _ => Scripted.raise e

def performSendings : List Sending → Host (Option String)
  | [] => pure none
  | .frame bytes retries fatal :: ss => do
      let acked ← sendFrameWithRetry bytes retries
      if acked then performSendings ss
      else
        match fatal with
        | some err => pure (some err)
        | none => performSendings ss
  | .raise e :: _ => Scripted.raise e

def performPart (part : Part) : Host (Option String) := do
  match ← performOpeners part.openers with
  | some err => pure (some err)
  | none => performSendings part.sendings

def performUpload : List Part → List Stage → Host RecoveryResult
  | [], stages => do
      Scripted.note Stage.complete
      pure ⟨true, stages ++ [.complete], none⟩
  | part :: parts, stages => do
      match ← performPart part with
      | some err => pure ⟨false, stages, some (part.failed err)⟩
      | none => performUpload parts (stages ++ [part.stage])

lemma performSendings_append (ss ts : List Sending) :
    performSendings (ss ++ ts) = (do
      match ← performSendings ss with
      | some err => pure (some err)
      | none => performSendings ts) := by
  induction ss with
  | nil => simp [performSendings]
  | cons s ss ih =>
      cases s with
      | raise e => rfl
      | frame bytes retries fatal =>
          simp only [List.cons_append, performSendings, ih, bind_assoc]
          congr 1
          funext acked
          cases acked <;> cases fatal <;> simp

/-- A frame that was ACKed, or whose ACK does not matter, is passed. -/
lemma performSendings_frame_passed {bytes : List UInt8} {retries : ℕ} {fatal : Option String}
    {script : List (Reading UInt8)} {acked : Bool}
    (h : (sendFrameWithRetry bytes retries script).result = .ok acked)
    (hgo : acked = true ∨ fatal = none) (ss : List Sending) :
    performSendings (.frame bytes retries fatal :: ss) script =
      (performSendings ss (sendFrameWithRetry bytes retries script).rest).prepend
        (sendFrameWithRetry bytes retries script).trace := by
  change (sendFrameWithRetry bytes retries >>= _) script = _
  rw [Scripted.bind_of_ok h]
  rcases hgo with rfl | rfl
  · rfl
  · cases acked <;> rfl

/-- A frame whose ACK matters and is missing ends the part. -/
lemma performSendings_frame_failed {bytes : List UInt8} {retries : ℕ} {err : String}
    {script : List (Reading UInt8)}
    (h : (sendFrameWithRetry bytes retries script).result = .ok false) (ss : List Sending) :
    performSendings (.frame bytes retries (some err) :: ss) script =
      ⟨.ok (some err), (sendFrameWithRetry bytes retries script).rest,
        (sendFrameWithRetry bytes retries script).trace⟩ := by
  change (sendFrameWithRetry bytes retries >>= _) script = _
  rw [Scripted.bind_of_ok h]
  simp [Scripted.Outcome.prepend, Scripted.pure_apply]

section

variable {script : List (Reading UInt8)}

lemma performOpeners_rehandshake {ok : Bool} (h : (rehandshake script).result = .ok ok)
    (os : List Opener) :
    performOpeners (.rehandshake :: os) script =
      (performOpeners os (rehandshake script).rest).prepend (rehandshake script).trace :=
  Scripted.bind_of_ok h _

lemma performOpeners_blast {head : List UInt8} {started : Bool}
    (h : (blast head script).result = .ok started) (err : String) (os : List Opener) :
    performOpeners (.blast head err :: os) script =
      ((if started then performOpeners os else pure (some err) : Host (Option String))
        (blast head script).rest).prepend (blast head script).trace :=
  Scripted.bind_of_ok h _

variable {part : Part}

lemma performPart_of_error {e : String}
    (h : (performOpeners part.openers script).result = .error e) :
    performPart part script = ⟨.error e, (performOpeners part.openers script).rest,
      (performOpeners part.openers script).trace⟩ :=
  Scripted.bind_of_error h _

lemma performPart_of_some {err : String}
    (h : (performOpeners part.openers script).result = .ok (some err)) :
    performPart part script = ⟨.ok (some err), (performOpeners part.openers script).rest,
      (performOpeners part.openers script).trace⟩ := by
  change (performOpeners part.openers >>= _) script = _
  rw [Scripted.bind_of_ok h]
  simp [Scripted.Outcome.prepend, Scripted.pure_apply]

lemma performPart_of_none (h : (performOpeners part.openers script).result = .ok none) :
    performPart part script =
      (performSendings part.sendings (performOpeners part.openers script).rest).prepend
        (performOpeners part.openers script).trace :=
  Scripted.bind_of_ok h _

variable (parts : List Part) (stages : List Stage)

lemma performUpload_of_error {e : String} (h : (performPart part script).result = .error e) :
    performUpload (part :: parts) stages script =
      ⟨.error e, (performPart part script).rest, (performPart part script).trace⟩ :=
  Scripted.bind_of_error h _

lemma performUpload_of_some {err : String} (h : (performPart part script).result = .ok (some err)) :
    performUpload (part :: parts) stages script =
      ⟨.ok ⟨false, stages, some (part.failed err)⟩, (performPart part script).rest,
        (performPart part script).trace⟩ := by
  change (performPart part >>= _) script = _
  rw [Scripted.bind_of_ok h]
  simp [Scripted.Outcome.prepend, Scripted.pure_apply]

lemma performUpload_of_none (h : (performPart part script).result = .ok none) :
    performUpload (part :: parts) stages script =
      (performUpload parts (stages ++ [part.stage]) (performPart part script).rest).prepend
        (performPart part script).trace :=
  Scripted.bind_of_ok h _

end

/-! ## The parts of an upload -/

/-- A HEAD frame, if it can be encoded. -/
def headSending (length address retries : ℕ) (err : String) : Sending :=
  match headFrame length address with
  | .ok frame => .frame frame retries (some err)
  | .error e => .raise e

/-- The DATA frames of a transfer. -/
def dataSendings (err : String) : ℕ → List (List UInt8) → List Sending
  | _, [] => []
  | seq, chunk :: chunks =>
      .frame (dataFrame seq chunk) frameSendRetriesLong (some err) ::
        dataSendings err (seq + 1) chunks

/-- A whole transfer, with what a missing ACK of its HEAD, DATA and TAIL frames means. -/
def transferSendings (length address : ℕ) (chunks : List (List UInt8)) (headRetries : ℕ)
    (headErr dataErr : String) (tailErr : Option String) : List Sending :=
  headSending length address headRetries headErr ::
    (dataSendings dataErr 1 chunks ++
      [.frame (tailFrame (chunks.length + 1)) frameSendRetriesShort tailErr])

/-- A DDR step. -/
def stepSendings (name : String) (length address : ℕ) (data : List UInt8) : List Sending :=
  transferSendings length address [data] frameSendRetriesShort
    (name ++ " HEAD frame not ACKed") (name ++ " DATA frame not ACKed") none

/-- The blasts of `_send_frame_for_start`, if their HEAD frame can be encoded. -/
def startOpener (profile : SoCProfile) (err : String) : Opener :=
  match headFrame 64 profile.ddrStepAddress with
  | .ok frame => .blast frame err
  | .error e => .raise e

/-- PRESTEP0, where the profile has one. -/
def prestep0Sendings (profile : SoCProfile) : List Sending :=
  match profile.prestepData with
  | some prestep => stepSendings "PRESTEP0" 64 profile.ddrStepAddress prestep
  | none => []

/-- PRESTEP1, where the profile has one. -/
def prestep1Sendings (profile : SoCProfile) : List Sending :=
  match profile.prestep1Data with
  | some prestep1 => stepSendings "PRESTEP1" prestep1.length profile.ddrStepAddress prestep1
  | none => []

def ddrPart (profile : SoCProfile) : Part where
  stage := .ddrInit
  openers := .note .ddrInit ::
    if profile.prestepData.isSome then
      [startOpener profile "handshake (sendFrameForStart) timed out"]
    else []
  sendings := prestep0Sendings profile ++
    (stepSendings "DDRSTEP0" 64 profile.ddrStepAddress profile.ddrStepData ++
      prestep1Sendings profile)
  failed := fun err => "DDR init failed: " ++ err

def splPart (profile : SoCProfile) (firmware : List UInt8)
    (splOverride : Option (List UInt8)) : Part where
  stage := .spl
  openers := [.rehandshake, match splImage profile firmware splOverride with
    | .ok _ => .note .spl
    | .error e => .raise e]
  sendings := match splImage profile firmware splOverride with
    | .ok (splSize, splData) =>
        transferSendings splSize profile.splAddress (chunkData splData maxDataLen)
          frameSendRetriesShort "Failed to send SPL" "Failed to send SPL"
          (if profile.prestepData.isNone then some "Failed to send SPL" else none)
    | .error _ => []
  failed := fun _ => "Failed to send SPL"

def ubootPart (profile : SoCProfile) (firmware : List UInt8) : Part where
  stage := .uboot
  openers := [.note .uboot, if profile.prestepData.isSome then
    startOpener profile "Failed to send U-Boot" else .rehandshake]
  sendings :=
    transferSendings firmware.length profile.ubootAddress
      (chunkData (zeroLongFfRuns firmware ffThreshold) maxDataLen) 64
      "Failed to send U-Boot" "Failed to send U-Boot" none
  failed := fun _ => "Failed to send U-Boot"

def uploadParts (profile : SoCProfile) (firmware : List UInt8)
    (splOverride : Option (List UInt8)) : List Part :=
  [ddrPart profile, splPart profile firmware splOverride, ubootPart profile firmware]

/-! ## It is the same program -/

lemma sendHead_bind {β : Type} (length address : ℕ) (f : Bool → Host β) :
    (sendHead length address >>= f) = (do
      let frame ← Scripted.lift (headFrame length address)
      let acked ← sendFrameWithRetry frame frameSendRetriesShort
      f acked) := by
  rw [sendHead, bind_assoc]

/-- The loop over chunks, followed by the rest of a transfer. -/
lemma performSendings_dataSendings_append (err : String) (seq : ℕ)
    (chunks : List (List UInt8)) (ss : List Sending) :
    performSendings (dataSendings err seq chunks ++ ss) = (do
      let acked ← sendChunks seq chunks
      if acked then performSendings ss else pure (some err)) := by
  induction chunks generalizing seq with
  | nil => simp [dataSendings, sendChunks]
  | cons c cs ih =>
      simp only [dataSendings, List.cons_append, performSendings, ih, sendChunks, sendData,
        bind_assoc]
      congr 1
      funext acked
      cases acked <;> simp

/-- A transfer. -/
lemma performSendings_transferSendings (length address : ℕ) (chunks : List (List UInt8))
    (headRetries : ℕ) (headErr dataErr : String) (tailErr : Option String) :
    performSendings
        (transferSendings length address chunks headRetries headErr dataErr tailErr) = (do
      let frame ← Scripted.lift (headFrame length address)
      let headAcked ← sendFrameWithRetry frame headRetries
      if headAcked then
        let dataAcked ← sendChunks 1 chunks
        if dataAcked then
          let tailAcked ← sendTail (chunks.length + 1)
          if tailAcked then pure none else pure tailErr
        else pure (some dataErr)
      else pure (some headErr)) := by
  have htail : performSendings
      [.frame (tailFrame (chunks.length + 1)) frameSendRetriesShort tailErr] = (do
        let tailAcked ← sendTail (chunks.length + 1)
        if tailAcked then pure none else pure tailErr) := by
    simp only [performSendings, sendTail]
    congr 1
    funext acked
    cases acked <;> cases tailErr <;> rfl
  rw [transferSendings, headSending]
  cases headFrame length address with
  | error e => rfl
  | ok frame =>
      simp only [Scripted.lift_ok, pure_bind]
      rw [performSendings, performSendings_dataSendings_append, htail]

lemma sendStep_eq_performSendings (name : String) (length address : ℕ) (data : List UInt8) :
    sendStep name length address data =
      performSendings (stepSendings name length address data) := by
  rw [sendStep, sendHead_bind, stepSendings, performSendings_transferSendings]
  congr 1
  funext frame
  congr 1
  funext headAcked
  cases headAcked with
  | false => rfl
  | true =>
      simp only [if_true, sendChunks, bind_assoc, List.length_singleton]
      congr 1
      funext dataAcked
      cases dataAcked with
      | false => rfl
      | true =>
          simp only [if_true, pure_bind]
          congr 1
          funext tailAcked
          cases tailAcked <;> rfl

lemma performOpeners_startOpener (profile : SoCProfile) (err : String) :
    performOpeners [startOpener profile err] = (do
      let started ← sendFrameForStart profile
      if started then pure none else pure (some err)) := by
  rw [startOpener, sendFrameForStart]
  cases headFrame 64 profile.ddrStepAddress with
  | error e => rfl
  | ok frame => simp only [performOpeners, Scripted.lift_ok, pure_bind]

lemma sendPrestep1_eq_performSendings (profile : SoCProfile) :
    sendPrestep1 profile = performSendings (prestep1Sendings profile) := by
  rw [sendPrestep1, prestep1Sendings]
  cases profile.prestep1Data with
  | none => rfl
  | some prestep1 => exact sendStep_eq_performSendings _ _ _ _

lemma sendDdrStep_eq_performPart (profile : SoCProfile) :
    sendDdrStep profile = performPart (ddrPart profile) := by
  rw [sendDdrStep, performPart, ddrPart, sendPrestep0]
  simp only [performOpeners, performSendings_append, ← sendPrestep1_eq_performSendings,
    ← sendStep_eq_performSendings, prestep0Sendings]
  cases profile.prestepData with
  | none => rfl
  | some prestep =>
      simp only [Option.isSome_some, if_true, performOpeners_startOpener, bind_assoc,
        ← sendStep_eq_performSendings]
      congr 1
      funext u
      congr 1
      funext started
      cases started with
      | false => simp only [Bool.false_eq_true, if_false, pure_bind]
      | true => rfl

lemma sendSpl_eq_performPart (profile : SoCProfile) (firmware : List UInt8)
    (splOverride : Option (List UInt8)) :
    (rehandshake >>= fun _ => sendSpl profile firmware splOverride) = (do
      let err ← performPart (splPart profile firmware splOverride)
      pure err.isNone) := by
  rw [performPart, splPart]
  simp only [performOpeners, bind_assoc]
  congr 1
  funext u
  rw [sendSpl]
  cases splImage profile firmware splOverride with
  | error e => rfl
  | ok image =>
      obtain ⟨splSize, splData⟩ := image
      simp only [performOpeners, performSendings_transferSendings, Scripted.lift_ok, pure_bind,
        sendHead_bind, bind_assoc]
      congr 1
      funext u
      congr 1
      funext frame
      congr 1
      funext headAcked
      cases headAcked with
      | false => rfl
      | true =>
          simp only [if_true, bind_assoc]
          congr 1
          funext dataAcked
          cases dataAcked with
          | false => rfl
          | true =>
              simp only [if_true, bind_assoc]
              congr 1
              funext tailAcked
              cases tailAcked <;> cases profile.prestepData <;> rfl

lemma sendUboot_eq_performPart (profile : SoCProfile) (firmware : List UInt8) :
    sendUboot profile firmware = (do
      let err ← performPart (ubootPart profile firmware)
      pure err.isNone) := by
  have hopen : performOpeners [if profile.prestepData.isSome then
      startOpener profile "Failed to send U-Boot" else .rehandshake] = (do
        let started ← startUboot profile
        if started then pure none else pure (some "Failed to send U-Boot")) := by
    rw [startUboot]
    cases profile.prestepData with
    | none => simp [performOpeners]
    | some prestep => simp [performOpeners_startOpener]
  rw [performPart, ubootPart, sendUboot]
  simp only [length_zeroLongFfRuns, performSendings_transferSendings]
  rw [performOpeners, hopen]
  simp only [bind_assoc]
  congr 1
  funext u
  congr 1
  funext started
  cases started with
  | false => simp only [Bool.false_eq_true, if_false, pure_bind, Option.isNone_some]
  | true =>
      simp only [if_true, pure_bind, bind_assoc]
      congr 1
      funext frame
      congr 1
      funext headAcked
      cases headAcked with
      | false => rfl
      | true =>
          simp only [if_true, bind_assoc]
          congr 1
          funext dataAcked
          cases dataAcked with
          | false => rfl
          | true =>
              simp only [if_true, bind_assoc]
              congr 1
              funext tailAcked
              cases tailAcked <;> rfl

/-- **The upload is the list of its parts, carried out.** -/
lemma sendFirmware_eq_performUpload (profile : SoCProfile) (firmware : List UInt8)
    (splOverride : Option (List UInt8)) :
    sendFirmware (some profile) firmware splOverride =
      performUpload (uploadParts profile firmware splOverride) [] := by
  simp only [sendFirmware, uploadParts, performUpload]
  rw [sendDdrStep_eq_performPart]
  congr 1
  funext ddrErr
  cases ddrErr with
  | some e => rfl
  | none =>
      simp only
      rw [← bind_assoc, sendSpl_eq_performPart, bind_assoc]
      congr 1
      funext splErr
      cases splErr with
      | some e => rfl
      | none =>
          simp only [pure_bind, Option.isNone_none, if_true]
          rw [sendUboot_eq_performPart, bind_assoc]
          congr 1
          funext ubootErr
          cases ubootErr with
          | some e => rfl
          | none => rfl

end HiSiliconStandard
end Defib
