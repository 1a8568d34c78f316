import Defib.Boot.Frames
import Defib.Boot.SplImage
import Defib.Framework.Scripted

/-!
# The upload of `HiSiliconStandard`

`send_firmware` of `protocol/hisilicon_standard.py`, with the frame sender and the two handshakes
it uses, as a program against a script of readings.  A reading is one byte, a `TransportTimeout`,
or a deadline that has passed before the read; the loops that poll the line recurse over the
script.

The writes are the calls of `transport.write`, the flushes those of `flush_input`, and the notes
are the `ProgressEvent`s that open a stage.  Exceptions that leave `send_firmware` (an image on
which the SPL detection indexes past the end, a HEAD frame whose fields do not fit) are errors.
-/

namespace Defib

/-- `Stage`, as far as an upload uses it. -/
inductive Stage
  | handshake
  | ddrInit
  | spl
  | uboot
  | complete
  deriving DecidableEq, Repr

/-- `RecoveryResult`, with the fields `send_firmware` sets. -/
structure RecoveryResult where
  success : Bool
  stagesCompleted : List Stage
  error : Option String
  deriving DecidableEq, Repr

/-- A program of the host. -/
abbrev Host (α : Type) : Type := Scripted (List UInt8) UInt8 Stage String α

/-- How a program of the host ends. -/
abbrev HostOutcome (α : Type) : Type := Scripted.Outcome (List UInt8) UInt8 Stage String α

/-- What happens on the line of the host. -/
abbrev HostEvent : Type := Event (List UInt8) UInt8 Stage

/-- `ACK_BYTE`. -/
def ackByte : UInt8 := 0xAA
/-- `BOOTMODE_ACK`. -/
def bootmodeAck : UInt8 := 0xAA
/-- `BOOTMODE_MARKER`. -/
def bootmodeMarker : UInt8 := 0x20
/-- `BOOTMODE_COUNT`. -/
def bootmodeCount : ℕ := 5
/-- `FRAME_SEND_RETRIES_SHORT`. -/
def frameSendRetriesShort : ℕ := 16
/-- `FRAME_SEND_RETRIES_LONG`. -/
def frameSendRetriesLong : ℕ := 32

namespace HiSiliconStandard

/-! ## One frame -/

/-- The reads of one attempt of `_send_frame_with_retry`, until an ACK or the end of its window. -/
def awaitAckLoop : List (Reading UInt8) → HostOutcome Bool
  | [] => ⟨.ok false, [], [.read .expired]⟩
  | .item b :: rest =>
      if b = ackByte then ⟨.ok true, rest, [.read (.item b)]⟩
      else (awaitAckLoop rest).cons (.read (.item b))
  | .timeout :: rest => ⟨.ok false, rest, [.read .timeout]⟩
  | .expired :: rest => ⟨.ok false, rest, [.read .expired]⟩

def awaitAck : Host Bool := awaitAckLoop

/-- `_send_frame_with_retry`. -/
def sendFrameWithRetry (frameData : List UInt8) : ℕ → Host Bool
  | 0 => pure false
  | retries + 1 => do
      Scripted.flush
      Scripted.write frameData
      let acked ← awaitAck
      if acked then pure true else sendFrameWithRetry frameData retries

/-- `_send_head`. -/
def sendHead (length address : ℕ) : Host Bool := do
  let frame ← Scripted.lift (headFrame length address)
  sendFrameWithRetry frame frameSendRetriesShort

/-- `_send_data`. -/
def sendData (seq : ℕ) (payload : List UInt8) : Host Bool :=
  sendFrameWithRetry (dataFrame seq payload) frameSendRetriesLong

/-- `_send_tail`. -/
def sendTail (seq : ℕ) : Host Bool := sendFrameWithRetry (tailFrame seq) frameSendRetriesShort

/-- The loops over the chunks in `_send_spl` and `_send_uboot`, from sequence number `seq` on. -/
def sendChunks : ℕ → List (List UInt8) → Host Bool
  | _, [] => pure true
  | seq, chunk :: chunks => do
      let acked ← sendData seq chunk
      if acked then sendChunks (seq + 1) chunks else pure false

/-! ## Handshakes -/

/-- The loop of `_rehandshake`, with its `marker_count`. -/
def rehandshakeLoop : ℕ → List (Reading UInt8) → HostOutcome Bool
  | _, [] => ⟨.ok false, [], [.read .expired]⟩
  | _, .expired :: rest => ⟨.ok false, rest, [.read .expired]⟩
  | markerCount, .timeout :: rest =>
      -- a few markers are answered as well, and silence means that the device is ready
      if markerCount > 0 then ⟨.ok true, rest, [.read .timeout, .write [bootmodeAck]]⟩
      else ⟨.ok true, rest, [.read .timeout]⟩
  | markerCount, .item b :: rest =>
      if b = bootmodeMarker then
        if markerCount + 1 ≥ bootmodeCount then
          ⟨.ok true, rest, [.read (.item b), .write [bootmodeAck]]⟩
        else (rehandshakeLoop (markerCount + 1) rest).cons (.read (.item b))
      else if b = 0x0A ∨ b = 0x0D then (rehandshakeLoop markerCount rest).cons (.read (.item b))
      else ⟨.ok true, rest, [.read (.item b)]⟩

/-- `_rehandshake`. -/
def rehandshake : Host Bool := rehandshakeLoop 0

/-- The loop of `_send_frame_for_start`.  The deadline is looked at before each blast. -/
def blastLoop (headFrame : List UInt8) : List (Reading UInt8) → HostOutcome Bool
  | [] => ⟨.ok false, [], [.read .expired]⟩
  | .expired :: rest => ⟨.ok false, rest, [.read .expired]⟩
  | .timeout :: rest =>
      ((blastLoop headFrame rest).cons (.read .timeout)).cons (.write (bootmodeAck :: headFrame))
  | .item b :: rest =>
      if b = ackByte then
        ⟨.ok true, rest, [.write (bootmodeAck :: headFrame), .read (.item b), .flush]⟩
      else
        ((blastLoop headFrame rest).cons (.read (.item b))).cons
          (.write (bootmodeAck :: headFrame))

/-- The blasts.  The first one is written in any case: its deadline has just been set. -/
def blast (headFrame : List UInt8) : Host Bool
  | [] => ⟨.ok false, [], [.write (bootmodeAck :: headFrame), .read .expired]⟩
  | .expired :: rest => ⟨.ok false, rest, [.write (bootmodeAck :: headFrame), .read .expired]⟩
  | script => blastLoop headFrame script

/-- `_send_frame_for_start`. -/
def sendFrameForStart (profile : SoCProfile) : Host Bool := do
  let frame ← Scripted.lift (headFrame 64 profile.ddrStepAddress)
  blast frame

/-! ## Stages -/

/-- One DDR step: HEAD, one DATA frame, and a TAIL whose ACK does not matter. -/
def sendStep (name : String) (length address : ℕ) (data : List UInt8) :
    Host (Option String) := do
  let headAcked ← sendHead length address
  if headAcked then
    let dataAcked ← sendData 1 data
    if dataAcked then
      let _ ← sendTail 2
      pure none
    else pure (some (name ++ " DATA frame not ACKed"))
  else pure (some (name ++ " HEAD frame not ACKed"))

/-- The PRESTEP0 part of `_send_ddr_step`, which starts with the handshake by blasts. -/
def sendPrestep0 (profile : SoCProfile) : Host (Option String) :=
  match profile.prestepData with
  | none => pure none
  | some prestep => do
      let started ← sendFrameForStart profile
      if started then sendStep "PRESTEP0" 64 profile.ddrStepAddress prestep
      else pure (some "handshake (sendFrameForStart) timed out")

/-- The PRESTEP1 part of `_send_ddr_step`. -/
def sendPrestep1 (profile : SoCProfile) : Host (Option String) :=
  match profile.prestep1Data with
  | none => pure none
  | some prestep1 => sendStep "PRESTEP1" prestep1.length profile.ddrStepAddress prestep1

/-- `_send_ddr_step`: nothing, or which step has failed. -/
def sendDdrStep (profile : SoCProfile) : Host (Option String) := do
  Scripted.note Stage.ddrInit
  match ← sendPrestep0 profile with
  | some e => pure (some e)
  | none =>
      match ← sendStep "DDRSTEP0" 64 profile.ddrStepAddress profile.ddrStepData with
      | some e => pure (some e)
      | none => sendPrestep1 profile

/-- The bytes that `_send_spl` cuts.  An override is padded to the size, the firmware itself is
not. -/
def cutSpl (firmware : List UInt8) (splOverride : Option (List UInt8)) (splSize : ℕ) :
    List UInt8 :=
  match splOverride with
  | some spl => (spl.take splSize).rightpad splSize 0
  | none => firmware.take splSize

/-- The declared size and the bytes of the SPL in `_send_spl`. -/
def splImage (profile : SoCProfile) (firmware : List UInt8) (splOverride : Option (List UInt8)) :
    Except String (ℕ × List UInt8) := do
  let splSize ← detectSplSize (splOverride.getD firmware) profile.splMaxSize profile.splSramLimit
  pure (splSize, zeroLongFfRuns (cutSpl firmware splOverride splSize) ffThreshold)

/-- `_send_spl`. -/
def sendSpl (profile : SoCProfile) (firmware : List UInt8)
    (splOverride : Option (List UInt8)) : Host Bool := do
  let (splSize, splData) ← Scripted.lift (splImage profile firmware splOverride)
  Scripted.note Stage.spl
  let headAcked ← sendHead splSize profile.splAddress
  if headAcked then
    let chunks := chunkData splData maxDataLen
    let dataAcked ← sendChunks 1 chunks
    if dataAcked then
      let tailAcked ← sendTail (chunks.length + 1)
      if tailAcked then pure true else pure profile.prestepData.isSome
    else pure false
  else pure false

/-- The handshake of `_send_uboot`.  What `_rehandshake` returns does not matter. -/
def startUboot (profile : SoCProfile) : Host Bool :=
  if profile.prestepData.isSome then sendFrameForStart profile
  else do
    let _ ← rehandshake
    pure true

/-- `_send_uboot`, whose HEAD frame is tried 64 times. -/
def sendUboot (profile : SoCProfile) (firmware : List UInt8) : Host Bool := do
  let firmware := zeroLongFfRuns firmware ffThreshold
  Scripted.note Stage.uboot
  let started ← startUboot profile
  if started then
    let head ← Scripted.lift (headFrame firmware.length profile.ubootAddress)
    let headAcked ← sendFrameWithRetry head 64
    if headAcked then
      let chunks := chunkData firmware maxDataLen
      let dataAcked ← sendChunks 1 chunks
      if dataAcked then
        let _ ← sendTail (chunks.length + 1)
        pure true
      else pure false
    else pure false
  else pure false

/-- `send_firmware`. -/
def sendFirmware (profile : Option SoCProfile) (firmware : List UInt8)
    (splOverride : Option (List UInt8)) : Host RecoveryResult :=
  match profile with
  | none => pure ⟨false, [], some "No profile loaded"⟩
  | some profile => do
      match ← sendDdrStep profile with
      | some ddrErr => pure ⟨false, [], some ("DDR init failed: " ++ ddrErr)⟩
      | none =>
          let _ ← rehandshake
          let splSent ← sendSpl profile firmware splOverride
          if splSent then
            let ubootSent ← sendUboot profile firmware
            if ubootSent then
              Scripted.note Stage.complete
              pure ⟨true, [.ddrInit, .spl, .uboot, .complete], none⟩
            else pure ⟨false, [.ddrInit, .spl], some "Failed to send U-Boot"⟩
          else pure ⟨false, [.ddrInit], some "Failed to send SPL"⟩

end HiSiliconStandard

end Defib
