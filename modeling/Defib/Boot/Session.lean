import Defib.Boot.Cv6xxImage
import Defib.Boot.Senders
import Defib.Framework.PyText
import Defib.Framework.Substitution

/-!
# Recovery sessions of the newer bootroms

`RecoverySession.run` with `HiSiliconV500` or `HiSiliconCV6xx` over a serial transport: the
handshake, `send_firmware`, the attempts, and the break that keeps U-Boot from booting.

A reading is one byte.  A read of up to `n` bytes takes bytes until it has `n` or until its timeout
passes, and a read of what is waiting takes all of it; `.timeout` is where such a read ends.  The
handshakes have no deadline: on a script that has run out they wait forever, which is an error
here (`stillWaiting`).

`create_transport` gives a transport that changes what is read, on macOS.  A session over it is a
session on the script that was changed (`runOver`).
-/

namespace Defib

/-! ## Transports -/

/-- The platforms that `create_transport` tells apart for a serial port. -/
inductive Platform
  | darwin
  | other
  deriving DecidableEq, Repr

/-- `SerialTransport`, or `MacOSSerialTransport` with the two flags that its `read` looks at. -/
inductive SerialTransport
  | plain
  | macOS (ackCorrection inHandshake : Bool)
  deriving DecidableEq, Repr

/-- `data.replace(b"\x55", b"\xaa")`, on one byte. -/
def correctAck (b : UInt8) : UInt8 := if b = 0x55 then 0xAA else b

/-- What `read` makes of a reading of the port. -/
def SerialTransport.read : SerialTransport → Reading UInt8 → Reading UInt8
  | .plain, r => r
  | .macOS ackCorrection inHandshake, r =>
      if ackCorrection && inHandshake then r.map correctAck else r

/-- `create_transport`, for a serial port.  The correction starts switched on, and
`set_handshake_phase`, which would end it, is called nowhere. -/
def createTransport : Platform → SerialTransport
  | .darwin => .macOS true true
  | .other => .plain

/-! ## Results -/

/-- `Stage`, as far as the newer protocols complete it or the session asks for it. -/
inductive BootStage
  | ddrInit
  | headArea
  | auxArea
  | bootImage
  | gsl
  | ddrTable
  | ddrTraining
  | uboot
  | complete
  deriving DecidableEq, Repr

/-- `RecoveryResult`, without the time. -/
structure SessionResult where
  success : Bool
  stagesCompleted : List BootStage
  error : Option String
  postBurnBuffer : List UInt8
  deriving DecidableEq, Repr

/-- A result that reports success. -/
def SessionResult.done (stages : List BootStage) : SessionResult := ⟨true, stages, none, []⟩

/-- A result that reports an error. -/
def SessionResult.failed (stages : List BootStage) (error : String) : SessionResult :=
  ⟨false, stages, some error, []⟩

/-- `HandshakeResult`, as far as the session looks at it. -/
structure HandshakeResult where
  success : Bool
  chipId : Option ℕ
  message : String
  deriving DecidableEq, Repr

/-- A loop without a deadline, on a line that stays silent. -/
def stillWaiting : String := "still waiting"

/-! ## `HiSiliconV500` -/

namespace HiSiliconV500

/-- The handshake frame. -/
def handshakeFrame : List UInt8 := appendCrc ([0xBD, 0x00, 0xFF, 0x01] ++ List.replicate 8 0)

/-- The chip ID in an answer. -/
def chipIdOf (response : List UInt8) : Option ℕ :=
  if [0xBD, 0x00].isPrefixOf response && response.length ≥ 12 then
    some (readBe32 ((response.drop 8).take 4))
  else none

/-- The result for a chip. -/
def detected (chipId : ℕ) : HandshakeResult :=
  ⟨true, some chipId, "Detected SoC: 0x" ++ String.ofList (Nat.toDigits 16 chipId)⟩

/-- The loop of `handshake`; `response` is what the read of up to 14 bytes has so far. -/
def handshakeLoop (response : List UInt8) : List (Reading UInt8) → HostOutcome HandshakeResult
  | [] =>
      match chipIdOf response with
      | some chipId => ⟨.ok (detected chipId), [], [.read .expired]⟩
      | none => ⟨.error stillWaiting, [], [.read .expired]⟩
  | .item b :: rest =>
      if response.length + 1 < 14 then
        (handshakeLoop (response ++ [b]) rest).cons (.read (.item b))
      else
        match chipIdOf (response ++ [b]) with
        | some chipId => ⟨.ok (detected chipId), rest, [.read (.item b)]⟩
        | none => ((handshakeLoop [] rest).cons (.write handshakeFrame)).cons (.read (.item b))
  | .timeout :: rest =>
      match chipIdOf response with
      | some chipId => ⟨.ok (detected chipId), rest, [.read .timeout]⟩
      | none => ((handshakeLoop [] rest).cons (.write handshakeFrame)).cons (.read .timeout)
  | .expired :: rest =>
      match chipIdOf response with
      | some chipId => ⟨.ok (detected chipId), rest, [.read .expired]⟩
      | none => ((handshakeLoop [] rest).cons (.write handshakeFrame)).cons (.read .expired)

/-- The reads and writes of `handshake` behind its first write. -/
def awaitChipId : Host HandshakeResult := handshakeLoop []

/-- `handshake`. -/
def handshake : Host HandshakeResult := do
  Scripted.write handshakeFrame
  awaitChipId

/-- `BOOT_LOAD_ADDR`. -/
def bootLoadAddr : ℕ := 0x41000000

/-- `send_firmware`. -/
def sendFirmware (firmware : List UInt8) : Host SessionResult := do
  let headSent ← HiSiliconV500.sendDataToBootrom (firmware.take 8192) 0
  if headSent then
    let auxLen ← Scripted.lift (HiSiliconCV6xx.structUnpackLe32 ((firmware.drop 1024).take 4))
    let auxSent ← HiSiliconV500.sendDataToBootrom ((firmware.drop 8192).take auxLen) 8192
    if auxSent then
      let bootSent ← HiSiliconV500.sendDataToBootrom firmware bootLoadAddr
      if bootSent then pure (.done [.headArea, .auxArea, .bootImage, .complete])
      else pure (.failed [.headArea, .auxArea] "Failed to send boot image")
    else pure (.failed [.headArea] "Failed to send AUX area")
  else pure (.failed [] "Failed to send HEAD area")

end HiSiliconV500

/-! ## `HiSiliconCV6xx` -/

/-- `append_crc_le`. -/
def appendCrcLe (data : List UInt8) : List UInt8 :=
  let crc := calcCrc data
  data ++ [UInt8.ofNat crc, UInt8.ofNat (crc >>> 8)]

namespace HiSiliconCV6xx

/-- The handshake frame, with baud rate and serial format. -/
def handshakeFrame : List UInt8 :=
  appendCrcLe ([0xEF, 0xBE, 0xAD, 0xDE, 0x12, 0x00, 0xF0, 0x0F] ++ packU32 115200 ++ [8, 1, 0, 9])

/-- Has the bootrom answered? -/
def isReady (buffer : List UInt8) : Bool :=
  decide (encodeAscii "uart ddr".toList <:+: buffer) ||
    decide (encodeAscii "uart flash".toList <:+: buffer)

/-- The result of `handshake`. -/
def ready : HandshakeResult := ⟨true, none, "BootROM handshake complete"⟩

/-- The loop of `handshake`; `chunk` is what the read of the waiting bytes has so far. -/
def handshakeLoop (buffer chunk : List UInt8) :
    List (Reading UInt8) → HostOutcome HandshakeResult
  | [] =>
      if chunk ≠ [] ∧ isReady (buffer ++ chunk) then ⟨.ok ready, [], [.read .expired, .flush]⟩
      else ⟨.error stillWaiting, [], [.read .expired]⟩
  | .item b :: rest => (handshakeLoop buffer (chunk ++ [b]) rest).cons (.read (.item b))
  | .timeout :: rest =>
      if chunk ≠ [] ∧ isReady (buffer ++ chunk) then ⟨.ok ready, rest, [.read .timeout, .flush]⟩
      else
        ((handshakeLoop (buffer ++ chunk) [] rest).cons (.write handshakeFrame)).cons
          (.read .timeout)
  | .expired :: rest =>
      if chunk ≠ [] ∧ isReady (buffer ++ chunk) then ⟨.ok ready, rest, [.read .expired, .flush]⟩
      else
        ((handshakeLoop (buffer ++ chunk) [] rest).cons (.write handshakeFrame)).cons
          (.read .expired)

/-- The reads and writes of `handshake` behind its first write. -/
def awaitReady : Host HandshakeResult := handshakeLoop [] []

/-- `handshake`. -/
def handshake : Host HandshakeResult := do
  Scripted.write handshakeFrame
  awaitReady

/-- The board ID in what was read: 11 bytes from the first `0xCE` on, of which the last is an
ACK. -/
def boardIdOf (buf : List UInt8) : Option ℕ :=
  let idx := buf.idxOf 0xCE
  if 0xCE ∈ buf ∧ buf[idx + 10]? = some 0xAA then some (readBe32 ((buf.drop (idx + 4)).take 4))
  else none

/-- The board ID after a turn in which `chunk` was read. -/
def boardIdIn (buf chunk : List UInt8) : Option ℕ :=
  if chunk = [] then none else boardIdOf (buf ++ chunk)

/-- The loop of `_get_board_id`; `chunk` is what the read of the waiting bytes has so far.  What
comes behind the answer in one chunk is lost, as a serial transport has no `unread`. -/
def boardIdLoop (buf chunk : List UInt8) : List (Reading UInt8) → HostOutcome ℕ
  | [] =>
      match boardIdIn buf chunk with
      | some boardId => ⟨.ok boardId, [], [.read .expired]⟩
      | none => ⟨.ok 0, [], [.read .expired]⟩
  | .item b :: rest => (boardIdLoop buf (chunk ++ [b]) rest).cons (.read (.item b))
  | .timeout :: rest =>
      match boardIdIn buf chunk with
      | some boardId => ⟨.ok boardId, rest, [.read .timeout]⟩
      | none => (boardIdLoop (buf ++ chunk) [] rest).cons (.read .timeout)
  | .expired :: rest =>
      match boardIdIn buf chunk with
      | some boardId => ⟨.ok boardId, rest, [.read .expired]⟩
      | none => ⟨.ok 0, rest, [.read .expired]⟩

/-- The reads of `_get_board_id`. -/
def awaitBoardId : Host ℕ := boardIdLoop [] []

/-- The wait for a board ID writes nothing. -/
lemma reads_boardIdLoop (buf chunk : List UInt8) (script : List (Reading UInt8)) :
    ∀ e ∈ (boardIdLoop buf chunk script).trace, ∃ x, e = .read x := by
  induction script generalizing buf chunk with
  | nil =>
      rw [boardIdLoop]
      cases boardIdIn buf chunk <;> simp
  | cons x rest ih =>
      cases x with
      | expired =>
          rw [boardIdLoop]
          cases boardIdIn buf chunk <;> simp
      | timeout =>
          rw [boardIdLoop]
          cases boardIdIn buf chunk with
          | none => exact List.forall_mem_cons.mpr ⟨⟨_, rfl⟩, ih _ _⟩
          | some a => simp
      | item b => exact List.forall_mem_cons.mpr ⟨⟨_, rfl⟩, ih _ _⟩

/-- `_get_board_id`, at a time. -/
def getBoardId (time : ℕ) : Host ℕ := do
  let t ← Scripted.lift (structPackBe32 time)
  Scripted.flush
  Scripted.write (appendCrc ([0xCE, 0x00, 0xFF, 0x01] ++ t ++ t))
  awaitBoardId

/-- The reads while the DDR is trained, which are logged and dropped. -/
def trainingLoop : List (Reading UInt8) → HostOutcome Unit
  | [] => ⟨.ok (), [], [.read .expired]⟩
  | .item b :: rest => (trainingLoop rest).cons (.read (.item b))
  | .timeout :: rest => (trainingLoop rest).cons (.read .timeout)
  | .expired :: rest => ⟨.ok (), rest, [.read .expired]⟩

def awaitTraining : Host Unit := trainingLoop

lemma writes_trainingLoop (script : List (Reading UInt8)) :
    writes (trainingLoop script).trace = [] := by
  induction script with
  | nil => rfl
  | cons x rest ih =>
      cases x with
      | expired => rfl
      | timeout => exact ih
      | item b => exact ih

/-- `GSL_LOAD_ADDR`. -/
def gslLoadAddr : ℕ := 0x04020000
/-- `DDR_LOAD_ADDR`. -/
def ddrLoadAddr : ℕ := 0x41000000
/-- `UBOOT_LOAD_ADDR`. -/
def ubootLoadAddr : ℕ := 0x41000000

/-- Is an error of `parse_cv6xx_boot` a `ProtocolError`?  The other kind is `struct.error`. -/
def isProtocolError (error : String) : Bool := error ≠ "unpack requires a buffer of 4 bytes"

/-- `send_firmware`, of a boot file that was parsed. -/
def sendParts (time : ℕ) (parts : Cv6xxBootParts) (ubootPayload : List UInt8) :
    Host SessionResult := do
  let gslSent ← HiSiliconCV6xx.sendDataToBootrom parts.gslData gslLoadAddr
  if gslSent then
    let boardId ← getBoardId time
    let table ← Scripted.lift (buildDdrTable parts boardId)
    let tableSent ← HiSiliconCV6xx.sendDataToBootrom table ddrLoadAddr
    if tableSent then
      awaitTraining
      let ubootSent ← HiSiliconCV6xx.sendDataToBootrom ubootPayload ubootLoadAddr
      if ubootSent then pure (.done [.gsl, .ddrTable, .ddrTraining, .uboot, .complete])
      else pure (.failed [.gsl, .ddrTable, .ddrTraining] "Failed to send U-Boot")
    else pure (.failed [.gsl] "Failed to send DDR table")
  else pure (.failed [] "Failed to send GSL")

/-- `send_firmware`, at a time. -/
def sendFirmware (time : ℕ) (firmware : List UInt8) (ubootOverride : Option (List UInt8)) :
    Host SessionResult :=
  match parseCv6xxBoot firmware with
  | .error error =>
      if isProtocolError error then pure (.failed [] error) else Scripted.raise error
  | .ok parts => sendParts time parts (ubootOverride.getD parts.ubootData)

end HiSiliconCV6xx

/-! ## The session -/

/-- The protocols of the newer bootroms. -/
inductive BootProtocol
  | v500
  | cv6xx
  deriving DecidableEq, Repr

def BootProtocol.handshake : BootProtocol → Host HandshakeResult
  | .v500 => HiSiliconV500.handshake
  | .cv6xx => HiSiliconCV6xx.handshake

def BootProtocol.sendFirmware : BootProtocol → ℕ → List UInt8 → Host SessionResult
  | .v500, _, firmware => HiSiliconV500.sendFirmware firmware
  | .cv6xx, time, firmware => HiSiliconCV6xx.sendFirmware time firmware none

/-- What a power cycle comes to.  If it fails, the handshake that was started before it is
cancelled; `after` is how many readings it has taken then. -/
inductive PowerCycle
  | done
  | failed (message : String) (after : ℕ)
  deriving DecidableEq, Repr

/-- A session, with the arguments of `run`, and what the power controller and the clock do in each
attempt. -/
structure RecoverySession where
  protocol : BootProtocol
  firmware : List UInt8
  /-- The power controller with its port, if there are both. -/
  power : Option (ℕ → PowerCycle)
  sendBreak : Bool
  maxHandshakeAttempts : ℕ
  time : ℕ → ℕ

/-- A task that is cancelled after some readings. -/
def cancelled {α : Type} (after : ℕ) (p : Host α) : Host Unit := fun script =>
  ⟨.ok (), script.drop after, (p (script.take after)).trace⟩

/-- `b"\x03"`. -/
def ctrlC : List UInt8 := [0x03]

/-- How many more Ctrl-C follow when U-Boot has been found in what was read. -/
def promptFound (buf : List UInt8) : Option ℕ :=
  let text := decodeAsciiReplace buf
  let tail := text.drop (text.length - 256)
  if "autoboot".toList <:+: text.map Char.toLower then some 20
  else if "OpenIPC #".toList <:+: tail ∨ "hisilicon #".toList <:+: tail ∨
      "\n=> ".toList <:+: tail then some 0
  else none

/-- The loop that looks for U-Boot; `data?` is what the read of up to 256 bytes has so far, and
`none` stands for the start of a turn, where the deadline is looked at. -/
def breakLoop (buf : List UInt8) : Option (List UInt8) → List (Reading UInt8) →
    HostOutcome (List UInt8)
  | none, [] => ⟨.ok buf, [], [.read .expired]⟩
  | none, .expired :: rest => ⟨.ok buf, rest, [.read .expired]⟩
  | none, .timeout :: rest => ((breakLoop buf none rest).cons (.read .timeout)).cons (.write ctrlC)
  | none, .item b :: rest =>
      ((breakLoop buf (some [b]) rest).cons (.read (.item b))).cons (.write ctrlC)
  | some data, .item b :: rest =>
      if data.length + 1 < 256 then
        (breakLoop buf (some (data ++ [b])) rest).cons (.read (.item b))
      else
        match promptFound (buf ++ (data ++ [b])) with
        | some n =>
            ⟨.ok (buf ++ (data ++ [b])), rest,
              .read (.item b) :: List.replicate n (.write ctrlC)⟩
        | none => (breakLoop (buf ++ (data ++ [b])) none rest).cons (.read (.item b))
  | some data, .timeout :: rest =>
      match promptFound (buf ++ data) with
      | some n => ⟨.ok (buf ++ data), rest, .read .timeout :: List.replicate n (.write ctrlC)⟩
      | none => (breakLoop (buf ++ data) none rest).cons (.read .timeout)
  | some data, .expired :: rest =>
      ⟨.ok (buf ++ data), rest,
        .read .expired :: List.replicate ((promptFound (buf ++ data)).getD 0) (.write ctrlC)⟩
  | some data, [] =>
      ⟨.ok (buf ++ data), [],
        .read .expired :: List.replicate ((promptFound (buf ++ data)).getD 0) (.write ctrlC)⟩

/-- The Ctrl-C and what is read.  The first one is sent in any case: the deadline has just been
set. -/
def breakAutoboot : Host (List UInt8)
  | [] => ⟨.ok [], [], [.write ctrlC, .read .expired]⟩
  | .expired :: rest => ⟨.ok [], rest, [.write ctrlC, .read .expired]⟩
  | script => breakLoop [] none script

namespace RecoverySession

variable (s : RecoverySession)

/-- The power cycle, if any, and the handshake; an error is what the power controller says. -/
def handshake (attempt : ℕ) : Host (Except String HandshakeResult) :=
  match s.power with
  | none => do
      let handshake ← s.protocol.handshake
      pure (.ok handshake)
  | some power => do
      Scripted.flush
      match power attempt with
      | .done => do
          let handshake ← s.protocol.handshake
          pure (.ok handshake)
      | .failed message after => do
          cancelled after s.protocol.handshake
          pure (.error message)

/-- What becomes of an attempt when the firmware has been sent, or not; `again` is the next
attempt, and `left` the number of attempts left. -/
def afterSend (again : Option String → Host SessionResult) (left : ℕ) (sent : SessionResult) :
    Host SessionResult :=
  if sent.success then pure sent
  else if .ddrInit ∉ sent.stagesCompleted ∧ 0 < left then again (some (sent.error.getD ""))
  else pure sent

/-- What becomes of an attempt after the handshake.  If the last handshake has failed, the result
is a variable that was never assigned. -/
def afterHandshake (again : Option String → Host SessionResult) (attempt left : ℕ) :
    Except String HandshakeResult → Host SessionResult
  | .error message => pure (.failed [] ("Power cycle failed: " ++ message))
  | .ok handshake =>
      if handshake.success then do
        let sent ← s.protocol.sendFirmware (s.time attempt) s.firmware
        afterSend again left sent
      else if 0 < left then again (some ("handshake: " ++ handshake.message))
      else Scripted.raise "UnboundLocalError"

/-- The attempts, with the number of the next one and how many are left. -/
def attempts : ℕ → ℕ → Option String → Host SessionResult
  | _, 0, lastError => pure (.failed [] ("Handshake failed: " ++ lastError.getD "None"))
  | attempt, left + 1, _ => do
      let handshake ← s.handshake attempt
      s.afterHandshake (attempts (attempt + 1) left) attempt left handshake

/-- The break, if it is asked for and the upload has succeeded. -/
def finish (result : SessionResult) : Host SessionResult :=
  if s.sendBreak && result.success then do
    let buf ← breakAutoboot
    pure { result with postBurnBuffer := buf }
  else pure result

/-- `run`. -/
def run : Host SessionResult := do
  let result ← s.attempts 1 (if s.power.isSome then s.maxHandshakeAttempts else 1) none
  s.finish result

/-- `run` over the transport of a platform. -/
def runOver (platform : Platform) : Host SessionResult := fun script =>
  s.run (script.map (createTransport platform).read)

end RecoverySession

end Defib
