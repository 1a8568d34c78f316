import Defib.Framework.Store
import Defib.Rockusb.Protocol

/-!
# Block commands

`command` of `rockusb/device.py` and `write_image` and `read_image` of `rockusb/recovery.py`, with a
usbplug on the other end: a store of sectors that decodes the command wrappers it gets.  What it
does with a command, apart from that, is an `Answer`: how much of each transfer goes through, how
many of the sectors of a write are stored, and what it sends as its status wrapper, which may be
anything.
-/

namespace Defib

namespace Rockusb

/-! ## The usbplug -/

/-- What the usbplug does with one command.  A transfer that is `none` raises. -/
structure Answer where
  wrapperTaken : Option ℕ
  payloadTaken : Option ℕ
  /-- The sectors of a write that are stored, from the first one on. -/
  stored : ℕ
  dataSent : Option ℕ
  status : Option (List UInt8)

/-- The usbplug: its flash, by byte, and the commands it has got. -/
structure Usbplug where
  flash : Store UInt8
  log : List Cbw

/-- A host and a usbplug: what the usbplug does with each command, the tags that `secrets.randbits`
gives, and the packet size of the bulk endpoint. -/
structure Session where
  answers : ℕ → Cbw → Answer
  tags : ℕ → ℕ
  maxPacketSize : ℕ

namespace Usbplug

/-- The sectors that a read asks for. -/
def sectors (d : Usbplug) (cbw : Cbw) : List UInt8 :=
  if cbw.code = Opcode.readLba.code ∧ cbw.dirIn = true ∧
      cbw.transferLength = cbw.count * sectorSize then
    d.flash.load (cbw.address * sectorSize) (cbw.count * sectorSize)
  else []

/-- The usbplug after a command: a write stores as many of its sectors as the answer says. -/
def after (d : Usbplug) (cbw : Cbw) (a : Answer) (payload : List UInt8) : Usbplug where
  flash :=
    if cbw.code = Opcode.writeLba.code ∧ cbw.dirIn = false ∧
        cbw.transferLength = cbw.count * sectorSize then
      d.flash.write (cbw.address * sectorSize)
        (payload.take (min a.stored cbw.count * sectorSize))
    else d.flash
  log := d.log ++ [cbw]

end Usbplug

/-! ## `command` -/

/-- `_read_bulk`: the request is rounded up to whole packets, and the result cut. -/
def readBulk (maxPacketSize length : ℕ) (data : List UInt8) : List UInt8 :=
  (data.take ((length + maxPacketSize - 1) / maxPacketSize * maxPacketSize)).take length

/-- `_write_bulk`. -/
def writeBulk (what : String) (op : Opcode) (taken : Option ℕ) (length : ℕ) : Except Failure Unit :=
  match taken with
  | none => .error (.writeFailed what op)
  | some written =>
      if written ≠ length then .error (.writeShort what op written length) else .ok ()

/-- The data phase of `command`: what is read, if anything is. -/
def dataPhase (mps : ℕ) (op : Opcode) (a : Answer) (dataOut : List UInt8) (readLength : ℕ)
    (sectors : List UInt8) : Except Failure (List UInt8) :=
  if readLength > 0 then
    match a.dataSent with
    | none => .error (.dataPhaseFailed op)
    | some n => .ok (readBulk mps readLength (sectors.take n))
  else if dataOut = [] then .ok []
  else
    match writeBulk "payload" op a.payloadTaken dataOut.length with
    | .error e => .error e
    | .ok _ => .ok []

/-- `command` from its status wrapper on. -/
def statusPhase (op : Opcode) (a : Answer) (tag transferLength readLength : ℕ)
    (payload : List UInt8) : Except Failure (List UInt8) :=
  match a.status with
  | none => .error (.statusReadFailed op)
  | some csw =>
      match parseCsw csw tag with
      | .error e => .error e
      | .ok (residue, status) =>
          if status ≠ 0 then .error (.failed op status residue)
          else if residue ≠ 0 ∧ op.residueIsMeaningful then
            .error (.moved op transferLength residue)
          else if readLength > 0 ∧ payload.length ≠ readLength then
            .error (.returned op payload.length readLength)
          else .ok payload

namespace Session

variable (u : Session)

/-- `command`. -/
def command (op : Opcode) (subcode address count : ℕ) (dataOut : List UInt8) (readLength : ℕ)
    (d : Usbplug) : Except Failure (List UInt8) × Usbplug :=
  let tag := u.tags d.log.length
  let dirIn : Bool := readLength > 0
  let transferLength := if dirIn then readLength else dataOut.length
  match buildCbw tag op subcode address count transferLength dirIn with
  | .error e => (.error e, d)
  | .ok bytes =>
      match Cbw.decode bytes with
      | none => (.error (.statusReadFailed op), d)
      | some cbw =>
          let a := u.answers d.log.length cbw
          match writeBulk "command wrapper" op a.wrapperTaken bytes.length with
          | .error e => (.error e, d)
          | .ok _ =>
              (match dataPhase u.maxPacketSize op a dataOut readLength (d.sectors cbw) with
                | .error e => .error e
                | .ok payload => statusPhase op a tag transferLength readLength payload,
                d.after cbw a dataOut)

/-! ## Images -/

/-- The commands of `write_image`. -/
def writeCommands (startLba : ℕ) (data : List UInt8) :
    List (ℕ × ℕ) → Usbplug → Except Failure Unit × Usbplug
  | [], d => (.ok (), d)
  | p :: ps, d =>
      let r := u.command .writeLba 0 p.1 p.2
        ((data.drop ((p.1 - startLba) * sectorSize)).take (p.2 * sectorSize)) 0 d
      match r.1 with
      | .error e => (.error e, r.2)
      | .ok _ => writeCommands startLba data ps r.2

end Session

/-- An image, filled up to a whole number of sectors. -/
def padded (data : List UInt8) : List UInt8 :=
  if data.length % sectorSize ≠ 0 then
    data ++ List.replicate (sectorSize - data.length % sectorSize) 0
  else data

/-- The sectors of an image. -/
def imageSectors (data : List UInt8) : ℕ := (padded data).length / sectorSize

namespace Session

variable (u : Session)

/-- `write_image`. -/
def writeImage (startLba : ℕ) (data : List UInt8) (d : Usbplug) : Except Failure Unit × Usbplug :=
  u.writeCommands startLba (padded data) (splitLbaTransfers startLba (imageSectors data)) d

/-- The commands of `read_image`. -/
def readCommands : List (ℕ × ℕ) → Usbplug → Except Failure (List UInt8) × Usbplug
  | [], d => (.ok [], d)
  | p :: ps, d =>
      let r := u.command .readLba 0 p.1 p.2 [] (p.2 * sectorSize) d
      match r.1 with
      | .error e => (.error e, r.2)
      | .ok bytes =>
          let rest := readCommands ps r.2
          (rest.1.map (bytes ++ ·), rest.2)

/-- `read_image`. -/
def readImage (startLba sectors : ℕ) (d : Usbplug) : Except Failure (List UInt8) × Usbplug :=
  u.readCommands (splitLbaTransfers startLba sectors) d

end Session

/-! ## What a usbplug promises -/

/-- An answer is honest: a payload that went through whole, with a status wrapper that reports
success and nothing left over, is stored whole. -/
def Answer.Honest (a : Answer) (cbw : Cbw) : Prop :=
  a.payloadTaken = some cbw.transferLength →
    (∃ csw, a.status = some csw ∧ parseCsw csw cbw.tag = .ok (0, 0)) → cbw.count ≤ a.stored

/-- A session in which the usbplug fails as it likes, but does not lie about it. -/
structure HonestSession extends Session where
  honest : ∀ n cbw, (answers n cbw).Honest cbw
  packet_pos : 0 < maxPacketSize

/-- The answer of a usbplug that does what it is asked for. -/
def Answer.faithful (cbw : Cbw) : Answer where
  wrapperTaken := some cbwLength
  payloadTaken := some cbw.transferLength
  stored := cbw.count
  dataSent := some cbw.transferLength
  status := some (packCsw cbw.tag 0 0)

/-- A session without faults. -/
def faithfulSession (tags : ℕ → ℕ) (mps : ℕ) (h : 0 < mps) : HonestSession where
  answers _ cbw := .faithful cbw
  tags := tags
  maxPacketSize := mps
  honest _ _ _ _ := Nat.le_refl _
  packet_pos := h

end Rockusb

end Defib
