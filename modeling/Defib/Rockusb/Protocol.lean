import Defib.Boot.Frames
import Defib.Net.Tftp
import Defib.Wire.Packet

/-!
# rockusb framing

`rockusb/protocol.py`: the 31-byte command block wrapper, whose own fields are little-endian and
whose command block is big-endian, the 13-byte status wrapper, and the split of a range of sectors
into commands.  `Cbw.decode` reads a wrapper as the device does; `decode_buildCbw` is the round
trip.
-/

namespace Defib

namespace Rockusb

/-! ## Commands -/

def cbwSignature : List UInt8 := [0x55, 0x53, 0x42, 0x43]
def cswSignature : List UInt8 := [0x55, 0x53, 0x42, 0x53]
def cbwLength : ℕ := 31
def cswLength : ℕ := 13
def sectorSize : ℕ := 512
def maxSectorsPerTransfer : ℕ := 512
def directionIn : UInt8 := 0x80
def directionOut : UInt8 := 0x00

/-- `Opcode`. -/
inductive Opcode
  | testUnitReady
  | readFlashId
  | eraseNormal
  | readLba
  | writeLba
  | readFlashInfo
  | readChipInfo
  | eraseLba
  | readCapability
  | resetDevice
  deriving DecidableEq, Repr

namespace Opcode

def code : Opcode → UInt8
  | testUnitReady => 0x00
  | readFlashId => 0x01
  | eraseNormal => 0x06
  | readLba => 0x14
  | writeLba => 0x15
  | readFlashInfo => 0x1A
  | readChipInfo => 0x1B
  | eraseLba => 0x25
  | readCapability => 0xAA
  | resetDevice => 0xFF

/-- `_ADDRESSED_OPCODES`. -/
def addressed (op : Opcode) : Bool := op = readLba || op = writeLba || op = eraseLba

/-- `cdb_length`. -/
def cdbLength (op : Opcode) : ℕ := if op.addressed then 10 else 6

/-- `residue_is_meaningful`. -/
def residueIsMeaningful (op : Opcode) : Bool := op.addressed

end Opcode

/-- What `command` raises, and what its message shows. -/
inductive Failure
  | structError
  | writeFailed (what : String) (op : Opcode)
  | writeShort (what : String) (op : Opcode) (written length : ℕ)
  | dataPhaseFailed (op : Opcode)
  | statusReadFailed (op : Opcode)
  | shortStatus (got : ℕ)
  | badSignature (signature : List UInt8)
  | tagMismatch (tag expected : ℕ)
  | failed (op : Opcode) (status residue : ℕ)
  | moved (op : Opcode) (transferLength residue : ℕ)
  | returned (op : Opcode) (got want : ℕ)
  deriving DecidableEq, Repr

/-! ## The command wrapper -/

/-- The length of the data phase that `build_cbw` declares: an erase has a count but moves no
data. -/
def declaredLength (op : Opcode) (count transferLength : ℕ) : ℕ :=
  if transferLength = 0 ∧ count ≠ 0 ∧ op ≠ .eraseLba ∧ op ≠ .eraseNormal then count * sectorSize
  else transferLength

/-- The 16-byte command block. -/
def packCdb (op : Opcode) (subcode address count : ℕ) : List UInt8 :=
  op.code :: UInt8.ofNat subcode :: packBe32 address ++ 0 :: packBe16 count ++ List.replicate 7 0

/-- `build_cbw`.  `struct.pack` refuses a field that does not fit. -/
def buildCbw (tag : ℕ) (op : Opcode) (subcode address count transferLength : ℕ) (dirIn : Bool) :
    Except Failure (List UInt8) :=
  let length := declaredLength op count transferLength
  if subcode < 2 ^ 8 ∧ address < 2 ^ 32 ∧ count < 2 ^ 16 ∧ length < 2 ^ 32 then
    .ok (cbwSignature ++ (packU32 (tag % 2 ^ 32) ++ (packU32 length ++
      ((if dirIn then directionIn else directionOut) :: 0 :: UInt8.ofNat op.cdbLength ::
        packCdb op subcode address count))))
  else .error .structError

/-- A command wrapper as the device sees it. -/
structure Cbw where
  tag : ℕ
  transferLength : ℕ
  dirIn : Bool
  cdbLength : ℕ
  code : UInt8
  subcode : ℕ
  address : ℕ
  count : ℕ
  deriving DecidableEq, Repr

/-- The length of a command block that the device expects, by opcode. -/
def expectedCdbLength (code : UInt8) : UInt8 :=
  if code = 0x14 ∨ code = 0x15 ∨ code = 0x25 then 10 else 6

/-- What the device makes of 31 bytes.  It ignores a wrapper that declares another length of its
command block. -/
def Cbw.decode (bytes : List UInt8) : Option Cbw :=
  if bytes.length = cbwLength ∧ bytes.take 4 = cbwSignature ∧
      bytes.getD 14 0 = expectedCdbLength (bytes.getD 15 0) then
    some
      { tag := readLe32 (bytes.drop 4)
        transferLength := readLe32 (bytes.drop 8)
        dirIn := (bytes.getD 12 0).toNat.testBit 7
        cdbLength := (bytes.getD 14 0).toNat
        code := bytes.getD 15 0
        subcode := (bytes.getD 16 0).toNat
        address := readBe32 (bytes.drop 17)
        count := readBe16 (bytes.drop 22) }
  else none

/-- Every opcode declares the length that the device expects. -/
lemma Opcode.ofNat_cdbLength (op : Opcode) :
    UInt8.ofNat op.cdbLength = expectedCdbLength op.code := by
  cases op with
  | testUnitReady => rfl
  | readFlashId => rfl
  | eraseNormal => rfl
  | readLba => rfl
  | writeLba => rfl
  | readFlashInfo => rfl
  | readChipInfo => rfl
  | eraseLba => rfl
  | readCapability => rfl
  | resetDevice => rfl

lemma Opcode.toNat_ofNat_cdbLength (op : Opcode) :
    (UInt8.ofNat op.cdbLength).toNat = op.cdbLength := by
  rw [Opcode.cdbLength]
  split
  · rfl
  · rfl

/-- **Round trip of the command wrapper.** -/
lemma decode_buildCbw {tag subcode address count transferLength : ℕ} {op : Opcode} {dirIn : Bool}
    {bytes : List UInt8}
    (h : buildCbw tag op subcode address count transferLength dirIn = .ok bytes) :
    Cbw.decode bytes = some
      { tag := tag % 2 ^ 32
        transferLength := declaredLength op count transferLength
        dirIn := dirIn
        cdbLength := op.cdbLength
        code := op.code
        subcode := subcode
        address := address
        count := count } ∧ bytes.length = cbwLength := by
  rw [buildCbw] at h
  split at h
  · rename_i hfits
    obtain ⟨hsubcode, haddress, hcount, hlength⟩ := hfits
    obtain rfl := Except.ok.inj h
    refine ⟨?_, rfl⟩
    generalize declaredLength op count transferLength = length at hlength ⊢
    generalize hcdb : packCdb op subcode address count = cdb
    have htag := readLe32_packU32_append (tag % 2 ^ 32) (packU32 length ++
      ((if dirIn then directionIn else directionOut) :: 0 :: UInt8.ofNat op.cdbLength :: cdb))
    have hlen := readLe32_packU32_append length
      ((if dirIn then directionIn else directionOut) :: 0 :: UInt8.ofNat op.cdbLength :: cdb)
    have haddr := readBe32_packBe32_append address (0 :: packBe16 count ++ List.replicate 7 0)
    have hcnt := readBe16_packBe16_append count (List.replicate 7 0)
    rw [Nat.mod_eq_of_lt (Nat.mod_lt _ (by decide))] at htag
    rw [Nat.mod_eq_of_lt hlength] at hlen
    rw [Nat.mod_eq_of_lt haddress] at haddr
    rw [Nat.mod_eq_of_lt hcount] at hcnt
    subst hcdb
    rw [Cbw.decode, if_pos ⟨rfl, rfl, op.ofNat_cdbLength⟩]
    refine congrArg some ?_
    rw [Cbw.mk.injEq]
    refine ⟨htag, hlen, ?_, op.toNat_ofNat_cdbLength, rfl, ?_, haddr, hcnt⟩
    · cases dirIn with
      | true => exact (by decide : directionIn.toNat.testBit 7 = true)
      | false => exact (by decide : directionOut.toNat.testBit 7 = false)
    · exact UInt8.toNat_ofNat_of_lt' hsubcode
  · cases h

/-! ## The status wrapper -/

/-- `parse_csw` for an expected tag: residue and status. -/
def parseCsw (data : List UInt8) (expectedTag : ℕ) : Except Failure (ℕ × ℕ) :=
  if data.length < cswLength then .error (.shortStatus data.length)
  else if data.take 4 ≠ cswSignature then .error (.badSignature (data.take 4))
  else
    let tag := readLe32 (data.drop 4)
    if tag ≠ expectedTag % 2 ^ 32 then .error (.tagMismatch tag (expectedTag % 2 ^ 32))
    else .ok (readLe32 (data.drop 8), (data.getD 12 0).toNat)

/-- A status wrapper of the device. -/
def packCsw (tag residue status : ℕ) : List UInt8 :=
  cswSignature ++ (packU32 tag ++ (packU32 residue ++ [UInt8.ofNat status]))

/-- A status wrapper that reports success. -/
lemma parseCsw_packCsw_ok (tag : ℕ) : parseCsw (packCsw tag 0 0) tag = .ok (0, 0) := by
  have hlength : (packCsw tag 0 0).length = cswLength := rfl
  have hsignature : (packCsw tag 0 0).take 4 = cswSignature := rfl
  have htag : readLe32 ((packCsw tag 0 0).drop 4) = tag % 2 ^ 32 :=
    readLe32_packU32_append tag (packU32 0 ++ [UInt8.ofNat 0])
  have hresidue : readLe32 ((packCsw tag 0 0).drop 8) = 0 :=
    readLe32_packU32_append 0 [UInt8.ofNat 0]
  have hstatus : ((packCsw tag 0 0).getD 12 0).toNat = 0 := rfl
  rw [parseCsw, hlength, hsignature, htag, hresidue, hstatus]
  simp only [Nat.lt_irrefl, ne_eq, not_true_eq_false, if_false]

/-! ## Splitting a range -/

/-- `split_lba_transfers` with its default limit. -/
def splitLbaTransfers (startLba totalSectors : ℕ) : List (ℕ × ℕ) :=
  (Cut.upTo maxSectorsPerTransfer (by decide)).pieces startLba totalSectors

end Rockusb

end Defib
