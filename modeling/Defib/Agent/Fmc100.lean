import Defib.Agent.MemoryRead
import Defib.Agent.SpiChips

/-!
# The FMC100 driver

`spi_flash.c` as the instructions that it sends: `flash_init`, `flash_read`, `flash_erase_sector`
and `flash_write_page`, each with its NOR and its NAND branch.  An operation of the controller moves
at most 256 bytes through its I/O buffer.  The clock, the pads, the timing and the mode of the
controller do not reach the chip.
-/

namespace Defib

/-- The I/O buffer after an instruction. -/
def ioBuffer (received : List UInt8) : List UInt8 := received.take 256

/-! ## NOR -/

namespace NorChip

variable (c : NorChip)

/-- `spi_write_enable`. -/
def writeEnable : NorChip := (c.exec (.plain 0x06)).2

/-- `flash_read_status`. -/
def flashReadStatus : UInt8 := (ioBuffer (c.exec (.reads 0x05 1)).1).headD 0

/-- `flash_read_sr_n`. -/
def flashReadSrN (cmd : ℕ) : UInt8 := (ioBuffer (c.exec (.reads cmd 1)).1).headD 0

/-- `flash_write_sr_n`. -/
def flashWriteSrN (cmd : ℕ) (value : UInt8) : NorChip :=
  (c.writeEnable.exec (.writes cmd value)).2

/-- `flash_global_unlock`. -/
def flashGlobalUnlock : NorChip :=
  let sr1 := c.flashReadStatus
  let sr2 := c.flashReadSrN 0x35
  let sr3 := c.flashReadSrN 0x15
  let c := if sr3 &&& 0x04 ≠ 0 then (c.writeEnable.exec (.plain 0x98)).2 else c
  let c := if sr1 &&& 0xFC ≠ 0 then c.flashWriteSrN 0x01 (sr1 &&& ~~~0xFC) else c
  let c := if sr2 &&& 0x41 ≠ 0 then c.flashWriteSrN 0x31 (sr2 &&& ~~~0x41) else c
  if sr3 &&& 0x04 ≠ 0 then c.flashWriteSrN 0x11 (sr3 &&& ~~~0x04) else c

/-- `flash_unlock` of `spi_flash.c`, which clears the whole register. -/
def flashUnlock : NorChip :=
  if c.flashReadStatus &&& 0x7C = 0 then c else (c.writeEnable.exec (.writes 0x01 0x00)).2

lemma ioBufferSize_pos : 0 < 256 := by decide

/-- The NOR branch of `flash_read`. -/
def flashRead (addr len : ℕ) : List UInt8 :=
  ((Cut.upTo 256 ioBufferSize_pos).pieces addr len).flatMap fun p =>
    (ioBuffer (c.exec ⟨0x03, some (3, p.1), [], p.2⟩).1).take p.2

/-- `flash_verify_erased`, given how the driver reads. -/
def verifyErased (read : ℕ → ℕ → List UInt8) (addr len : ℕ) : Bool :=
  (read addr (min len 16)).all (· = 0xFF) &&
    (len ≤ 32 || (read (add32 addr (len - 16)) 16).all (· = 0xFF))

/-- The NOR branch of `flash_erase_sector`. -/
def flashEraseSector (addr : ℕ) : Bool × NorChip :=
  let c := (c.flashUnlock.writeEnable.exec ⟨0xD8, some (3, addr), [], 0⟩).2
  (verifyErased c.flashRead addr 0x10000, c)

/-- The NOR branch of `flash_write_page`. -/
def flashWritePage (addr : ℕ) (data : List UInt8) : Bool × NorChip :=
  (true, (c.flashUnlock.writeEnable.exec ⟨0x02, some (3, addr), data.take 256, 0⟩).2)

end NorChip

/-! ## NAND -/

namespace NandChip

variable (c : NandChip)

/-- `nand_write_enable`. -/
def writeEnable : NandChip := (c.exec (.plain 0x06)).2

/-- `nand_get_feature`. -/
def getFeature (addr : ℕ) : UInt8 := (ioBuffer (c.exec ⟨0x0F, some (1, addr), [], 1⟩).1).headD 0

/-- `nand_set_feature`. -/
def setFeature (addr : ℕ) (value : UInt8) : NandChip :=
  (c.exec ⟨0x1F, some (1, addr), [value], 0⟩).2

/-- `nand_erase_block`. -/
def nandEraseBlock (row : ℕ) : Bool × NandChip :=
  let c := (c.writeEnable.exec ⟨0xD8, some (3, row), [], 0⟩).2
  (c.getFeature 0xC0 &&& 0x04 = 0, c)

/-- One load of `nand_program_page`; the first one resets the cache. -/
def programLoad (column : ℕ) (data : List UInt8) (c : NandChip) (p : ℕ × ℕ) : NandChip :=
  (c.exec ⟨if p.1 = 0 then 0x02 else 0x84, some (2, column + p.1), (data.drop p.1).take p.2, 0⟩).2

/-- The loads of `nand_program_page`. -/
def programLoads (column : ℕ) (data : List UInt8) : NandChip :=
  ((Cut.upTo 256 NorChip.ioBufferSize_pos).pieces 0 data.length).foldl (programLoad column data) c

/-- `nand_program_page`. -/
def nandProgramPage (row column : ℕ) (data : List UInt8) : Bool × NandChip :=
  let c := c.writeEnable.programLoads column data
  let c := (c.exec ⟨0x10, some (3, row), [], 0⟩).2
  (c.getFeature 0xC0 &&& 0x08 = 0, c)

/-- What a run of `nand_read` holds besides its dummy byte. -/
lemma runSize_pos : 0 < 255 := by decide

/-- `nand_read`; the first byte of each run is the dummy. -/
def nandRead (row column len : ℕ) : List UInt8 × NandChip :=
  let c := (c.exec ⟨0x13, some (3, row), [], 0⟩).2
  (((Cut.upTo 255 runSize_pos).pieces 0 len).flatMap (fun p =>
    ((ioBuffer (c.exec ⟨0x03, some (2, column + p.1), [], p.2 + 1⟩).1).drop 1).take p.2), c)

/-- The loop over pages of `flash_read`. -/
def readPages (c : NandChip) : List (ℕ × ℕ) → List UInt8 × NandChip
  | [] => ([], c)
  | p :: ps =>
      let page := c.nandRead (p.1 / nandPageSize) (p.1 % nandPageSize) p.2
      let rest := readPages page.2 ps
      (page.1 ++ rest.1, rest.2)

/-- The NAND branch of `flash_read`. -/
def flashRead (addr len : ℕ) : List UInt8 × NandChip :=
  c.readPages ((Cut.within nandPageSize nandPageSize_pos).pieces addr len)

/-- The NAND branch of `flash_write_page`. -/
def flashWritePage (addr : ℕ) (data : List UInt8) : Bool × NandChip :=
  let column := addr % nandPageSize
  c.nandProgramPage (addr / nandPageSize) column (data.take (nandPageSize - column))

end NandChip

/-! ## The driver -/

/-- The chip behind the controller, and `current_flash_type`. -/
inductive FmcChip
  | nor (c : NorChip)
  | nand (c : NandChip)

namespace FmcChip

def jedecId : FmcChip → UInt8 × UInt8 × UInt8
  | nor c => c.jedecId
  | nand c => c.jedecId

/-- The bytes of the chip, by address. -/
def flash : FmcChip → Store UInt8
  | nor c => c.cells
  | nand c => fun a => c.array (a / nandPageSize) (a % nandPageSize)

/-- The number of its bytes. -/
def size : FmcChip → ℕ
  | nor c => c.size
  | nand _ => NandChip.rows * nandPageSize

/-- `flash_init`, once it has read the identification. -/
def flashInit : FmcChip → FmcChip
  | nor c => nor c.flashGlobalUnlock
  | nand c => nand (c.setFeature 0xA0 0x00)

/-- `flash_read`. -/
def flashRead : FmcChip → ℕ → ℕ → List UInt8 × FmcChip
  | nor c, addr, len => (c.flashRead addr len, nor c)
  | nand c, addr, len => ((c.flashRead addr len).1, nand (c.flashRead addr len).2)

/-- `flash_erase_sector`. -/
def flashEraseSector : FmcChip → ℕ → Bool × FmcChip
  | nor c, addr => ((c.flashEraseSector addr).1, nor (c.flashEraseSector addr).2)
  | nand c, addr =>
      let r := c.nandEraseBlock (addr / nandPageSize)
      (r.1, nand r.2)

/-- `flash_write_page`. -/
def flashWritePage : FmcChip → ℕ → List UInt8 → Bool × FmcChip
  | nor c, addr, data => ((c.flashWritePage addr data).1, nor (c.flashWritePage addr data).2)
  | nand c, addr, data => ((c.flashWritePage addr data).1, nand (c.flashWritePage addr data).2)

end FmcChip

/-- A call into the driver. -/
inductive FlashCall
  | read (addr len : ℕ)
  | erase (addr : ℕ)
  | write (addr : ℕ) (data : List UInt8)

/-- The chip after a call. -/
def FmcChip.after (c : FmcChip) : FlashCall → FmcChip
  | .read addr len => (c.flashRead addr len).2
  | .erase addr => (c.flashEraseSector addr).2
  | .write addr data => (c.flashWritePage addr data).2

/-- A chip as it is found by `flash_init`: it has the identification that the driver reads, and if it
is a NOR it ends with that sector, takes three address bytes, and the register that extends them is
clear. -/
structure FmcChip.Answers (c : FmcChip) (p : Probe) (lastSector : ℕ) : Prop where
  id : c.jedecId = p.jedecId 0
  nand_iff : (∃ n, c = .nand n) ↔ nandIdentify (p.jedecId 0) = true
  three_bytes : ∀ n, c = .nor n → n.addrBytes = 3 ∧ n.ear = false
  last : ∀ n, c = .nor n → n.lastSector = lastSector

/-- The chip in some state after `flash_init`. -/
inductive FmcChip.Reached (p : Probe) (lastSector : ℕ) : FmcChip → Prop
  | init (c : FmcChip) (h : c.Answers p lastSector) : Reached p lastSector c.flashInit
  | call (c : FmcChip) (f : FlashCall) (h : Reached p lastSector c) :
      Reached p lastSector (c.after f)

end Defib
