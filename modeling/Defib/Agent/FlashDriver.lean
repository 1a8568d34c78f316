import Defib.Framework.Pieces
import Defib.Wire.Crc32
import Defib.Agent.Platform

/-!
# Reading the flash

The read side of the two SPI drivers (`spi_flash.c` for the FMC100, `spi_flash_hisfc350.c` for
the HISFC350) and the block read of the eMMC reader, over a `Machine` that holds what the
hardware answers.

A driver does not hand out the cell array itself but its own view of it: the FMC100 sends three
address bytes whatever the chip, the HISFC350 has two banks of 16 MiB.  `view` is that view as a
store, and `flashRead_eq` says that `flash_read`, whatever loop it runs, is a plain window of it.
`flash_crc32` was written for NOR alone: there it is the checksum of what `flash_read` returns
(`flashCrc32_of_nor`), and on anything else it never looks at the medium
(`flashCrc32_of_not_nor`).
-/

namespace Defib

/-- What the hardware answers to reads. -/
structure Machine where
  /-- Byte loads from the bus: RAM, mask ROM, and whatever a byte load elsewhere returns. -/
  bus : Store UInt8
  /-- Word loads from the bus, by word address. -/
  reg : ℕ → BitVec 32
  /-- The cells of the identified flash. -/
  flash : Store UInt8
  /-- The I/O buffer after a NOR read command at an address, when the chip behind the controller
  is not a NOR: a NAND answers from its page cache, an empty socket floats. -/
  stray : ℕ → ℕ → UInt8
  /-- The blocks whose read the eMMC controller reports as failed. -/
  emmcFails : ℕ → Bool

/-! ## FMC100 -/

/-- `NAND_PAGE_SIZE`. -/
def nandPageSize : ℕ := 2048

lemma nandPageSize_pos : 0 < nandPageSize := by decide

/-- One SPI READ (`0x03`) through the register interface, with `OP_CFG_ADDR_NUM(3)`: the chip
gets the low three bytes of the address. -/
def spiRead (b : Board) (m : Machine) (addr len : ℕ) : List UInt8 :=
  if b.flashInfo.flashType = .nor then
    (List.range len).map fun i => m.flash ((addr + i) % 2 ^ 24)
  else (List.range len).map (m.stray addr)

/-- `nand_read`: load page `row` into the chip's cache, then fetch it in runs of 255 bytes. -/
def nandRead (m : Machine) (row column len : ℕ) : List UInt8 :=
  let cache : Store UInt8 := fun j => m.flash (row * nandPageSize + j)
  ((Cut.upTo 255 (by omega)).pieces 0 len).flatMap fun p => cache.load (column + p.1) p.2

/-- `flash_read` of `spi_flash.c`. -/
def flashReadFmc100 (b : Board) (m : Machine) (addr len : ℕ) : List UInt8 :=
  if b.flashInfo.flashType = .nand then
    ((Cut.within nandPageSize (by decide)).pieces addr len).flatMap fun p =>
      nandRead m (p.1 / nandPageSize) (p.1 % nandPageSize) p.2
  else
    ((Cut.upTo 256 (by omega)).pieces addr len).flatMap fun p => spiRead b m p.1 p.2

/-- `flash_crc32` of `spi_flash.c`, which has no NAND branch. -/
def flashCrc32Fmc100 (b : Board) (m : Machine) (addr len : ℕ) : BitVec 32 :=
  ((Cut.upTo 256 (by omega)).pieces addr len).foldl
    (fun c p => crc32 c (spiRead b m p.1 p.2)) 0

/-! ## HISFC350 -/

/-- `needs_bank_switch`. -/
def needsBankSwitch (b : Board) : Bool := b.flashInfo.size > 0x1000000

/-- Loads from the memory-mapped window with the given bank selected. -/
def ahbRead (m : Machine) (bank off len : ℕ) : List UInt8 := m.flash.load (bank * 2 ^ 24 + off) len

/-- The runs `flash_walk_banked` visits, as the bytes it finds there. -/
def bankedRead (m : Machine) (addr len : ℕ) : List UInt8 :=
  ahbRead m (if addr ≥ 0x1000000 then 1 else 0) (addr % 2 ^ 24) len

/-- `flash_read` of `spi_flash_hisfc350.c`. -/
def flashReadHisfc350 (b : Board) (m : Machine) (addr len : ℕ) : List UInt8 :=
  if needsBankSwitch b then
    ((Cut.within (2 ^ 24) (by omega)).pieces addr len).flatMap fun p => bankedRead m p.1 p.2
  else ahbRead m 0 addr len

/-- `flash_crc32` of `spi_flash_hisfc350.c`. -/
def flashCrc32Hisfc350 (b : Board) (m : Machine) (addr len : ℕ) : BitVec 32 :=
  if needsBankSwitch b then
    ((Cut.within (2 ^ 24) (by omega)).pieces addr len).foldl
      (fun c p => crc32 c (bankedRead m p.1 p.2)) 0
  else crc32 0 (ahbRead m 0 addr len)

/-! ## The driver a build links -/

/-- `flash_read`. -/
def flashRead (b : Board) (m : Machine) (addr len : ℕ) : List UInt8 :=
  match b.soc.spiDriver with
  | .fmc100 => flashReadFmc100 b m addr len
  | .hisfc350 => flashReadHisfc350 b m addr len

/-- `flash_crc32`. -/
def flashCrc32 (b : Board) (m : Machine) (addr len : ℕ) : BitVec 32 :=
  match b.soc.spiDriver with
  | .fmc100 => flashCrc32Fmc100 b m addr len
  | .hisfc350 => flashCrc32Hisfc350 b m addr len

/-- `emmc_read_block`: `CMD17` with the block number as its argument, which a high-capacity card
takes as a block number and any other card as a byte offset. -/
def emmcReadBlock (b : Board) (m : Machine) (blockNo : ℕ) : Option (List UInt8) :=
  match b.probe.emmc with
  | none => none
  | some card =>
      if emmcCapacityBytes card = 0 then none
      else if m.emmcFails blockNo then none
      else some (m.flash.load (if card.highCapacity then 512 * blockNo else blockNo) 512)

/-! ## What the drivers see -/

/-- The cells of the chip as the driver's read loop addresses them. -/
def view (b : Board) (m : Machine) : Store UInt8 :=
  match b.soc.spiDriver with
  | .fmc100 =>
      if b.flashInfo.flashType = .nand then m.flash else fun a => m.flash (a % 2 ^ 24)
  | .hisfc350 =>
      if needsBankSwitch b then
        fun a => m.flash ((if a ≥ 0x1000000 then 1 else 0) * 2 ^ 24 + a % 2 ^ 24)
      else m.flash

lemma nandRead_eq (m : Machine) (row column len : ℕ) :
    nandRead m row column len = m.flash.load (row * nandPageSize + column) len := by
  have h := Cut.flatMap_pieces_load (Cut.upTo 255 (by omega))
    (fun j => m.flash (row * nandPageSize + column + j))
    (fun a n => Store.load (fun j => m.flash (row * nandPageSize + j)) (column + a) n) 0 len
    (fun p _ => List.map_congr_left fun i _ => by simp [Nat.add_assoc])
  simp only [nandRead, h]
  simp [Store.load]

lemma flashReadFmc100_nand {b : Board} (hnand : b.flashInfo.flashType = .nand) (m : Machine)
    (addr len : ℕ) : flashReadFmc100 b m addr len = m.flash.load addr len := by
  rw [flashReadFmc100, if_pos hnand]
  refine Cut.flatMap_pieces_load _ m.flash
    (fun a n => nandRead m (a / nandPageSize) (a % nandPageSize) n) addr len fun p _ => ?_
  rw [nandRead_eq, Nat.mul_comm, Nat.div_add_mod]

lemma flashReadFmc100_nor {b : Board} (hnor : b.flashInfo.flashType = .nor) (m : Machine)
    (addr len : ℕ) : flashReadFmc100 b m addr len =
      Store.load (fun a => m.flash (a % 2 ^ 24)) addr len := by
  rw [flashReadFmc100, if_neg (by rw [hnor]; decide)]
  refine Cut.flatMap_pieces_load _ _ (spiRead b m) addr len fun p _ => ?_
  rw [spiRead, if_pos hnor]
  rfl

/-- Inside one bank the offset keeps its bank. -/
lemma bankedRead_eq (m : Machine) {addr len : ℕ} (h : addr % 2 ^ 24 + len ≤ 2 ^ 24) :
    bankedRead m addr len = Store.load
      (fun a => m.flash ((if a ≥ 0x1000000 then 1 else 0) * 2 ^ 24 + a % 2 ^ 24)) addr len := by
  refine List.map_congr_left fun i hi => ?_
  have hi' := List.mem_range.mp hi
  have hmod : (addr + i) % 2 ^ 24 = addr % 2 ^ 24 + i := by omega
  have hbank : (addr + i ≥ 0x1000000) = (addr ≥ 0x1000000) := by
    rw [eq_iff_iff]
    constructor <;> intro h' <;> omega
  simp only [hmod, hbank, Nat.add_assoc]

lemma flashReadHisfc350_eq (b : Board) (m : Machine) (addr len : ℕ) :
    flashReadHisfc350 b m addr len = Store.load (if needsBankSwitch b then
      fun a => m.flash ((if a ≥ 0x1000000 then 1 else 0) * 2 ^ 24 + a % 2 ^ 24)
      else m.flash) addr len := by
  rw [flashReadHisfc350]
  split
  · exact Cut.flatMap_pieces_load _ _ (bankedRead m) addr len fun p hp =>
      bankedRead_eq m (Cut.mem_pieces_within _ hp)
  · rw [ahbRead, Nat.zero_mul, Nat.zero_add]

/-- **`flash_read` is a window of the driver's view.** -/
lemma flashRead_eq {b : Board} (h : b.flashInfo.flashType ≠ .emmc) (m : Machine)
    (addr len : ℕ) : flashRead b m addr len = (view b m).load addr len := by
  unfold flashRead view
  cases b.soc.spiDriver with
  | fmc100 =>
      cases htype : b.flashInfo.flashType with
      | nor => exact flashReadFmc100_nor htype m addr len
      | nand => exact flashReadFmc100_nand htype m addr len
      | emmc => exact absurd htype h
  | hisfc350 => exact flashReadHisfc350_eq b m addr len

/-! ## The checksum -/

/-- A checksum folded over pieces is the checksum of the pieces put together. -/
lemma foldl_crc32 (read : ℕ × ℕ → List UInt8) (ps : List (ℕ × ℕ)) (c : BitVec 32) :
    ps.foldl (fun c p => crc32 c (read p)) c = crc32 c (ps.flatMap read) := by
  induction ps generalizing c with
  | nil => exact (crc32_nil c).symm
  | cons p ps ih => rw [List.foldl_cons, ih, List.flatMap_cons, crc32_append]

lemma flashCrc32_of_nor {b : Board} (hnor : b.flashInfo.flashType = .nor) (m : Machine)
    (addr len : ℕ) : flashCrc32 b m addr len = zlibCrc32 (flashRead b m addr len) := by
  rw [← crc32_zero]
  unfold flashCrc32 flashRead
  cases b.soc.spiDriver with
  | fmc100 =>
      simp only [flashCrc32Fmc100, flashReadFmc100, hnor]
      exact foldl_crc32 (fun p => spiRead b m p.1 p.2) _ 0
  | hisfc350 =>
      simp only [flashCrc32Hisfc350, flashReadHisfc350]
      split
      · exact foldl_crc32 (fun p => bankedRead m p.1 p.2) _ 0
      · rfl

/-- On the FMC100 without a NOR, `flash_crc32` does not look at the medium. -/
lemma flashCrc32_of_not_nor {b : Board} (hdriver : b.soc.spiDriver = .fmc100)
    (htype : b.flashInfo.flashType ≠ .nor) (m : Machine) (flash : Store UInt8) (addr len : ℕ) :
    flashCrc32 b { m with flash := flash } addr len = flashCrc32 b m addr len := by
  simp only [flashCrc32, hdriver, flashCrc32Fmc100, spiRead, if_neg htype]

end Defib
