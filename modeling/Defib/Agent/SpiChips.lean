import Defib.Agent.Platform
import Defib.Framework.Store

/-!
# SPI flash chips

A NOR and a NAND as a driver finds them behind its controller: they take an instruction with its
address and data bytes, and answer with bytes.  An erase or a program is over when the next
instruction comes, so that the drivers' polls for it are not modelled.

Addresses have as many bytes as the chip expects.  With three of them a NOR of more than 16 MiB gets
its 25th address bit from the extended address register.
-/

namespace Defib

/-- An instruction on the line: its opcode, its address with the number of its bytes, the data bytes
written behind it, and how many bytes are read. -/
structure SpiOp where
  cmd : ℕ
  addr : Option (ℕ × ℕ)
  data : List UInt8
  read : ℕ
  deriving DecidableEq, Repr

namespace SpiOp

/-- An instruction by itself. -/
def plain (cmd : ℕ) : SpiOp := ⟨cmd, none, [], 0⟩

/-- An instruction that reads `n` bytes. -/
def reads (cmd n : ℕ) : SpiOp := ⟨cmd, none, [], n⟩

/-- An instruction that writes one byte. -/
def writes (cmd : ℕ) (value : UInt8) : SpiOp := ⟨cmd, none, [value], 0⟩

/-- The address that the chip gets, when it has the expected number of bytes. -/
def address? (op : SpiOp) (addrBytes : ℕ) : Option ℕ :=
  match op.addr with
  | none => none
  | some (bytes, value) => if bytes = addrBytes then some (value % 256 ^ bytes) else none

@[simp] lemma address?_self (cmd bytes a n : ℕ) (data : List UInt8) :
    address? ⟨cmd, some (bytes, a), data, n⟩ bytes = some (a % 256 ^ bytes) := if_pos rfl

end SpiOp

/-! ## NOR -/

/-- A NOR chip. -/
structure NorChip where
  jedecId : UInt8 × UInt8 × UInt8
  cells : Store UInt8
  /-- Write enable latch. -/
  wel : Bool
  /-- The status registers, without the latch and the busy bit. -/
  sr1 : UInt8
  sr2 : UInt8
  sr3 : UInt8
  /-- Are there individual sector locks? -/
  blockLocks : Bool
  /-- How many address bytes the chip expects. -/
  addrBytes : ℕ
  /-- Bit 0 of the extended address register. -/
  ear : Bool
  /-- The number of its last 64 KiB sector, whatever its identification says. -/
  lastSector : ℕ

namespace NorChip

variable (c : NorChip)

/-- The number of its cells. -/
def size : ℕ := (c.lastSector + 1) * 0x10000

/-- The cell that an address of the instruction stands for. -/
def resolve (a : ℕ) : ℕ :=
  (if c.addrBytes = 3 then c.ear.toNat * 2 ^ 24 + a % 2 ^ 24 else a) % c.size

/-- Something of the chip is protected, so that it does not erase or program. -/
def locked : Bool :=
  c.sr1 &&& 0x7C ≠ 0 || c.sr2 &&& 0x40 ≠ 0 || (c.sr3 &&& 0x04 ≠ 0 && c.blockLocks)

/-- The status register as it is read. -/
def status : UInt8 := c.sr1 ||| if c.wel then 2 else 0

/-- The 64 KiB sector around a cell is erased. -/
def eraseAt (base : ℕ) : Store UInt8 := fun a =>
  if a / 0x10000 = base / 0x10000 then 0xFF else c.cells a

/-- A page program that begins at a cell: it clears bits, and wraps inside its 256-byte page. -/
def programAt (base : ℕ) (data : List UInt8) : Store UInt8 := fun a =>
  if a / 256 = base / 256 then c.cells a &&& data.getD ((a % 256 + 256 - base % 256) % 256) 0xFF
  else c.cells a

/-- What is written needs the latch, and clears it. -/
def latched (written : NorChip) : NorChip := if c.wel then { written with wel := false } else c

/-- One instruction: the bytes read, and the chip after it. -/
def exec (op : SpiOp) : List UInt8 × NorChip :=
  match op.cmd with
  | 0x06 => ([], { c with wel := true })
  | 0x05 => (List.replicate op.read c.status, c)
  | 0x35 => (List.replicate op.read c.sr2, c)
  | 0x15 => (List.replicate op.read c.sr3, c)
  | 0x01 => ([], c.latched { c with sr1 := op.data.headD c.sr1 &&& 0xFC })
  | 0x31 => ([], c.latched { c with sr2 := op.data.headD c.sr2 })
  | 0x11 => ([], c.latched { c with sr3 := op.data.headD c.sr3 })
  | 0x98 => ([], c.latched { c with blockLocks := false })
  | 0xC5 => ([], c.latched { c with ear := (op.data.headD 0).toNat.testBit 0 })
  | 0xE9 => ([], { c with addrBytes := 3 })
  | 0x9F => ([c.jedecId.1, c.jedecId.2.1, c.jedecId.2.2].take op.read, c)
  | 0x03 =>
      match op.address? c.addrBytes with
      | none => (List.replicate op.read 0xFF, c)
      | some a => ((List.range op.read).map fun i => c.cells (c.resolve (a + i)), c)
  | 0x02 =>
      match op.address? c.addrBytes with
      | none => ([], c)
      | some a =>
          ([], c.latched (if c.locked then c
            else { c with cells := c.programAt (c.resolve a) op.data }))
  | 0xD8 =>
      match op.address? c.addrBytes with
      | none => ([], c)
      | some a =>
          ([], c.latched (if c.locked then c else { c with cells := c.eraseAt (c.resolve a) }))
  | _ => ([], c)

/-! ### Instructions with an address of the expected length -/

section Addressed

variable {c : NorChip} {bytes : ℕ} (h : bytes = c.addrBytes) (a : ℕ)

include h

lemma exec_read (n : ℕ) : c.exec ⟨0x03, some (bytes, a), [], n⟩ =
    ((List.range n).map fun i => c.cells (c.resolve (a % 256 ^ bytes + i)), c) := by
  rw [exec]
  simp only [← h, SpiOp.address?_self]

lemma exec_program (data : List UInt8) : c.exec ⟨0x02, some (bytes, a), data, 0⟩ =
    ([], c.latched (if c.locked then c
      else { c with cells := c.programAt (c.resolve (a % 256 ^ bytes)) data })) := by
  rw [exec]
  simp only [← h, SpiOp.address?_self]

lemma exec_erase : c.exec ⟨0xD8, some (bytes, a), [], 0⟩ =
    ([], c.latched (if c.locked then c
      else { c with cells := c.eraseAt (c.resolve (a % 256 ^ bytes)) })) := by
  rw [exec]
  simp only [← h, SpiOp.address?_self]

end Addressed

end NorChip

/-! ## NAND -/

/-- A NAND chip: its array of pages by row and column, and the cache between it and the line. -/
structure NandChip where
  jedecId : UInt8 × UInt8 × UInt8
  array : ℕ → Store UInt8
  cache : Store UInt8
  wel : Bool
  /-- Feature `0xA0`. -/
  protect : UInt8
  eFail : Bool
  pFail : Bool

namespace NandChip

variable (c : NandChip)

/-- The rows of the chip: 1 Gbit in pages of 2 KiB. -/
def rows : ℕ := 65536

/-- Feature `0xC0`. -/
def status : UInt8 :=
  (if c.wel then 2 else 0) ||| (if c.eFail then 4 else 0) ||| if c.pFail then 8 else 0

/-- The block of 64 pages around a row is erased. -/
def eraseBlock (row : ℕ) : ℕ → Store UInt8 := fun r =>
  if r / 64 = row / 64 then fun _ => 0xFF else c.array r

/-- A row is programmed from the cache, which clears bits. -/
def programRow (row : ℕ) : ℕ → Store UInt8 := fun r =>
  if r = row then fun col => c.array r col &&& c.cache col else c.array r

/-- One instruction: the bytes read, of which the first is a dummy where the cache is read, and the
chip after it. -/
def exec (op : SpiOp) : List UInt8 × NandChip :=
  match op.cmd with
  | 0x06 => ([], { c with wel := true })
  | 0x9F => ([c.jedecId.1, c.jedecId.2.1, c.jedecId.2.2].take op.read, c)
  | 0x0F =>
      match op.address? 1 with
      | some 0xA0 => (List.replicate op.read c.protect, c)
      | some 0xC0 => (List.replicate op.read c.status, c)
      | _ => (List.replicate op.read 0, c)
  | 0x1F =>
      match op.address? 1 with
      | some 0xA0 => ([], { c with protect := op.data.headD c.protect })
      | _ => ([], c)
  | 0x13 =>
      match op.address? 3 with
      | none => ([], c)
      | some row => ([], { c with cache := c.array (row % rows) })
  | 0x03 =>
      match op.address? 2 with
      | none => (List.replicate op.read 0xFF, c)
      | some col => ((0x00 :: c.cache.load col (op.read - 1)).take op.read, c)
  | 0x02 =>
      match op.address? 2 with
      | none => ([], c)
      | some col => ([], { c with cache := Store.write (fun _ => 0xFF) col op.data })
  | 0x84 =>
      match op.address? 2 with
      | none => ([], c)
      | some col => ([], { c with cache := c.cache.write col op.data })
  | 0x10 =>
      match op.address? 3 with
      | none => ([], c)
      | some row =>
          if c.wel = false then ([], c)
          else if c.protect ≠ 0 then ([], { c with wel := false, pFail := true })
          else ([], { c with wel := false, pFail := false, array := c.programRow (row % rows) })
  | 0xD8 =>
      match op.address? 3 with
      | none => ([], c)
      | some row =>
          if c.wel = false then ([], c)
          else if c.protect ≠ 0 then ([], { c with wel := false, eFail := true })
          else ([], { c with wel := false, eFail := false, array := c.eraseBlock (row % rows) })
  | _ => ([], c)

end NandChip

end Defib
