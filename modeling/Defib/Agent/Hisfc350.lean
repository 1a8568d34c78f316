import Defib.Agent.MemoryRead
import Defib.Agent.SpiChips

/-!
# The HISFC350 driver

`spi_flash_hisfc350.c` as what it does to its controller and to the chip: commands go through the
command registers, with at most 64 data bytes each, and reads through the memory-mapped window.  The
controller sends three address bytes, and above 16 MiB the driver selects one of two banks in the
extended address register of the chip, which it remembers in `current_bank`.
-/

namespace Defib

/-- The controller with its chip, and the variables of the driver. -/
structure Hisfc350 where
  /-- `HISFC350_VERSION`. -/
  version : ℕ
  chip : NorChip
  /-- The chip select that the chip is on; nothing is on the other one. -/
  populated : ℕ
  /-- `GLOBAL_CONFIG.ADDR_MODE_4B`. -/
  addrMode4B : Bool
  /-- `READ_EN` and `READ_INS` of `BUS_CONFIG1`. -/
  readEn : Bool
  readIns : ℕ
  /-- `active_cs`. -/
  activeCs : ℕ
  /-- `needs_bank_switch`. -/
  needsBankSwitch : Bool
  /-- `current_bank`. -/
  currentBank : ℕ

namespace Hisfc350

variable (s : Hisfc350)

/-- The number of address bytes that the controller sends. -/
def addrBytes : ℕ := if s.addrMode4B then 4 else 3

/-- A command: what is in `CMD_DATABUF` after it, and the state.  Nobody answers on an empty chip
select. -/
def command (cs cmd : ℕ) (addr : Option ℕ) (data : List UInt8) (read : ℕ) :
    List UInt8 × Hisfc350 :=
  if cs = s.populated then
    let r := s.chip.exec ⟨cmd, addr.map fun a => (s.addrBytes, a), data, read⟩
    (r.1, { s with chip := r.2 })
  else (List.replicate read 0xFF, s)

/-- Loads from the window at `FLASH_MEM`; with `READ_EN` clear nothing of the chip is there. -/
def window (off n : ℕ) : List UInt8 :=
  if s.readEn then (s.chip.exec ⟨s.readIns, some (s.addrBytes, off), [], n⟩).1
  else List.replicate n 0xFF

/-- `flash_read_id`. -/
def flashReadId : UInt8 × UInt8 × UInt8 :=
  let w := (s.command s.activeCs 0x9F none [] 8).1
  (w.getD 0 0xFF, w.getD 1 0xFF, w.getD 2 0xFF)

/-- `flash_read_status`. -/
def flashReadStatus : UInt8 := (s.command s.activeCs 0x05 none [] 1).1.headD 0

/-- `spi_write_enable`. -/
def writeEnable : Hisfc350 := (s.command s.activeCs 0x06 none [] 0).2

/-- `flash_unlock`. -/
def flashUnlock : Hisfc350 :=
  let sr := s.flashReadStatus
  if sr &&& 0x7C = 0 then s
  else (s.writeEnable.command s.activeCs 0x01 none [sr &&& ~~~0x7C] 0).2

/-- `flash_select_bank`. -/
def flashSelectBank (bank : ℕ) : Hisfc350 :=
  if s.needsBankSwitch = false ∨ bank = s.currentBank then s
  else
    { (s.writeEnable.command s.activeCs 0xC5 none [if bank ≠ 0 then 0x01 else 0x00] 0).2 with
      currentBank := bank }

/-- The first half of `flash_init`: controller and chip are brought back to three address bytes, and
the window to plain reads. -/
def resetMode : Hisfc350 :=
  let s := { s with addrMode4B := false }
  let s := (s.command 1 0xE9 none [] 0).2
  let s := (s.command 0 0xE9 none [] 0).2
  { s with readEn := true, readIns := 0x03 }

/-- `flash_init` from `found` on. -/
def flashFound : Hisfc350 :=
  if detectSize s.flashReadId.2.2 > 0x1000000 then
    { s with needsBankSwitch := true }.flashSelectBank 0
  else s

/-- `flash_init`. -/
def flashInit : Bool × Hisfc350 :=
  if s.version ≠ 0x350 then (false, s)
  else
    let s := s.resetMode
    let s₁ := { s with activeCs := 1 }
    if jedecValid s₁.flashReadId then (true, s₁.flashFound)
    else
      let s₀ := { s with activeCs := 0 }
      if jedecValid s₀.flashReadId then (true, s₀.flashFound) else (false, s₀)

/-- The bank of an address. -/
def bankOf (addr : ℕ) : ℕ := if addr ≥ 0x1000000 then 1 else 0

/-- `flash_walk_banked` on the chunks of a range, with what `step` does to its context. -/
def flashWalkBanked {σ : Type} (step : σ → List UInt8 → σ) :
    List (ℕ × ℕ) → σ → Hisfc350 → σ × Hisfc350
  | [], ctx, s => (ctx, s)
  | p :: ps, ctx, s =>
      let s := s.flashSelectBank (bankOf p.1)
      flashWalkBanked step ps (step ctx (s.window (p.1 % 2 ^ 24) p.2)) s

lemma bankSize_pos : 0 < 2 ^ 24 := by decide

/-- The chunks of a range, each in one bank. -/
def bankChunks (addr len : ℕ) : List (ℕ × ℕ) := (Cut.within (2 ^ 24) bankSize_pos).pieces addr len

/-- `flash_read`.  Its `read_step` puts each chunk behind the one before. -/
def flashRead (addr len : ℕ) : List UInt8 × Hisfc350 :=
  if s.needsBankSwitch then
    flashWalkBanked (fun buf bytes => buf ++ bytes) (bankChunks addr len) [] s
  else (s.window addr len, s)

/-- `flash_crc32`. -/
def flashCrc32 (addr len : ℕ) : BitVec 32 × Hisfc350 :=
  if s.needsBankSwitch then flashWalkBanked crc32 (bankChunks addr len) 0 s
  else (crc32 0 (s.window addr len), s)

/-- `flash_verify_erased`. -/
def flashVerifyErased (addr len : ℕ) : Bool × Hisfc350 :=
  let head := s.flashRead addr (min len 16)
  if head.1.all (· = 0xFF) then
    if len > 32 then
      let tail := head.2.flashRead (add32 addr (len - 16)) 16
      (tail.1.all (· = 0xFF), tail.2)
    else (true, head.2)
  else (false, head.2)

/-- `flash_erase_sector`. -/
def flashEraseSector (addr : ℕ) : Bool × Hisfc350 :=
  let s := if s.needsBankSwitch then s.flashSelectBank (bankOf addr) else s
  let s := s.flashUnlock.writeEnable
  let s := (s.command s.activeCs 0xD8 (some (addr % 2 ^ 24)) [] 0).2
  s.flashVerifyErased addr 0x10000

lemma fifoSize_pos : 0 < 64 := by decide

/-- One chunk of `flash_write_page`. -/
def programChunk (addr : ℕ) (data : List UInt8) (s : Hisfc350) (p : ℕ × ℕ) : Hisfc350 :=
  let s := s.writeEnable
  (s.command s.activeCs 0x02 (some (add32 addr p.1 % 2 ^ 24)) ((data.drop p.1).take p.2) 0).2

/-- `flash_write_page`. -/
def flashWritePage (addr : ℕ) (data : List UInt8) : Bool × Hisfc350 :=
  let data := data.take 256
  let s := if s.needsBankSwitch then s.flashSelectBank (bankOf addr) else s
  let s := s.flashUnlock
  (true, ((Cut.upTo 64 fifoSize_pos).pieces 0 data.length).foldl (programChunk addr data) s)

end Hisfc350

/-- A call into the driver. -/
inductive HisfcCall
  | read (addr len : ℕ)
  | crc32 (addr len : ℕ)
  | erase (addr : ℕ)
  | write (addr : ℕ) (data : List UInt8)

/-- A call stays inside a chip of so many bytes. -/
def HisfcCall.InRange (size : ℕ) : HisfcCall → Prop
  | .read addr len => addr + len ≤ size
  | .crc32 addr len => addr + len ≤ size
  | .erase addr => addr < size
  | .write addr data => addr < size ∧ addr + data.length ≤ size

/-- The state after a call. -/
def Hisfc350.after (s : Hisfc350) : HisfcCall → Hisfc350
  | .read addr len => (s.flashRead addr len).2
  | .crc32 addr len => (s.flashCrc32 addr len).2
  | .erase addr => (s.flashEraseSector addr).2
  | .write addr data => (s.flashWritePage addr data).2

/-- The state in which `flash_init` finds everything, with a chip of 32 MiB, which its identification
reports, on one of the two chip selects: the registers of the controller and of the chip hold
anything, the variables of the driver what they are initialised with. -/
structure Hisfc350.Fresh (s : Hisfc350) : Prop where
  version : s.version = 0x350
  valid : jedecValid s.chip.jedecId = true
  size : s.chip.size = 2 ^ 25
  reported : detectSize s.chip.jedecId.2.2 = 2 ^ 25
  populated : s.populated = 0 ∨ s.populated = 1
  activeCs : s.activeCs = 0
  needsBankSwitch : s.needsBankSwitch = false
  currentBank : s.currentBank = 0xff

/-- The states after `flash_init`, over every sequence of calls. -/
inductive Hisfc350.Reached : Hisfc350 → Prop
  | init (s : Hisfc350) (h : s.Fresh) : Reached s.flashInit.2
  | call (s : Hisfc350) (f : HisfcCall) (hf : f.InRange (2 ^ 25)) (h : Reached s) :
      Reached (s.after f)

end Defib
