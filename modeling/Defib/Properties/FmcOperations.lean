import Defib.Framework.FlashCells
import Defib.Agent.Fmc100

/-!
# What the FMC100 driver does to a chip

`fmc_exact_iff` says, call by call, when the driver reads, erases and programs exactly the bytes it
is asked for.  On the NAND it always does, but for a program of no bytes, which commits whatever the
cache still holds.  On a NOR the driver sends three address bytes, so that it is exact below 16 MiB
only, while `flash_init` accepts chips of up to 64 MiB.

Every call begins with the chip unlocked: `flash_init` unlocks it, and no call locks it again
(`NorChip.Ready`, `NandChip.Ready`).
-/

namespace Defib

/-! ## Bits -/

lemma or_and_of_and_eq_zero {w m : UInt8} (x : UInt8) (h : w &&& m = 0) :
    (x ||| w) &&& m = x &&& m := by
  have hw : w.toNat &&& m.toNat = 0 := by
    rw [← UInt8.toNat_and, h]
    rfl
  apply UInt8.toNat_inj.mp
  rw [UInt8.toNat_and, UInt8.toNat_or, UInt8.toNat_and, Nat.and_or_distrib_right, hw, Nat.or_zero]

lemma and_not_and_eq_zero {m k : UInt8} (x : UInt8) (h : ~~~m &&& k = 0) :
    (x &&& ~~~m) &&& k = 0 := by
  rw [UInt8.and_assoc, h, UInt8.and_zero]

/-! ## NOR -/

/-- How far three address bytes stand for the cells of a NOR: to 16 MiB, or to the end of the
chip. -/
def norReach (lastSector : ℕ) : ℕ := min ((lastSector + 1) * 0x10000) (2 ^ 24)

/-- Cells on the two sides of it lie in different sectors. -/
lemma sector_lt_of_norReach {lastSector a b : ℕ} (ha : a < norReach lastSector)
    (hb : norReach lastSector ≤ b) : a / 0x10000 < b / 0x10000 := by
  rw [norReach] at ha hb
  omega

namespace NorChip

variable {c : NorChip}

/-- The chip takes three address bytes, nothing extends them, and nothing is protected. -/
structure Ready (c : NorChip) : Prop where
  three_bytes : c.addrBytes = 3
  ear_clear : c.ear = false
  unlocked : c.locked = false

/-- Where an address of three bytes goes. -/
def place (c : NorChip) (a : ℕ) : ℕ := a % 2 ^ 24 % c.size

lemma place_of_lt {a : ℕ} (h : a < norReach c.lastSector) : c.place a = a := by
  obtain ⟨hsize, hbytes⟩ : a < c.size ∧ a < 2 ^ 24 := lt_min_iff.mp h
  rw [place, Nat.mod_eq_of_lt hbytes, Nat.mod_eq_of_lt hsize]

/-- Every address stands for a cell there. -/
lemma place_lt (c : NorChip) (a : ℕ) : c.place a < norReach c.lastSector := by
  have hpos : 0 < c.size := Nat.mul_pos (Nat.succ_pos _) (by decide)
  exact lt_min (Nat.mod_lt _ hpos)
    (Nat.lt_of_le_of_lt (Nat.mod_le _ _) (Nat.mod_lt _ (by decide)))

lemma norReach_le_size (c : NorChip) : norReach c.lastSector ≤ c.size := min_le_left _ _

lemma Ready.resolve_eq (h : c.Ready) (a : ℕ) : c.resolve a = c.place a := by
  rw [resolve, if_pos h.three_bytes, h.ear_clear, place]
  simp

lemma Ready.resolve_mod_add (h : c.Ready) (a i : ℕ) :
    c.resolve (a % 256 ^ 3 + i) = c.place (a + i) := by
  rw [h.resolve_eq, place, place]
  congr 1
  omega

/-- The block protection of a chip that is not locked is clear. -/
lemma sr1_of_unlocked (h : c.locked = false) : c.sr1 &&& 0x7C = 0 := by
  simp only [locked, Bool.or_eq_false_iff, decide_eq_false_iff_not, not_not] at h
  exact h.1.1

lemma flashReadStatus_eq (c : NorChip) : c.flashReadStatus = c.status := rfl

lemma status_and_mask (c : NorChip) : c.status &&& 0x7C = c.sr1 &&& 0x7C := by
  rw [status]
  refine or_and_of_and_eq_zero _ ?_
  split
  · rfl
  · rfl

/-- There is nothing to unlock. -/
lemma Ready.flashUnlock_eq (h : c.Ready) : c.flashUnlock = c := by
  rw [flashUnlock, flashReadStatus_eq, status_and_mask, if_pos (sr1_of_unlocked h.unlocked)]

lemma Ready.writeEnable (h : c.Ready) : c.writeEnable.Ready := ⟨h.1, h.2, h.3⟩

/-- **An erase erases the sector that its three address bytes lie in.** -/
lemma Ready.flashEraseSector_eq (h : c.Ready) (addr : ℕ) :
    (c.flashEraseSector addr).2 = { c with wel := false, cells := c.eraseAt (c.place addr) } := by
  have hplace : c.writeEnable.resolve (addr % 256 ^ 3) = c.place addr :=
    h.writeEnable.resolve_mod_add addr 0
  rw [flashEraseSector, h.flashUnlock_eq]
  simp only [exec_erase h.writeEnable.three_bytes.symm, hplace, h.writeEnable.unlocked]
  rfl

/-- **A program programs the page that its three address bytes lie in.** -/
lemma Ready.flashWritePage_eq (h : c.Ready) (addr : ℕ) (data : List UInt8) :
    (c.flashWritePage addr data).2 =
      { c with wel := false, cells := c.programAt (c.place addr) (data.take 256) } := by
  have hplace : c.writeEnable.resolve (addr % 256 ^ 3) = c.place addr :=
    h.writeEnable.resolve_mod_add addr 0
  rw [flashWritePage, h.flashUnlock_eq]
  simp only [exec_program h.writeEnable.three_bytes.symm, hplace, h.writeEnable.unlocked]
  rfl

/-- **A read reads where its three address bytes lie.** -/
lemma Ready.flashRead_eq (h : c.Ready) (addr len : ℕ) :
    c.flashRead addr len = Store.load (fun a => c.cells (c.place a)) addr len := by
  rw [flashRead]
  refine Cut.flatMap_pieces_load _ _ (fun a n =>
    (ioBuffer (c.exec ⟨0x03, some (3, a), [], n⟩).1).take n) addr len fun p hp => ?_
  have hle := Cut.length_le_of_mem_upTo _ hp
  rw [exec_read h.three_bytes.symm, ioBuffer, List.take_take, Nat.min_eq_left hle,
    List.take_of_length_le (by simp)]
  exact List.map_congr_left fun i _ => by rw [h.resolve_mod_add]

/-- What a chip keeps is ready for the next call. -/
lemma Ready.after_cells (h : c.Ready) (wel : Bool) (cells : Store UInt8) :
    Ready { c with wel := wel, cells := cells } := ⟨h.1, h.2, h.3⟩

lemma flashWriteSrN_sr1 (c : NorChip) (value : UInt8) :
    c.flashWriteSrN 0x01 value = { c with sr1 := value &&& 0xFC, wel := false } := rfl

lemma flashWriteSrN_sr2 (c : NorChip) (value : UInt8) :
    c.flashWriteSrN 0x31 value = { c with sr2 := value, wel := false } := rfl

lemma flashWriteSrN_sr3 (c : NorChip) (value : UInt8) :
    c.flashWriteSrN 0x11 value = { c with sr3 := value, wel := false } := rfl

lemma locked_eq_false_iff (c : NorChip) :
    c.locked = false ↔
      c.sr1 &&& 0x7C = 0 ∧ c.sr2 &&& 0x40 = 0 ∧ (c.sr3 &&& 0x04 = 0 ∨ c.blockLocks = false) := by
  simp only [locked, Bool.or_eq_false_iff, decide_eq_false_iff_not, not_not, Bool.and_eq_false_iff,
    and_assoc]

/-- A register without the bits of a mask: as it is when they are clear, else written. -/
def cleared (v mask : UInt8) : UInt8 := if v &&& mask ≠ 0 then v &&& ~~~mask else v

lemma cleared_and {mask k : UInt8} (v : UInt8) (hnot : ~~~mask &&& k = 0) (hsub : mask &&& k = k) :
    cleared v mask &&& k = 0 := by
  rw [cleared]
  split
  · exact and_not_and_eq_zero v hnot
  · rename_i h
    rw [← hsub, ← UInt8.and_assoc, not_not.mp h, UInt8.zero_and]

/-- The first status register after the unlock. -/
def unlockedSr1 (c : NorChip) : UInt8 :=
  if c.status &&& 0xFC ≠ 0 then c.status &&& ~~~0xFC &&& 0xFC else c.sr1

lemma unlockedSr1_and (c : NorChip) : c.unlockedSr1 &&& 0x7C = 0 := by
  rw [unlockedSr1]
  split
  · rw [UInt8.and_assoc, UInt8.and_assoc]
    exact UInt8.and_zero
  · rename_i h
    rw [← status_and_mask, ← (by decide : (0xFC : UInt8) &&& 0x7C = 0x7C), ← UInt8.and_assoc,
      not_not.mp h, UInt8.zero_and]

/-! What each step of the unlock does to its register. -/

section

variable (c : NorChip) (p : Prop) [Decidable p] (v : UInt8)

lemma ite_releaseBlocks :
    (if p then (c.writeEnable.exec (.plain 0x98)).2 else c) =
      { c with
        blockLocks := if p then false else c.blockLocks
        wel := if p then false else c.wel } := by
  split_ifs <;> rfl

lemma ite_writeSr1 :
    (if p then c.flashWriteSrN 0x01 v else c) =
      { c with
        sr1 := if p then v &&& 0xFC else c.sr1
        wel := if p then false else c.wel } := by
  rw [flashWriteSrN_sr1]
  split_ifs <;> rfl

lemma ite_writeSr2 :
    (if p then c.flashWriteSrN 0x31 v else c) =
      { c with
        sr2 := if p then v else c.sr2
        wel := if p then false else c.wel } := by
  rw [flashWriteSrN_sr2]
  split_ifs <;> rfl

lemma ite_writeSr3 :
    (if p then c.flashWriteSrN 0x11 v else c) =
      { c with
        sr3 := if p then v else c.sr3
        wel := if p then false else c.wel } := by
  rw [flashWriteSrN_sr3]
  split_ifs <;> rfl

end

/-- `flash_global_unlock` clears the bits that protect, register by register. -/
lemma flashGlobalUnlock_eq (c : NorChip) :
    c.flashGlobalUnlock =
      { c with
        sr1 := c.unlockedSr1
        sr2 := cleared c.sr2 0x41
        sr3 := cleared c.sr3 0x04
        blockLocks := if c.sr3 &&& 0x04 ≠ 0 then false else c.blockLocks
        wel := c.flashGlobalUnlock.wel } := by
  have hstatus : c.flashReadStatus = c.status := rfl
  have hsr2 : c.flashReadSrN 0x35 = c.sr2 := rfl
  have hsr3 : c.flashReadSrN 0x15 = c.sr3 := rfl
  rw [flashGlobalUnlock, hstatus, hsr2, hsr3, ite_releaseBlocks, ite_writeSr1, ite_writeSr2,
    ite_writeSr3]
  rfl

/-- **`flash_init` unlocks a chip.** -/
lemma flashGlobalUnlock_unlocked (c : NorChip) : c.flashGlobalUnlock.locked = false := by
  rw [locked_eq_false_iff, flashGlobalUnlock_eq]
  exact ⟨c.unlockedSr1_and, cleared_and c.sr2 (by decide) (by decide),
    .inl (cleared_and c.sr3 (by decide) (by decide))⟩

lemma ready_flashGlobalUnlock (hbytes : c.addrBytes = 3) (hear : c.ear = false) :
    c.flashGlobalUnlock.Ready := by
  refine ⟨?_, ?_, c.flashGlobalUnlock_unlocked⟩
  · rw [flashGlobalUnlock_eq]
    exact hbytes
  · rw [flashGlobalUnlock_eq]
    exact hear

/-- A program inside one page programs its range. -/
lemma programAt_eq_program {base : ℕ} {data : List UInt8} (h : base % 256 + data.length ≤ 256) :
    c.programAt base data = FlashCells.program c.cells base data := by
  funext a
  rw [programAt]
  by_cases hpage : a / 256 = base / 256
  · rw [if_pos hpage]
    by_cases ha : base ≤ a
    · rw [FlashCells.program, if_pos ha]
      congr 2
      omega
    · rw [FlashCells.program_apply_of_not_mem (.inl (by omega)),
        List.getD_eq_default _ _ (by omega), FlashCells.and_erased]
  · rw [if_neg hpage, FlashCells.program_apply_of_not_mem (by omega)]

lemma eraseAt_eq_erase (c : NorChip) (base : ℕ) :
    c.eraseAt base = FlashCells.erase 0x10000 c.cells base := rfl

/-- In range, the driver reads what the model of its reads alone says. -/
lemma Ready.flashRead_eq_model {b : Board} {m : Machine} (h : c.Ready)
    (hnor : b.flashInfo.flashType = .nor) (hcells : m.flash = c.cells) {addr len : ℕ}
    (hrange : addr + len ≤ c.size) : c.flashRead addr len = flashReadFmc100 b m addr len := by
  rw [h.flashRead_eq, flashReadFmc100_nor hnor, hcells]
  refine Store.load_congr fun i _ hi => ?_
  have hplace : i % 2 ^ 24 < c.size := Nat.lt_of_le_of_lt (Nat.mod_le _ _) (by omega)
  rw [place, Nat.mod_eq_of_lt hplace]

end NorChip

/-! ## NAND -/

namespace NandChip

variable {c : NandChip}

/-- No block is protected. -/
def Ready (c : NandChip) : Prop := c.protect = 0

lemma status_and_eFail (c : NandChip) (h : c.eFail = false) : c.status &&& 0x04 = 0 := by
  rw [status, h]
  cases c.wel with
  | false => cases c.pFail with
    | false => rfl
    | true => rfl
  | true => cases c.pFail with
    | false => rfl
    | true => rfl

lemma status_and_pFail (c : NandChip) (h : c.pFail = false) : c.status &&& 0x08 = 0 := by
  rw [status, h]
  cases c.wel with
  | false => cases c.eFail with
    | false => rfl
    | true => rfl
  | true => cases c.eFail with
    | false => rfl
    | true => rfl

/-- The row bytes of an erase wrap. -/
lemma Ready.nandEraseBlock_eq_mod (h : c.Ready) (row : ℕ) :
    c.nandEraseBlock row = (true, { c with
      wel := false
      eFail := false
      array := c.eraseBlock (row % 256 ^ 3 % rows) }) := by
  have hexec : (c.writeEnable.exec ⟨0xD8, some (3, row), [], 0⟩).2 =
      { c with wel := false, eFail := false, array := c.eraseBlock (row % 256 ^ 3 % rows) } := by
    have hprotect : c.protect = 0 := h
    rw [writeEnable, exec, exec]
    simp only [SpiOp.address?_self, SpiOp.plain, hprotect]
    rfl
  rw [nandEraseBlock, hexec]
  refine Prod.ext ?_ rfl
  exact decide_eq_true (status_and_eFail _ rfl)

/-- **An erase erases its block**, and says so. -/
lemma Ready.nandEraseBlock_eq (h : c.Ready) {row : ℕ} (hrow : row < rows) :
    c.nandEraseBlock row =
      (true, { c with wel := false, eFail := false, array := c.eraseBlock row }) := by
  have hlt : row % 256 ^ 3 % rows = row := by
    rw [rows] at hrow ⊢
    omega
  rw [h.nandEraseBlock_eq_mod, hlt]

lemma programLoad_zero (c : NandChip) {column : ℕ} (hcolumn : column < 2 ^ 16)
    (data : List UInt8) (k : ℕ) :
    c.programLoad column data (0, k) =
      { c with cache := Store.write (fun _ => 0xFF) column (data.take k) } := by
  rw [programLoad, if_pos rfl, exec]
  simp only [Nat.add_zero, SpiOp.address?_self, List.drop_zero,
    Nat.mod_eq_of_lt (show column < 256 ^ 2 from hcolumn)]

/-- A later load appends to what was loaded. -/
lemma programLoad_pos {c : NandChip} {column a k : ℕ} {data : List UInt8}
    (hcolumn : column + data.length ≤ 2 ^ 16) (ha : 0 < a) (hk : 0 < k) (hle : a + k ≤ data.length)
    (hcache : c.cache = Store.write (fun _ => 0xFF) column (data.take a)) :
    c.programLoad column data (a, k) =
      { c with cache := Store.write (fun _ => 0xFF) column (data.take (a + k)) } := by
  have hlength : (data.take a).length = a := List.length_take_of_le (by omega)
  have hwrite :=
    Store.write_write_append (fun _ => 0xFF) column (data.take a) ((data.drop a).take k)
  rw [hlength, ← hcache, ← List.take_add] at hwrite
  rw [programLoad, if_neg (Nat.ne_of_gt ha), exec]
  simp only [SpiOp.address?_self, Nat.mod_eq_of_lt (show column + a < 256 ^ 2 by omega), hwrite]

/-- The loads behind the first one. -/
lemma foldl_programLoad {column : ℕ} {data : List UInt8} (hcolumn : column + data.length ≤ 2 ^ 16)
    (a n : ℕ) : ∀ c : NandChip, 0 < a → a + n ≤ data.length →
      c.cache = Store.write (fun _ => 0xFF) column (data.take a) →
      ((Cut.upTo 256 (by decide)).pieces a n).foldl (programLoad column data) c =
        { c with cache := Store.write (fun _ => 0xFF) column (data.take (a + n)) } := by
  refine (Cut.upTo 256 (by decide)).pieces_induction (motive := fun a n => ∀ c : NandChip, 0 < a →
      a + n ≤ data.length → c.cache = Store.write (fun _ => 0xFF) column (data.take a) →
      ((Cut.upTo 256 (by decide)).pieces a n).foldl (programLoad column data) c =
        { c with cache := Store.write (fun _ => 0xFF) column (data.take (a + n)) })
    (fun a c _ _ hc => ?_) (fun a n hn ih c ha hle hc => ?_) a n
  · rw [Cut.pieces_zero, List.foldl_nil, Nat.add_zero, ← hc]
  · have hpos := (Cut.upTo 256 (by decide)).first_pos a n hn
    have hfirst := (Cut.upTo 256 (by decide)).first_le a n
    rw [Cut.pieces_of_pos _ _ hn, List.foldl_cons]
    generalize (Cut.upTo 256 (by decide)).first a n = k at hpos hfirst ih
    rw [programLoad_pos hcolumn ha hpos (by omega) hc, ih _ (by omega) (by omega) rfl,
      Nat.add_assoc, Nat.add_sub_cancel' hfirst]

/-- **The loads put the data into an erased cache**, when there are any. -/
lemma programLoads_eq (c : NandChip) {column : ℕ} {data : List UInt8}
    (hcolumn : column + data.length ≤ 2 ^ 16) (hne : data ≠ []) :
    c.programLoads column data = { c with cache := Store.write (fun _ => 0xFF) column data } := by
  have hn : 0 < data.length := List.length_pos_iff.mpr hne
  have hpos := (Cut.upTo 256 (by decide)).first_pos 0 data.length hn
  have hfirst := (Cut.upTo 256 (by decide)).first_le 0 data.length
  rw [programLoads, Cut.pieces_of_pos _ _ hn, List.foldl_cons]
  generalize (Cut.upTo 256 (by decide)).first 0 data.length = k at hpos hfirst
  rw [programLoad_zero c (by omega), Nat.zero_add,
    foldl_programLoad hcolumn _ _ _ hpos (by omega) rfl, Nat.add_sub_cancel' hfirst,
    List.take_length]

lemma programLoads_nil (c : NandChip) (column : ℕ) : c.programLoads column [] = c := rfl

/-- **A program commits the cache to its row**, and says so. -/
lemma Ready.nandProgramPage_eq (h : c.Ready) {row : ℕ} (hrow : row < rows) (column : ℕ)
    (data : List UInt8) {loaded : NandChip}
    (hloaded : c.writeEnable.programLoads column data = loaded)
    (hwel : loaded.wel = true) (hprotect : loaded.protect = c.protect) :
    c.nandProgramPage row column data =
      (true, { loaded with wel := false, pFail := false, array := loaded.programRow row }) := by
  have hlt : row % 256 ^ 3 % rows = row := by
    rw [rows] at hrow ⊢
    omega
  have hexec : (loaded.exec ⟨0x10, some (3, row), [], 0⟩).2 =
      { loaded with wel := false, pFail := false, array := loaded.programRow row } := by
    have hzero : loaded.protect = 0 := hprotect.trans h
    rw [exec]
    simp only [SpiOp.address?_self, hlt, hzero, hwel]
    rfl
  rw [nandProgramPage, hloaded, hexec]
  refine Prod.ext ?_ rfl
  exact decide_eq_true (status_and_pFail _ rfl)

/-- One run of a page that is read: the dummy byte is dropped. -/
lemma readRun_eq (c : NandChip) {column n : ℕ} (hcolumn : column < 2 ^ 16) (hn : n ≤ 255) :
    ((ioBuffer (c.exec ⟨0x03, some (2, column), [], n + 1⟩).1).drop 1).take n =
      c.cache.load column n := by
  have hexec : (c.exec ⟨0x03, some (2, column), [], n + 1⟩).1 = 0x00 :: c.cache.load column n := by
    rw [exec]
    simp only [SpiOp.address?_self, Nat.mod_eq_of_lt (show column < 256 ^ 2 from hcolumn),
      Nat.add_sub_cancel]
    exact List.take_of_length_le (by rw [List.length_cons, Store.length_load])
  have hlength : (0x00 :: c.cache.load column n).length ≤ 256 := by
    rw [List.length_cons, Store.length_load]
    omega
  rw [hexec, ioBuffer, List.take_of_length_le hlength, List.drop_one, List.tail_cons,
    List.take_of_length_le (Nat.le_of_eq (Store.length_load ..))]

/-- A page is read through the cache. -/
lemma nandRead_spec (c : NandChip) {row column len : ℕ} (hrow : row < rows)
    (hcolumn : column + len ≤ 2 ^ 16) :
    c.nandRead row column len =
      ((c.array row).load column len, { c with cache := c.array row }) := by
  have hlt : row % 256 ^ 3 % rows = row := by
    rw [rows] at hrow ⊢
    omega
  have hcache : (c.exec ⟨0x13, some (3, row), [], 0⟩).2 = { c with cache := c.array row } := by
    rw [exec]
    simp only [SpiOp.address?_self, hlt]
  rw [nandRead, hcache]
  refine Prod.ext ?_ rfl
  have hruns := Cut.flatMap_pieces_load (Cut.upTo 255 (by decide))
    (fun j => c.array row (column + j))
    (fun off n => ((ioBuffer (({ c with cache := c.array row } : NandChip).exec
      ⟨0x03, some (2, column + off), [], n + 1⟩).1).drop 1).take n) 0 len fun p hp => by
    obtain ⟨-, hpos, hle⟩ := Cut.mem_pieces _ hp
    rw [readRun_eq _ (by omega) (Cut.length_le_of_mem_upTo _ hp)]
    exact List.map_congr_left fun i _ => congrArg (c.array row) (Nat.add_assoc column p.1 i)
  refine hruns.trans ?_
  exact List.map_congr_left fun i _ => by rw [Nat.zero_add]

/-- The bytes of the chip, by address. -/
def flash (c : NandChip) : Store UInt8 := (FmcChip.nand c).flash

/-- Pages of the chip are read, and the array stays as it is. -/
lemma readPages_spec (ps : List (ℕ × ℕ)) (c : NandChip)
    (h : ∀ p ∈ ps, p.1 / nandPageSize < rows ∧ p.1 % nandPageSize + p.2 ≤ nandPageSize) :
    (c.readPages ps).1 = ps.flatMap (fun p => c.flash.load p.1 p.2) ∧
      ∃ cache, (c.readPages ps).2 = { c with cache := cache } := by
  induction ps generalizing c with
  | nil => exact ⟨rfl, c.cache, rfl⟩
  | cons p ps ih =>
      obtain ⟨⟨hrow, hpage⟩, hps⟩ := List.forall_mem_cons.mp h
      have hread := c.nandRead_spec hrow
        (Nat.le_trans hpage (by decide : nandPageSize ≤ 2 ^ 16))
      have hbytes : (c.array (p.1 / nandPageSize)).load (p.1 % nandPageSize) p.2 =
          c.flash.load p.1 p.2 := by
        refine List.map_congr_left fun i hi => ?_
        have hi := List.mem_range.mp hi
        have hdiv : (p.1 + i) / nandPageSize = p.1 / nandPageSize := by
          unfold nandPageSize at *
          omega
        have hmod : (p.1 + i) % nandPageSize = p.1 % nandPageSize + i := by
          unfold nandPageSize at *
          omega
        change _ = c.array ((p.1 + i) / nandPageSize) ((p.1 + i) % nandPageSize)
        rw [hdiv, hmod]
      obtain ⟨hrest, cache, hchip⟩ := ih { c with cache := c.array (p.1 / nandPageSize) } hps
      rw [readPages, hread]
      refine ⟨?_, cache, ?_⟩
      · rw [List.flatMap_cons, ← hbytes]
        exact congrArg _ hrest
      · exact hchip

/-- **A read reads its range.** -/
lemma flashRead_spec (c : NandChip) {addr len : ℕ} (h : addr + len ≤ rows * nandPageSize) :
    (c.flashRead addr len).1 = c.flash.load addr len ∧
      ∃ cache, (c.flashRead addr len).2 = { c with cache := cache } := by
  have hpages : ∀ p ∈ (Cut.within nandPageSize (by decide)).pieces addr len,
      p.1 / nandPageSize < rows ∧ p.1 % nandPageSize + p.2 ≤ nandPageSize := by
    intro p hp
    obtain ⟨-, hpos, hle⟩ := Cut.mem_pieces _ hp
    have hwithin := Cut.mem_pieces_within _ hp
    exact ⟨Nat.div_lt_of_lt_mul (by rw [Nat.mul_comm]; omega), hwithin⟩
  obtain ⟨hread, hchip⟩ := c.readPages_spec _ hpages
  refine ⟨?_, hchip⟩
  rw [flashRead, hread]
  exact Cut.flatMap_pieces_load _ c.flash (fun a n => c.flash.load a n) addr len fun p _ => rfl

/-- Two chips are the same but for what operations change. -/
def SameChip (c d : NandChip) : Prop := d.protect = c.protect ∧ d.jedecId = c.jedecId

lemma SameChip.trans {c d e : NandChip} (h : SameChip c d) (h' : SameChip d e) : SameChip c e :=
  ⟨h'.1.trans h.1, h'.2.trans h.2⟩

/-- Only `SET_FEATURE` changes the protection. -/
lemma exec_same (c : NandChip) {cmd n : ℕ} {addr : Option (ℕ × ℕ)} {data : List UInt8}
    (h : cmd ≠ 0x1F) : SameChip c (c.exec ⟨cmd, addr, data, n⟩).2 := by
  rw [exec]
  split
  · exact ⟨rfl, rfl⟩
  · exact ⟨rfl, rfl⟩
  · split
    · exact ⟨rfl, rfl⟩
    · exact ⟨rfl, rfl⟩
    · exact ⟨rfl, rfl⟩
  · rename_i hcmd
    exact absurd hcmd h
  · split
    · exact ⟨rfl, rfl⟩
    · exact ⟨rfl, rfl⟩
  · split
    · exact ⟨rfl, rfl⟩
    · exact ⟨rfl, rfl⟩
  · split
    · exact ⟨rfl, rfl⟩
    · exact ⟨rfl, rfl⟩
  · split
    · exact ⟨rfl, rfl⟩
    · exact ⟨rfl, rfl⟩
  · split
    · exact ⟨rfl, rfl⟩
    · split
      · exact ⟨rfl, rfl⟩
      · split
        · exact ⟨rfl, rfl⟩
        · exact ⟨rfl, rfl⟩
  · split
    · exact ⟨rfl, rfl⟩
    · split
      · exact ⟨rfl, rfl⟩
      · split
        · exact ⟨rfl, rfl⟩
        · exact ⟨rfl, rfl⟩
  · exact ⟨rfl, rfl⟩

lemma programLoads_same (c : NandChip) (column : ℕ) (data : List UInt8) :
    SameChip c (c.programLoads column data) := by
  rw [programLoads]
  generalize (Cut.upTo 256 (by decide)).pieces 0 data.length = ps
  induction ps generalizing c with
  | nil => exact ⟨rfl, rfl⟩
  | cons p ps ih =>
      refine SameChip.trans (c.exec_same ?_) (ih _)
      split
      · decide
      · decide

lemma nandProgramPage_same (c : NandChip) (row column : ℕ) (data : List UInt8) :
    SameChip c (c.nandProgramPage row column data).2 :=
  ((c.exec_same (by decide)).trans (programLoads_same _ column data)).trans
    (exec_same _ (by decide))

lemma nandEraseBlock_same (c : NandChip) (row : ℕ) : SameChip c (c.nandEraseBlock row).2 :=
  (c.exec_same (by decide)).trans (exec_same _ (by decide))

lemma readPages_same (c : NandChip) (ps : List (ℕ × ℕ)) : SameChip c (c.readPages ps).2 := by
  induction ps generalizing c with
  | nil => exact ⟨rfl, rfl⟩
  | cons p ps ih => exact (c.exec_same (by decide)).trans (ih _)

end NandChip

/-! ## Calls -/

namespace FmcChip

/-- A chip between two calls. -/
def Ready : FmcChip → Prop
  | nor c => c.Ready
  | nand c => c.Ready

/-- What every state after `flash_init` has. -/
structure Good (p : Probe) (lastSector : ℕ) (c : FmcChip) : Prop where
  id : c.jedecId = p.jedecId 0
  nand_iff : (∃ n, c = .nand n) ↔ nandIdentify (p.jedecId 0) = true
  ready : c.Ready
  last : ∀ n, c = .nor n → n.lastSector = lastSector

lemma nand_iff_of_nor {c d : NorChip} {q : Prop} (h : (∃ n, nor c = .nand n) ↔ q) :
    (∃ n, nor d = .nand n) ↔ q := by
  refine Iff.trans (iff_of_false ?_ ?_) h
  · rintro ⟨n, hn⟩
    cases hn
  · rintro ⟨n, hn⟩
    cases hn

lemma nand_iff_of_nand {c d : NandChip} {q : Prop} (h : (∃ n, nand c = .nand n) ↔ q) :
    (∃ n, nand d = .nand n) ↔ q :=
  Iff.trans (iff_of_true ⟨d, rfl⟩ ⟨c, rfl⟩) h

lemma last_of_nor {c d : NorChip} {lastSector : ℕ} (h : c.lastSector = lastSector)
    (hsame : d.lastSector = c.lastSector) : ∀ n, nor d = .nor n → n.lastSector = lastSector := by
  rintro n hn
  cases hn
  exact hsame.trans h

lemma last_of_nand {d : NandChip} {lastSector : ℕ} :
    ∀ n, nand d = .nor n → n.lastSector = lastSector := by
  rintro n hn
  cases hn

/-- `flash_init` makes a chip ready. -/
lemma good_flashInit {p : Probe} {lastSector : ℕ} {c : FmcChip} (h : c.Answers p lastSector) :
    Good p lastSector c.flashInit := by
  obtain ⟨hid, hnand, hbytes, hlast⟩ := h
  cases c with
  | nor c =>
      obtain ⟨hthree, hear⟩ := hbytes c rfl
      refine ⟨?_, nand_iff_of_nor hnand, NorChip.ready_flashGlobalUnlock hthree hear, ?_⟩
      · rw [← hid]
        simp only [flashInit, jedecId]
        rw [NorChip.flashGlobalUnlock_eq]
      · refine last_of_nor (hlast c rfl) ?_
        rw [NorChip.flashGlobalUnlock_eq]
  | nand c => exact ⟨hid, nand_iff_of_nand hnand, rfl, last_of_nand⟩

/-- **A call leaves the chip ready.** -/
lemma Good.after {p : Probe} {lastSector : ℕ} {c : FmcChip} (h : Good p lastSector c)
    (f : FlashCall) : Good p lastSector (c.after f) := by
  obtain ⟨hid, hnand, hready, hlast⟩ := h
  cases c with
  | nor c =>
      have hready : c.Ready := hready
      cases f with
      | read addr len => exact ⟨hid, hnand, hready, hlast⟩
      | erase addr =>
          refine ⟨?_, nand_iff_of_nor hnand, ?_, ?_⟩
          · simp only [FmcChip.after, FmcChip.flashEraseSector, hready.flashEraseSector_eq]
            exact hid
          · simp only [FmcChip.after, FmcChip.flashEraseSector, hready.flashEraseSector_eq]
            exact hready.after_cells _ _
          · refine last_of_nor (hlast c rfl) ?_
            rw [hready.flashEraseSector_eq]
      | write addr data =>
          refine ⟨?_, nand_iff_of_nor hnand, ?_, ?_⟩
          · simp only [FmcChip.after, FmcChip.flashWritePage, hready.flashWritePage_eq]
            exact hid
          · simp only [FmcChip.after, FmcChip.flashWritePage, hready.flashWritePage_eq]
            exact hready.after_cells _ _
          · refine last_of_nor (hlast c rfl) ?_
            rw [hready.flashWritePage_eq]
  | nand c =>
      have hsame : ∀ d : NandChip, NandChip.SameChip c d → Good p lastSector (nand d) := fun d hd =>
        ⟨hd.2.trans hid, nand_iff_of_nand hnand, hd.1.trans hready, last_of_nand⟩
      cases f with
      | read addr len => exact hsame _ (c.readPages_same _)
      | erase addr => exact hsame _ (c.nandEraseBlock_same _)
      | write addr data => exact hsame _ (c.nandProgramPage_same _ _ _)

/-- **Every state after `flash_init` is ready.** -/
lemma Reached.good {p : Probe} {lastSector : ℕ} {c : FmcChip} (h : Reached p lastSector c) :
    Good p lastSector c := by
  induction h with
  | init c h => exact good_flashInit h
  | call c f h ih => exact ih.after f

/-! ### What a call does to the bytes -/

lemma nor_of_good {p : Probe} {lastSector : ℕ} {c : FmcChip} (h : Good p lastSector c)
    (hnor : nandIdentify (p.jedecId 0) = false) :
    ∃ n, c = nor n ∧ n.Ready ∧ n.lastSector = lastSector := by
  obtain ⟨hid, hnand, hready, hlast⟩ := h
  cases c with
  | nor n => exact ⟨n, rfl, hready, hlast n rfl⟩
  | nand n =>
      rw [hnand.mp ⟨n, rfl⟩] at hnor
      cases hnor

lemma nand_of_good {p : Probe} {lastSector : ℕ} {c : FmcChip} (h : Good p lastSector c)
    (hnand : nandIdentify (p.jedecId 0) = true) : ∃ n, c = nand n ∧ n.Ready := by
  obtain ⟨n, rfl⟩ := h.nand_iff.mpr hnand
  exact ⟨n, rfl, h.ready⟩

/-- An erase of the NAND. -/
lemma flash_erase_nand {c : NandChip} (h : c.Ready) {addr : ℕ}
    (haddr : addr < NandChip.rows * nandPageSize) :
    ((nand c).flashEraseSector addr).2.flash =
      FlashCells.erase (64 * nandPageSize) (nand c).flash addr := by
  have hrow : addr / nandPageSize < NandChip.rows :=
    Nat.div_lt_of_lt_mul (by rwa [Nat.mul_comm])
  funext a
  simp only [flashEraseSector, h.nandEraseBlock_eq hrow, flash, NandChip.eraseBlock,
    FlashCells.erase, Nat.div_div_eq_div_mul, Nat.mul_comm 64 nandPageSize]
  split
  · rfl
  · rfl

/-- A program of the NAND, of one byte at least. -/
lemma flash_write_nand {c : NandChip} (h : c.Ready) {addr : ℕ} {data : List UInt8}
    (haddr : addr < NandChip.rows * nandPageSize) (hne : data ≠ []) :
    ((nand c).flashWritePage addr data).2.flash =
      FlashCells.program (nand c).flash addr
        (data.take (nandPageSize - addr % nandPageSize)) := by
  have hrow : addr / nandPageSize < NandChip.rows :=
    Nat.div_lt_of_lt_mul (by rwa [Nat.mul_comm])
  have hcolumn : addr % nandPageSize < nandPageSize := Nat.mod_lt _ (by decide)
  have hlength := List.length_take_le (nandPageSize - addr % nandPageSize) data
  generalize hkept : data.take (nandPageSize - addr % nandPageSize) = kept at hlength
  have hkept_ne : kept ≠ [] := by
    rw [← hkept]
    intro hnil
    rcases List.take_eq_nil_iff.mp hnil with hzero | hnil
    · omega
    · exact hne hnil
  have hloads : c.writeEnable.programLoads (addr % nandPageSize) kept = _ :=
    c.writeEnable.programLoads_eq (by unfold nandPageSize at *; omega) hkept_ne
  funext a
  simp only [flashWritePage, NandChip.flashWritePage, hkept,
    h.nandProgramPage_eq hrow _ _ hloads rfl rfl, flash, NandChip.programRow]
  by_cases hpage : a / nandPageSize = addr / nandPageSize
  · rw [if_pos hpage]
    by_cases ha : addr ≤ a
    · have hoffset : a % nandPageSize - addr % nandPageSize = a - addr := by
        unfold nandPageSize at *
        omega
      have hle : addr % nandPageSize ≤ a % nandPageSize := by
        unfold nandPageSize at *
        omega
      rw [FlashCells.program, if_pos ha]
      simp only [Store.write, if_pos hle, hoffset]
      rfl
    · have hlt : ¬ addr % nandPageSize ≤ a % nandPageSize := by
        unfold nandPageSize at *
        omega
      rw [FlashCells.program_apply_of_not_mem (.inl (by omega))]
      simp only [Store.write, if_neg hlt]
      exact FlashCells.and_erased _
  · rw [if_neg hpage, FlashCells.program_apply_of_not_mem]
    · rfl
    · unfold nandPageSize at *
      omega

/-- A program of no bytes commits what the cache of the NAND holds. -/
lemma flash_write_nand_nil {c : NandChip} (h : c.Ready) {addr : ℕ}
    (haddr : addr < NandChip.rows * nandPageSize) :
    ((nand c).flashWritePage addr []).2.flash addr =
      (nand c).flash addr &&& c.cache (addr % nandPageSize) := by
  have hrow : addr / nandPageSize < NandChip.rows :=
    Nat.div_lt_of_lt_mul (by rwa [Nat.mul_comm])
  simp only [flashWritePage, NandChip.flashWritePage, List.take_nil,
    h.nandProgramPage_eq hrow _ _ (NandChip.programLoads_nil _ _) rfl rfl, flash,
    NandChip.programRow, if_pos]
  rfl

end FmcChip

/-! ## Exactness -/

/-- A call, by the range that it is about. -/
inductive RangeCall
  | read (addr len : ℕ)
  | erase (addr : ℕ)
  | write (addr len : ℕ)

namespace RangeCall

/-- The call stays inside the flash, and a program inside one page. -/
def Legal (info : FlashInfo) : RangeCall → Prop
  | read addr len => addr + len ≤ info.size
  | erase addr => addr < info.size
  | write addr len => addr < info.size ∧ addr % info.pageSize + len ≤ info.pageSize

/-- In every state after `flash_init` the call does what it is asked for, and nothing else. -/
def Exact (p : Probe) (lastSector : ℕ) (info : FlashInfo) : RangeCall → Prop
  | read addr len => ∀ c, FmcChip.Reached p lastSector c →
      (c.flashRead addr len).1 = c.flash.load addr len
  | erase addr => ∀ c, FmcChip.Reached p lastSector c → ∀ a < c.size,
      (c.flashEraseSector addr).2.flash a = FlashCells.erase info.sectorSize c.flash addr a
  | write addr len => ∀ c, FmcChip.Reached p lastSector c → ∀ data, data.length = len →
      ∀ a < c.size, (c.flashWritePage addr data).2.flash a = FlashCells.program c.flash addr data a

/-- The three address bytes of the driver say what a call is about: on the NAND for every call that
moves a byte, on a NOR as far as they reach. -/
def Addressable (p : Probe) (lastSector : ℕ) : RangeCall → Prop
  | read addr len =>
      nandIdentify (p.jedecId 0) = true ∨ len = 0 ∨ addr + len ≤ norReach lastSector
  | erase addr => nandIdentify (p.jedecId 0) = true ∨ addr < norReach lastSector
  | write addr len =>
      if nandIdentify (p.jedecId 0) = true then 0 < len
      else len = 0 ∨ addr < norReach lastSector

end RangeCall

section Exactness

open FmcChip

variable {p : Probe} {lastSector : ℕ}

/-- A NOR with given bytes, as `flash_init` may find it. -/
def freshNor (p : Probe) (lastSector : ℕ) (cells : Store UInt8) : FmcChip :=
  .nor ⟨p.jedecId 0, cells, false, 0, 0, 0, false, 3, false, lastSector⟩

/-- A NAND with given bytes in its array and its cache. -/
def freshNand (p : Probe) (array : ℕ → Store UInt8) (cache : Store UInt8) : FmcChip :=
  .nand ⟨p.jedecId 0, array, cache, false, 0x38, false, false⟩

lemma exists_reached_nor (hnor : nandIdentify (p.jedecId 0) = false) (lastSector : ℕ)
    (cells : Store UInt8) :
    ∃ n : NorChip, Reached p lastSector (.nor n) ∧ n.Ready ∧ n.lastSector = lastSector ∧
      n.cells = cells := by
  have hanswers : (freshNor p lastSector cells).Answers p lastSector := by
    refine ⟨rfl, iff_of_false ?_ (by rw [hnor]; decide), ?_, last_of_nor rfl rfl⟩
    · rintro ⟨n, hn⟩
      cases hn
    · intro n hn
      cases hn
      exact ⟨rfl, rfl⟩
  have hreached := Reached.init _ hanswers
  obtain ⟨n, hn, hready, hlast⟩ := nor_of_good hreached.good hnor
  refine ⟨n, hn ▸ hreached, hready, hlast, ?_⟩
  simp only [freshNor, flashInit, nor.injEq] at hn
  rw [← hn, NorChip.flashGlobalUnlock_eq]

lemma exists_reached_nand (hnand : nandIdentify (p.jedecId 0) = true) (lastSector : ℕ)
    (array : ℕ → Store UInt8) (cache : Store UInt8) :
    ∃ n : NandChip, Reached p lastSector (.nand n) ∧ n.Ready ∧ n.array = array ∧
      n.cache = cache := by
  have hanswers : (freshNand p array cache).Answers p lastSector := by
    refine ⟨rfl, iff_of_true ⟨_, rfl⟩ hnand, ?_, last_of_nand⟩
    intro n hn
    cases hn
  exact ⟨_, Reached.init _ hanswers, rfl, rfl, rfl⟩

/-- **Calls to the NAND.** -/
lemma exact_iff_nand (hnand : nandIdentify (p.jedecId 0) = true) {call : RangeCall}
    (hlegal : call.Legal nandInfo) :
    call.Exact p lastSector nandInfo ↔ call.Addressable p lastSector := by
  have hsize : nandInfo.size = NandChip.rows * nandPageSize := rfl
  cases call with
  | read addr len =>
      refine iff_of_true (fun c hc => ?_) (.inl hnand)
      obtain ⟨n, rfl, -⟩ := nand_of_good hc.good hnand
      exact (n.flashRead_spec hlegal).1
  | erase addr =>
      refine iff_of_true (fun c hc a _ => ?_) (.inl hnand)
      obtain ⟨n, rfl, hready⟩ := nand_of_good hc.good hnand
      rw [flash_erase_nand hready hlegal]
      rfl
  | write addr len =>
      obtain ⟨haddr, hpage⟩ := hlegal
      rw [RangeCall.Addressable, if_pos hnand]
      constructor
      · intro h
        -- a cache of zeros would clear the page
        by_contra hlen
        obtain ⟨n, hreached, hready, harray, hcache⟩ :=
          exists_reached_nand hnand lastSector (fun _ _ => 0xFF) fun _ => 0
        have hexact := h _ hreached [] (by rw [List.length_nil]; omega) addr haddr
        rw [flash_write_nand_nil hready haddr, FlashCells.program_nil, hcache] at hexact
        simp only [flash, harray] at hexact
        exact absurd hexact (by decide)
      · intro hlen c hc data hdata a _
        obtain ⟨n, rfl, hready⟩ := nand_of_good hc.good hnand
        have hne : data ≠ [] := by
          rintro rfl
          exact absurd hdata (Nat.ne_of_lt hlen)
        have htake : data.take (nandPageSize - addr % nandPageSize) = data := by
          refine List.take_of_length_le ?_
          have hpage : addr % nandPageSize + len ≤ nandPageSize := hpage
          omega
        rw [flash_write_nand hready haddr hne, htake]

/-- **Calls to a NOR.** -/
lemma exact_iff_nor (hnor : nandIdentify (p.jedecId 0) = false) {call : RangeCall}
    (hlegal : call.Legal (norInfo (p.jedecId 0).2.2)) :
    call.Exact p lastSector (norInfo (p.jedecId 0).2.2) ↔ call.Addressable p lastSector := by
  have hnot : ¬ nandIdentify (p.jedecId 0) = true := by
    rw [hnor]
    decide
  cases call with
  | read addr len =>
      rw [RangeCall.Addressable, or_iff_right hnot]
      constructor
      · intro h
        by_contra hfar
        rw [not_or] at hfar
        -- the last byte of the range is read from below the reach
        obtain ⟨n, hreached, hready, hlast, hcells⟩ :=
          exists_reached_nor hnor lastSector fun a => if a < norReach lastSector then 0 else 1
        have hexact : n.flashRead addr len = n.cells.load addr len := h _ hreached
        rw [hready.flashRead_eq] at hexact
        have hbyte := Store.load_eq_load_iff.mp hexact (len - 1) (by omega)
        have hplace := n.place_lt (addr + (len - 1))
        rw [hlast] at hplace
        rw [hcells] at hbyte
        simp only [if_pos hplace,
          if_neg (show ¬ addr + (len - 1) < norReach lastSector by omega)] at hbyte
        exact absurd hbyte (by decide)
      · intro hnear c hc
        obtain ⟨n, rfl, hready, hlast⟩ := nor_of_good hc.good hnor
        change n.flashRead addr len = n.cells.load addr len
        rw [hready.flashRead_eq]
        refine Store.load_congr fun i hi hlt => ?_
        rw [NorChip.place_of_lt (by rw [hlast]; omega)]
  | erase addr =>
      rw [RangeCall.Addressable, or_iff_right hnot]
      constructor
      · intro h
        by_contra hfar
        obtain ⟨n, hreached, hready, hlast, hcells⟩ := exists_reached_nor hnor lastSector fun _ => 0
        have hplace := n.place_lt addr
        -- the sector that is erased is another one
        have hexact := h _ hreached (n.place addr) (hplace.trans_le n.norReach_le_size)
        rw [hlast] at hplace
        have hsector := sector_lt_of_norReach hplace (not_lt.mp hfar)
        simp only [flashEraseSector, hready.flashEraseSector_eq, flash, NorChip.eraseAt_eq_erase]
          at hexact
        have hkept : FlashCells.erase 0x10000 n.cells addr (n.place addr) = 0 := by
          rw [FlashCells.erase_apply_of_ne _ (Nat.ne_of_lt hsector), hcells]
        rw [FlashCells.erase_apply_self] at hexact
        replace hexact := hexact.trans hkept
        exact absurd hexact (by decide : (0xFF : UInt8) ≠ 0)
      · intro hnear c hc a _
        obtain ⟨n, rfl, hready, hlast⟩ := nor_of_good hc.good hnor
        simp only [flashEraseSector, hready.flashEraseSector_eq, flash, NorChip.eraseAt_eq_erase]
        rw [NorChip.place_of_lt (by rw [hlast]; exact hnear)]
        rfl
  | write addr len =>
      obtain ⟨haddr, hpage⟩ := hlegal
      have hpage : addr % 256 + len ≤ 256 := hpage
      rw [RangeCall.Addressable, if_neg hnot]
      constructor
      · intro h
        by_contra hfar
        rw [not_or] at hfar
        obtain ⟨n, hreached, hready, hlast, hcells⟩ :=
          exists_reached_nor hnor lastSector fun _ => 0xFF
        have hplace := n.place_lt addr
        -- the cell that is programmed is another one
        have hexact := h _ hreached (List.replicate len 0) List.length_replicate (n.place addr)
          (hplace.trans_le n.norReach_le_size)
        rw [hlast] at hplace
        have hkept : FlashCells.program (nor n).flash addr (List.replicate len 0) (n.place addr) =
            0xFF := by
          rw [FlashCells.program_apply_of_not_mem (.inl (by omega))]
          simp only [flash, hcells]
        have htake : (List.replicate len (0 : UInt8)).take 256 = List.replicate len 0 := by
          rw [List.take_of_length_le (by rw [List.length_replicate]; omega)]
        rw [hkept] at hexact
        simp only [flashWritePage, hready.flashWritePage_eq, flash, NorChip.programAt, htake]
          at hexact
        rw [if_pos trivial, Nat.add_sub_cancel_left, Nat.mod_self, hcells,
          List.getD_eq_getElem _ _ (by rw [List.length_replicate]; omega),
          List.getElem_replicate] at hexact
        exact absurd hexact (by decide : (0xFF &&& 0 : UInt8) ≠ 0xFF)
      · intro hnear c hc data hdata a _
        obtain ⟨n, rfl, hready, hlast⟩ := nor_of_good hc.good hnor
        rw [← hdata] at hpage
        simp only [flashWritePage, hready.flashWritePage_eq, flash,
          List.take_of_length_le (show data.length ≤ 256 by omega)]
        rcases hnear with hzero | hnear
        · rw [List.length_eq_zero_iff.mp (hdata.trans hzero), FlashCells.program_nil,
            NorChip.programAt_eq_program, FlashCells.program_nil]
          rw [List.length_nil]
          omega
        · rw [NorChip.place_of_lt (by rw [hlast]; exact hnear), NorChip.programAt_eq_program hpage]

end Exactness

/-- **Exactness of the driver**: a call inside the flash does what it is asked for, in every state
after `flash_init`, exactly when the address bytes of the driver can say it, and a NOR has the
cells. -/
theorem fmc_exact_iff (p : Probe) (h : (flashInitFmc100 p).2 = true) (lastSector : ℕ)
    (call : RangeCall) (hlegal : call.Legal (flashInitFmc100 p).1) :
    call.Exact p lastSector (flashInitFmc100 p).1 ↔ call.Addressable p lastSector := by
  rw [flashInitFmc100] at h hlegal ⊢
  by_cases hversion : p.version ≠ 0x100
  · rw [if_pos hversion] at h
    cases h
  rw [if_neg hversion] at hlegal ⊢
  cases hnand : nandIdentify (p.jedecId 0) with
  | true =>
      rw [if_pos hnand] at hlegal ⊢
      exact exact_iff_nand hnand hlegal
  | false =>
      rw [if_neg (by rw [hnand]; decide)] at hlegal ⊢
      exact exact_iff_nor hnand hlegal

/-- A probe that finds a NOR of 32 MiB. -/
def largeNorProbe : Probe := ⟨0x100, fun _ => (0xEF, 0x40, 0x19), none⟩

/-- A probe that finds a NOR of 512 KiB, which is reported as one of 16 MiB. -/
def smallNorProbe : Probe := ⟨0x100, fun _ => (0xEF, 0x40, 0x13), none⟩

/-- The last sector below 16 MiB is erased exactly on the large NOR, and a page behind the last
sector of the small one is not read. -/
theorem fmc_exact_near_reach :
    (RangeCall.erase 0xFF0000).Exact largeNorProbe 511 (flashInitFmc100 largeNorProbe).1 ∧
      ¬ (RangeCall.read 0x80000 256).Exact smallNorProbe 7 (flashInitFmc100 smallNorProbe).1 := by
  have hlarge := fmc_exact_iff largeNorProbe rfl 511 (.erase 0xFF0000)
    (by decide : 0xFF0000 < (flashInitFmc100 largeNorProbe).1.size)
  have hsmall := fmc_exact_iff smallNorProbe rfl 7 (.read 0x80000 256)
    (by decide : 0x80000 + 256 ≤ (flashInitFmc100 smallNorProbe).1.size)
  refine ⟨hlarge.mpr (.inr (by decide : 0xFF0000 < norReach 511)), fun h => ?_⟩
  rcases hsmall.mp h with hnand | hempty | hreached
  · exact absurd hnand (by decide)
  · exact absurd hempty (by decide)
  · exact absurd hreached (by decide : ¬ 0x80000 + 256 ≤ norReach 7)

/-- The sector at 16 MiB is not: sector 0 is erased in its place. -/
theorem fmc_erases_low_sector :
    (flashInitFmc100 largeNorProbe).2 = true ∧
      (RangeCall.erase 0x1000000).Legal (flashInitFmc100 largeNorProbe).1 ∧
      (∃ c, FmcChip.Reached largeNorProbe 511 c ∧ c.flash = (fun _ => 0) ∧
        (c.flashEraseSector 0x1000000).2.flash 0x1000000 = 0 ∧
        (c.flashEraseSector 0x1000000).2.flash 0 = 0xFF) ∧
      ¬ (RangeCall.erase 0x1000000).Exact largeNorProbe 511 (flashInitFmc100 largeNorProbe).1 := by
  have hlegal : (RangeCall.erase 0x1000000).Legal (flashInitFmc100 largeNorProbe).1 :=
    (by decide : 0x1000000 < (flashInitFmc100 largeNorProbe).1.size)
  have hnor : nandIdentify (largeNorProbe.jedecId 0) = false := rfl
  refine ⟨rfl, hlegal, ?_, fun h => ?_⟩
  · obtain ⟨n, hreached, hready, hlast, hcells⟩ := exists_reached_nor hnor 511 fun _ => 0
    have hplace : n.place 0x1000000 = 0 := Nat.zero_mod _
    have hflash : ((FmcChip.nor n).flashEraseSector 0x1000000).2.flash =
        FlashCells.erase 0x10000 (fun _ => 0) 0 := by
      simp only [FmcChip.flashEraseSector, hready.flashEraseSector_eq, FmcChip.flash,
        NorChip.eraseAt_eq_erase, hplace, hcells]
    exact ⟨.nor n, hreached, hcells, by rw [hflash]; rfl, by rw [hflash]; rfl⟩
  · rcases (exact_iff_nor hnor hlegal).mp h with hnand | hfar
    · exact Bool.false_ne_true hnand
    · exact absurd hfar (by decide : ¬ 0x1000000 < norReach 511)

end Defib
