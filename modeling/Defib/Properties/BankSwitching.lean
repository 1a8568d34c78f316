import Defib.Agent.Hisfc350
import Defib.Framework.FlashCells

/-!
# The bank that the HISFC350 driver remembers

`flash_select_bank` trusts `current_bank`, and only `flash_select_bank` writes it.  `Banked` says
what every state after `flash_init` keeps on a chip of 32 MiB: the modes that `flash_init` sets, and
that `current_bank` is the bank of the chip.  A read is then exact, as each of its chunks lies in
the bank that is selected for it, and the checksum is that of the read.

On such a state the driver does what the model of its reads alone says (`flashRead_eq_model`).
-/

namespace Defib

namespace Hisfc350

/-- What every state after `flash_init` keeps, on a chip of 32 MiB. -/
structure Banked (s : Hisfc350) : Prop where
  needed : s.needsBankSwitch = true
  three_sent : s.addrMode4B = false
  three_taken : s.chip.addrBytes = 3
  reads : s.readEn = true ∧ s.readIns = 0x03
  selected : s.activeCs = s.populated
  size : s.chip.size = 2 ^ 25
  cached : s.currentBank = s.chip.ear.toNat

variable {s : Hisfc350}

/-! ## Commands -/

lemma command_of_selected (h : s.activeCs = s.populated) (cmd : ℕ) (addr : Option ℕ)
    (data : List UInt8) (read : ℕ) :
    s.command s.activeCs cmd addr data read =
      ((s.chip.exec ⟨cmd, addr.map fun a => (s.addrBytes, a), data, read⟩).1,
        { s with chip := (s.chip.exec ⟨cmd, addr.map fun a => (s.addrBytes, a), data, read⟩).2 }) :=
  if_pos h

lemma writeEnable_of_selected (h : s.activeCs = s.populated) :
    s.writeEnable = { s with chip := { s.chip with wel := true } } := by
  rw [writeEnable, command_of_selected h]
  rfl

/-- A state with another write enable latch and another first status register, which no read looks
at. -/
def withStatus (s : Hisfc350) (sr1 : UInt8) (wel : Bool) : Hisfc350 :=
  { s with chip := { s.chip with sr1 := sr1, wel := wel } }

lemma Banked.withStatus (h : s.Banked) (sr1 : UInt8) (wel : Bool) : (s.withStatus sr1 wel).Banked :=
  ⟨h.needed, h.three_sent, h.three_taken, h.reads, h.selected, h.size, h.cached⟩

lemma Banked.writeEnable_eq (h : s.Banked) : s.writeEnable = s.withStatus s.chip.sr1 true :=
  writeEnable_of_selected h.selected

/-- Unlocking leaves everything but the status alone. -/
lemma Banked.flashUnlock_eq (h : s.Banked) : ∃ sr1 wel, s.flashUnlock = s.withStatus sr1 wel := by
  rw [flashUnlock]
  split
  · exact ⟨s.chip.sr1, s.chip.wel, rfl⟩
  · have hselected : s.writeEnable.activeCs = s.writeEnable.populated := by
      rw [h.writeEnable_eq]
      exact h.selected
    have hactive : s.activeCs = s.writeEnable.activeCs := by
      rw [h.writeEnable_eq]
      rfl
    rw [hactive, command_of_selected hselected, h.writeEnable_eq]
    exact ⟨_, false, rfl⟩

/-- **Selecting a bank** brings the register of the chip and `current_bank` there together. -/
lemma flashSelectBank_eq (hneeded : s.needsBankSwitch = true) (hselected : s.activeCs = s.populated)
    {bank : ℕ} (hbank : bank ≠ s.currentBank) :
    s.flashSelectBank bank =
      { s with
        chip := { s.chip with ear := decide (bank ≠ 0), wel := false }
        currentBank := bank } := by
  have hnot : ¬ (s.needsBankSwitch = false ∨ bank = s.currentBank) := by
    rw [not_or]
    refine ⟨?_, hbank⟩
    rw [hneeded]
    decide
  have hselected' : s.writeEnable.activeCs = s.writeEnable.populated := by
    rw [writeEnable_of_selected hselected]
    exact hselected
  have hactive : s.activeCs = s.writeEnable.activeCs := by
    rw [writeEnable_of_selected hselected]
  rw [flashSelectBank, if_neg hnot, hactive, command_of_selected hselected',
    writeEnable_of_selected hselected]
  have hbit : (if bank ≠ 0 then (0x01 : UInt8) else 0x00).toNat.testBit 0 = decide (bank ≠ 0) := by
    by_cases hzero : bank = 0
    · rw [if_neg (not_not_intro hzero), decide_eq_false (not_not_intro hzero)]
      decide
    · rw [if_pos hzero, decide_eq_true hzero]
      decide
  rw [← hbit]
  rfl

/-- What selecting a bank keeps. -/
lemma Banked.flashSelectBank (h : s.Banked) {bank : ℕ} (hbank : bank ≤ 1) :
    (s.flashSelectBank bank).Banked ∧ (s.flashSelectBank bank).currentBank = bank ∧
      (s.flashSelectBank bank).chip.cells = s.chip.cells := by
  by_cases hsame : bank = s.currentBank
  · rw [Hisfc350.flashSelectBank, if_pos (.inr hsame)]
    exact ⟨h, hsame.symm, rfl⟩
  · rw [flashSelectBank_eq h.needed h.selected hsame]
    refine ⟨⟨h.needed, h.three_sent, h.three_taken, h.reads, h.selected, h.size, ?_⟩, rfl, rfl⟩
    rcases Nat.le_one_iff_eq_zero_or_eq_one.mp hbank with rfl | rfl
    · rfl
    · rfl

lemma bankOf_le (addr : ℕ) : bankOf addr ≤ 1 := by
  rw [bankOf]
  split
  · exact Nat.le_refl 1
  · exact Nat.zero_le 1

/-! ## Reads -/

/-- **The window shows the selected bank.** -/
lemma Banked.window_eq (h : s.Banked) {off n : ℕ} (hoff : off + n ≤ 2 ^ 24) :
    s.window off n = s.chip.cells.load (s.currentBank * 2 ^ 24 + off) n := by
  have hbytes : s.addrBytes = 3 := by
    rw [addrBytes, h.three_sent]
    rfl
  rw [window, if_pos h.reads.1, h.reads.2, hbytes, NorChip.exec_read h.three_taken.symm]
  refine List.map_congr_left fun i hi => ?_
  have hi := List.mem_range.mp hi
  have hear : s.chip.ear.toNat ≤ 1 := Bool.toNat_le s.chip.ear
  rw [NorChip.resolve, if_pos h.three_taken, h.size, h.cached]
  congr 1
  omega

/-- A chunk in one bank is read where it lies. -/
lemma Banked.window_chunk (h : s.Banked) {p : ℕ × ℕ} (hin : p.1 % 2 ^ 24 + p.2 ≤ 2 ^ 24)
    (hend : p.1 + p.2 ≤ 2 ^ 25) (hpos : 0 < p.2) (hbank : s.currentBank = bankOf p.1) :
    s.window (p.1 % 2 ^ 24) p.2 = s.chip.cells.load p.1 p.2 := by
  rw [h.window_eq hin, hbank, bankOf]
  congr 1
  split
  · omega
  · omega

/-- **A walk visits the cells of its chunks**, bank by bank. -/
lemma Banked.flashWalkBanked {σ : Type} (step : σ → List UInt8 → σ) (ps : List (ℕ × ℕ))
    (hps : ∀ p ∈ ps, p.1 % 2 ^ 24 + p.2 ≤ 2 ^ 24 ∧ p.1 + p.2 ≤ 2 ^ 25 ∧ 0 < p.2) (ctx : σ)
    (h : s.Banked) :
    (flashWalkBanked step ps ctx s).1 =
        ps.foldl (fun ctx p => step ctx (s.chip.cells.load p.1 p.2)) ctx := by
  induction ps generalizing ctx s with
  | nil => rfl
  | cons p ps ih =>
      obtain ⟨⟨hin, hend, hpos⟩, hps⟩ := List.forall_mem_cons.mp hps
      obtain ⟨hbanked, hbank, hcells⟩ := h.flashSelectBank (bankOf_le p.1)
      rw [Hisfc350.flashWalkBanked, List.foldl_cons]
      rw [ih hps _ hbanked, hbanked.window_chunk hin hend hpos hbank, hcells]

/-- A walk leaves the cells alone, wherever it goes. -/
lemma Banked.after_walk {σ : Type} (step : σ → List UInt8 → σ) (ps : List (ℕ × ℕ)) (ctx : σ)
    (h : s.Banked) :
    (Hisfc350.flashWalkBanked step ps ctx s).2.Banked ∧
      (Hisfc350.flashWalkBanked step ps ctx s).2.chip.cells = s.chip.cells := by
  induction ps generalizing ctx s with
  | nil => exact ⟨h, rfl⟩
  | cons p ps ih =>
      obtain ⟨hbanked, -, hcells⟩ := h.flashSelectBank (bankOf_le p.1)
      have hrest :=
        ih (step ctx ((s.flashSelectBank (bankOf p.1)).window (p.1 % 2 ^ 24) p.2)) hbanked
      rw [hcells] at hrest
      exact hrest

lemma mem_bankChunks {addr len : ℕ} (h : addr + len ≤ 2 ^ 25) :
    ∀ p ∈ bankChunks addr len, p.1 % 2 ^ 24 + p.2 ≤ 2 ^ 24 ∧ p.1 + p.2 ≤ 2 ^ 25 ∧ 0 < p.2 := by
  intro p hp
  obtain ⟨-, hpos, hend⟩ := Cut.mem_pieces _ hp
  exact ⟨Cut.mem_pieces_within _ hp, by omega, hpos⟩

/-- **`flash_read` returns the addressed bytes.** -/
lemma Banked.flashRead_eq (h : s.Banked) {addr len : ℕ} (hrange : addr + len ≤ 2 ^ 25) :
    (s.flashRead addr len).1 = s.chip.cells.load addr len := by
  rw [flashRead, if_pos h.needed, h.flashWalkBanked _ _ (mem_bankChunks hrange),
    ← List.flatMap_eq_foldl]
  exact Cut.flatMap_pieces_load _ s.chip.cells s.chip.cells.load addr len fun _ _ => rfl

/-- **`flash_crc32` returns the checksum of the addressed bytes.** -/
lemma Banked.flashCrc32_eq (h : s.Banked) {addr len : ℕ} (hrange : addr + len ≤ 2 ^ 25) :
    (s.flashCrc32 addr len).1 = zlibCrc32 (s.chip.cells.load addr len) := by
  rw [flashCrc32, if_pos h.needed, h.flashWalkBanked _ _ (mem_bankChunks hrange),
    foldl_crc32 (fun p => s.chip.cells.load p.1 p.2), ← crc32_zero]
  congr 1
  exact Cut.flatMap_pieces_load _ s.chip.cells s.chip.cells.load addr len fun _ _ => rfl

/-- In range, the driver reads what the model of its reads alone says. -/
lemma Banked.flashRead_eq_model {b : Board} {m : Machine} (h : s.Banked)
    (hneeded : Defib.needsBankSwitch b = true) (hcells : m.flash = s.chip.cells) {addr len : ℕ}
    (hrange : addr + len ≤ 2 ^ 25) : (s.flashRead addr len).1 = flashReadHisfc350 b m addr len := by
  rw [h.flashRead_eq hrange, flashReadHisfc350_eq, if_pos hneeded, hcells]
  refine Store.load_congr fun a _ ha => ?_
  congr 1
  split
  · omega
  · omega

lemma Banked.after_read (h : s.Banked) (addr len : ℕ) :
    (s.flashRead addr len).2.Banked ∧ (s.flashRead addr len).2.chip.cells = s.chip.cells := by
  rw [flashRead, if_pos h.needed]
  exact h.after_walk _ _ _

lemma Banked.after_crc32 (h : s.Banked) (addr len : ℕ) :
    (s.flashCrc32 addr len).2.Banked ∧ (s.flashCrc32 addr len).2.chip.cells = s.chip.cells := by
  rw [flashCrc32, if_pos h.needed]
  exact h.after_walk _ _ _

/-! ## Erases and programs -/

/-- A state with other cells. -/
def withCells (s : Hisfc350) (cells : Store UInt8) (wel : Bool) : Hisfc350 :=
  { s with chip := { s.chip with cells := cells, wel := wel } }

lemma Banked.withCells (h : s.Banked) (cells : Store UInt8) (wel : Bool) :
    (s.withCells cells wel).Banked :=
  ⟨h.needed, h.three_sent, h.three_taken, h.reads, h.selected, h.size, h.cached⟩

/-- A chip takes new cells, or leaves them as they are. -/
lemma exists_latched (c : NorChip) (cells : Store UInt8) :
    ∃ cells' wel, c.latched (if c.locked then c else { c with cells := cells }) =
      { c with cells := cells', wel := wel } ∧ (cells' = c.cells ∨ cells' = cells) := by
  rw [NorChip.latched]
  split
  · split
    · exact ⟨c.cells, false, rfl, .inl rfl⟩
    · exact ⟨cells, false, rfl, .inr rfl⟩
  · exact ⟨c.cells, c.wel, rfl, .inl rfl⟩

lemma Banked.addrBytes_eq (h : s.Banked) : s.addrBytes = 3 := by
  rw [addrBytes, h.three_sent]
  rfl

/-- The cell that a command with three address bytes means, in the selected bank. -/
lemma Banked.resolve_eq (h : s.Banked) {addr : ℕ} (haddr : addr < 2 ^ 25)
    (hbank : s.currentBank = bankOf addr) : s.chip.resolve (addr % 2 ^ 24 % 256 ^ 3) = addr := by
  rw [NorChip.resolve, if_pos h.three_taken, h.size, ← h.cached, hbank, bankOf]
  split
  · omega
  · omega

lemma Banked.erase_command (h : s.Banked) (a : ℕ) :
    ∃ cells wel, (s.command s.activeCs 0xD8 (some a) [] 0).2 = s.withCells cells wel ∧
      (cells = s.chip.cells ∨ cells = s.chip.eraseAt (s.chip.resolve (a % 256 ^ 3))) := by
  obtain ⟨cells, wel, hlatched, hcells⟩ :=
    exists_latched s.chip (s.chip.eraseAt (s.chip.resolve (a % 256 ^ 3)))
  refine ⟨cells, wel, ?_, hcells⟩
  rw [command_of_selected h.selected, Option.map_some, h.addrBytes_eq,
    NorChip.exec_erase h.three_taken.symm, hlatched]
  rfl

lemma Banked.program_command (h : s.Banked) (a : ℕ) (data : List UInt8) :
    ∃ cells wel, (s.command s.activeCs 0x02 (some a) data 0).2 = s.withCells cells wel ∧
      (cells = s.chip.cells ∨ cells = s.chip.programAt (s.chip.resolve (a % 256 ^ 3)) data) := by
  obtain ⟨cells, wel, hlatched, hcells⟩ :=
    exists_latched s.chip (s.chip.programAt (s.chip.resolve (a % 256 ^ 3)) data)
  refine ⟨cells, wel, ?_, hcells⟩
  rw [command_of_selected h.selected, Option.map_some, h.addrBytes_eq,
    NorChip.exec_program h.three_taken.symm, hlatched]
  rfl

/-- Before an erase or a program the bank is selected and the chip unlocked. -/
lemma Banked.prepared (h : s.Banked) (addr : ℕ) :
    (s.flashSelectBank (bankOf addr)).flashUnlock.Banked ∧
      (s.flashSelectBank (bankOf addr)).flashUnlock.currentBank = bankOf addr ∧
      (s.flashSelectBank (bankOf addr)).flashUnlock.chip.cells = s.chip.cells := by
  obtain ⟨hbanked, hbank, hcells⟩ := h.flashSelectBank (bankOf_le addr)
  obtain ⟨sr1, wel, hunlock⟩ := hbanked.flashUnlock_eq
  rw [hunlock]
  exact ⟨hbanked.withStatus sr1 wel, hbank, hcells⟩

lemma Banked.after_verify (h : s.Banked) (addr len : ℕ) :
    (s.flashVerifyErased addr len).2.Banked ∧
      (s.flashVerifyErased addr len).2.chip.cells = s.chip.cells := by
  have hhead := h.after_read addr (min len 16)
  rw [flashVerifyErased]
  split
  · split
    · have htail := hhead.1.after_read (add32 addr (len - 16)) 16
      exact ⟨htail.1, htail.2.trans hhead.2⟩
    · exact hhead
  · exact hhead

/-- **An erase goes to the addressed sector**, or nowhere if the chip is still protected. -/
lemma Banked.after_erase (h : s.Banked) (addr : ℕ) :
    (s.flashEraseSector addr).2.Banked ∧
      (addr < 2 ^ 25 → (s.flashEraseSector addr).2.chip.cells = s.chip.cells ∨
        (s.flashEraseSector addr).2.chip.cells =
          FlashCells.erase 0x10000 s.chip.cells addr) := by
  obtain ⟨hprepared, hbank, hcells⟩ := h.prepared addr
  rw [flashEraseSector, if_pos h.needed]
  generalize (s.flashSelectBank (bankOf addr)).flashUnlock = t at hprepared hbank hcells ⊢
  have henabled := hprepared.withStatus t.chip.sr1 true
  rw [hprepared.writeEnable_eq]
  obtain ⟨cells, wel, herase, hwhere⟩ := henabled.erase_command (addr % 2 ^ 24)
  rw [herase]
  obtain ⟨hverified, hkept⟩ := (henabled.withCells cells wel).after_verify addr 0x10000
  refine ⟨hverified, fun haddr => ?_⟩
  rw [hkept]
  rw [henabled.resolve_eq haddr hbank] at hwhere
  rcases hwhere with hwhere | hwhere
  · exact .inl (hwhere.trans hcells)
  · refine .inr (hwhere.trans ?_)
    rw [← hcells]
    rfl

/-- A chunk of a page is programmed. -/
lemma Banked.programChunk (h : s.Banked) (addr : ℕ) (data : List UInt8) (p : ℕ × ℕ) :
    (s.programChunk addr data p).Banked := by
  have henabled := h.withStatus s.chip.sr1 true
  rw [Hisfc350.programChunk, h.writeEnable_eq]
  obtain ⟨cells, wel, hprogram, -⟩ := henabled.program_command (add32 addr p.1 % 2 ^ 24)
    ((data.drop p.1).take p.2)
  rw [hprogram]
  exact henabled.withCells cells wel

lemma Banked.after_write (h : s.Banked) (addr : ℕ) (data : List UInt8) :
    (s.flashWritePage addr data).2.Banked := by
  have hprepared := (h.prepared addr).1
  rw [flashWritePage, if_pos h.needed]
  dsimp only
  generalize (s.flashSelectBank (bankOf addr)).flashUnlock = t at hprepared
  generalize (Cut.upTo 64 (by decide)).pieces 0 (data.take 256).length = ps
  induction ps generalizing t with
  | nil => exact hprepared
  | cons p ps ih => exact ih _ (hprepared.programChunk addr (data.take 256) p)

/-- **Every call keeps the bank.** -/
lemma Banked.after (h : s.Banked) (f : HisfcCall) : (s.after f).Banked := by
  cases f with
  | read addr len => exact (h.after_read addr len).1
  | crc32 addr len => exact (h.after_crc32 addr len).1
  | erase addr => exact (h.after_erase addr).1
  | write addr data => exact h.after_write addr data

/-! ## `flash_init` -/

lemma flashReadId_of_selected (h : s.activeCs = s.populated) : s.flashReadId = s.chip.jedecId := by
  rw [flashReadId, command_of_selected h]
  rfl

lemma flashReadId_of_not_selected (h : s.activeCs ≠ s.populated) :
    s.flashReadId = (0xFF, 0xFF, 0xFF) := by
  rw [flashReadId, command, if_neg h]
  rfl

/-- Controller and chip agree on three address bytes, whichever chip select it is on. -/
lemma resetMode_eq (h : s.populated = 0 ∨ s.populated = 1) :
    s.resetMode =
      { s with
        addrMode4B := false
        readEn := true
        readIns := 0x03
        chip := { s.chip with addrBytes := 3 } } := by
  rcases h with hcs | hcs
  · simp only [resetMode, command, hcs]
    rfl
  · simp only [resetMode, command, hcs]
    rfl

/-- **The bank is known once the chip is found.** -/
lemma banked_flashFound (hsent : s.addrMode4B = false)
    (htaken : s.chip.addrBytes = 3) (hreads : s.readEn = true ∧ s.readIns = 0x03)
    (hselected : s.activeCs = s.populated) (hsize : s.chip.size = 2 ^ 25)
    (hreported : detectSize s.chip.jedecId.2.2 = 2 ^ 25)
    (hbank : s.currentBank = 0xff) : s.flashFound.Banked := by
  have hlarge : detectSize s.flashReadId.2.2 > 0x1000000 := by
    rw [flashReadId_of_selected hselected, hreported]
    decide
  have hunknown : 0 ≠ s.currentBank := by
    rw [hbank]
    decide
  rw [flashFound, if_pos hlarge,
    flashSelectBank_eq (s := { s with needsBankSwitch := true }) rfl hselected hunknown]
  exact ⟨rfl, hsent, htaken, hreads, hselected, hsize, rfl⟩

/-- **`flash_init` finds the chip, and knows its bank.** -/
lemma Fresh.banked (h : s.Fresh) : s.flashInit.1 = true ∧ s.flashInit.2.Banked := by
  rw [flashInit, if_neg (not_not_intro h.version), resetMode_eq h.populated]
  dsimp only
  rcases h.populated with hcs | hcs
  · -- nothing answers on the other chip select
    have hother : 1 ≠ s.populated := by
      rw [hcs]
      decide
    rw [flashReadId_of_not_selected hother, if_neg (by decide), flashReadId_of_selected hcs.symm,
      if_pos h.valid]
    exact ⟨rfl, banked_flashFound rfl rfl ⟨rfl, rfl⟩ hcs.symm h.size h.reported h.currentBank⟩
  · rw [flashReadId_of_selected hcs.symm, if_pos h.valid]
    exact ⟨rfl, banked_flashFound rfl rfl ⟨rfl, rfl⟩ hcs.symm h.size h.reported h.currentBank⟩

/-- **Every state keeps the bank.** -/
lemma Reached.banked (h : Reached s) : s.Banked := by
  induction h with
  | init s h => exact h.banked.2
  | call s f hf h ih => exact ih.after f

/-- **`current_bank` is the bank of the chip**, in every state after `flash_init`, and every read
and every checksum is that of the addressed bytes. -/
theorem hisfc_bank_and_reads (s : Hisfc350) (h : s.Reached) :
    s.currentBank = s.chip.ear.toNat ∧ ∀ addr len, addr + len ≤ 2 ^ 25 →
      (s.flashRead addr len).1 = s.chip.cells.load addr len ∧
        (s.flashCrc32 addr len).1 = zlibCrc32 (s.chip.cells.load addr len) :=
  ⟨h.banked.cached, fun _ _ hrange => ⟨h.banked.flashRead_eq hrange, h.banked.flashCrc32_eq hrange⟩⟩

/-- The chip of 32 MiB that the driver is written for, as `flash_init` finds it: in the mode with
four address bytes, with the register of its upper bank set, and protected. -/
def freshMacronix : Hisfc350 where
  version := 0x350
  chip := ⟨(0xC2, 0x20, 0x19), fun _ => 0, false, 0x3C, 0, 0, false, 4, true, 511⟩
  populated := 1
  addrMode4B := true
  readEn := false
  readIns := 0xEB
  activeCs := 0
  needsBankSwitch := false
  currentBank := 0xff

lemma fresh_freshMacronix : freshMacronix.Fresh :=
  ⟨rfl, rfl, rfl, rfl, .inr rfl, rfl, rfl, rfl⟩

/-- After an erase in the upper bank. -/
theorem hisfc_bank_and_reads_upper :
    (freshMacronix.flashInit.2.after (.erase 0x1000000)).currentBank =
        (freshMacronix.flashInit.2.after (.erase 0x1000000)).chip.ear.toNat ∧
      ∀ addr len, addr + len ≤ 2 ^ 25 →
        ((freshMacronix.flashInit.2.after (.erase 0x1000000)).flashRead addr len).1 =
            (freshMacronix.flashInit.2.after (.erase 0x1000000)).chip.cells.load addr len ∧
          ((freshMacronix.flashInit.2.after (.erase 0x1000000)).flashCrc32 addr len).1 =
            zlibCrc32 ((freshMacronix.flashInit.2.after (.erase 0x1000000)).chip.cells.load addr
              len) :=
  hisfc_bank_and_reads _
    (.call _ (.erase 0x1000000) (by decide : 0x1000000 < 2 ^ 25) (.init _ fresh_freshMacronix))

end Hisfc350

end Defib
