import Defib.Agent.FlashCommands
import Defib.Properties.FmcOperations

/-!
# What `handle_flash_program` leaves in the flash

The handler's calls are performed on a chip behind the FMC100, and what is in the flash at the end
is compared with the source.  `flash_program_sound_iff` says for which requests the last `ACK_OK`
can be trusted: the range has to lie where three address bytes reach, and as the pages are cut from
the start of the range and not from the page boundaries, it has to start on one or end before the
next.  The source is read twice, for its checksum and page by page, so that it has to be memory that
keeps what it holds: `addr_readable` admits registers and the window of the flash as well, which
shows the I/O buffer of the controller while a page is copied into it.

As long as every call is exact, a chip does what erases and programs do to its cells
(`performAll_flash`), so that the proof that a request is met is about cells alone.
-/

namespace Defib

/-! ## Calls on cells -/

namespace FlashEvent

/-- What an event does to the cells. -/
def effect (block : ℕ) (m : Store UInt8) : FlashEvent → Store UInt8
  | .erase addr => FlashCells.erase block m addr
  | .program addr data => FlashCells.program m addr data
  | .send _ => m

/-- An event concerns a cell. -/
def Touches (block : ℕ) (a : ℕ) : FlashEvent → Prop
  | .erase addr => a / block = addr / block
  | .program addr data => addr ≤ a ∧ a < addr + data.length
  | .send _ => False

variable {block : ℕ}

lemma effect_of_not_touches {m : Store UInt8} {a : ℕ} {e : FlashEvent} (h : ¬ e.Touches block a) :
    effect block m e a = m a := by
  cases e with
  | erase addr => exact FlashCells.erase_apply_of_ne m h
  | program addr data =>
      refine FlashCells.program_apply_of_not_mem ?_
      simp only [Touches, not_and, not_lt] at h
      omega
  | send p => rfl

/-- Cells that no event concerns stay as they are. -/
lemma foldl_effect_of_not_touches {es : List FlashEvent} {a : ℕ}
    (h : ∀ e ∈ es, ¬ e.Touches block a) (m : Store UInt8) : es.foldl (effect block) m a = m a := by
  induction es generalizing m with
  | nil => rfl
  | cons e es ih =>
      obtain ⟨he, hes⟩ := List.forall_mem_cons.mp h
      rw [List.foldl_cons, ih hes, effect_of_not_touches he]

/-- An event programs nothing. -/
def NoProgram : FlashEvent → Prop
  | .program _ _ => False
  | _ => True

lemma effect_of_erased {m : Store UInt8} {a : ℕ} {e : FlashEvent} (h : e.NoProgram)
    (herased : m a = 0xFF) : effect block m e a = 0xFF := by
  cases e with
  | erase addr =>
      rw [effect, FlashCells.erase]
      split
      · rfl
      · exact herased
  | program addr data => exact absurd h id
  | send p => exact herased

lemma foldl_effect_of_erased {es : List FlashEvent} {a : ℕ} (h : ∀ e ∈ es, e.NoProgram)
    {m : Store UInt8} (herased : m a = 0xFF) : es.foldl (effect block) m a = 0xFF := by
  induction es generalizing m with
  | nil => exact herased
  | cons e es ih =>
      obtain ⟨he, hes⟩ := List.forall_mem_cons.mp h
      exact ih hes (effect_of_erased he herased)

/-- Cells that an erase concerns are erased, when nothing is programmed. -/
lemma foldl_effect_erased {es : List FlashEvent} {a addr : ℕ} (h : ∀ e ∈ es, e.NoProgram)
    (hmem : .erase addr ∈ es) (ha : a / block = addr / block) (m : Store UInt8) :
    es.foldl (effect block) m a = 0xFF := by
  obtain ⟨before, behind, rfl⟩ := List.append_of_mem hmem
  rw [List.foldl_append, List.foldl_cons]
  refine foldl_effect_of_erased (fun e he => h e ?_) (if_pos ha)
  exact List.mem_append_right _ (List.mem_cons_of_mem _ he)

end FlashEvent

open FlashEvent

section Pieces

variable {block : ℕ} (cut : Cut) (dest : ℕ) (src : Store UInt8)

/-- The programs of the pieces of a source, each at its place. -/
def programsOf (ps : List (ℕ × ℕ)) : List FlashEvent :=
  ps.map fun p => .program (dest + p.1) (src.load p.1 p.2)

lemma not_touches_programsOf {a n i : ℕ} (h : i < dest + a ∨ dest + a + n ≤ i) :
    ∀ e ∈ programsOf dest src (cut.pieces a n), ¬ e.Touches block i := by
  intro e he
  obtain ⟨p, hp, rfl⟩ := List.mem_map.mp he
  obtain ⟨hle, hpos, hend⟩ := cut.mem_pieces hp
  simp only [Touches, Store.length_load]
  omega

variable (block) in
/-- **Programming a range piece by piece writes it**, where the cells are erased. -/
lemma foldl_programsOf (a n : ℕ) : ∀ m : Store UInt8, (∀ i < n, m (dest + a + i) = 0xFF) →
    ∀ i < n, (programsOf dest src (cut.pieces a n)).foldl (effect block) m (dest + a + i) =
      src (a + i) := by
  refine cut.pieces_induction (motive := fun a n => ∀ m : Store UInt8,
      (∀ i < n, m (dest + a + i) = 0xFF) → ∀ i < n,
      (programsOf dest src (cut.pieces a n)).foldl (effect block) m (dest + a + i) = src (a + i))
    (fun a m _ i hi => absurd hi (Nat.not_lt_zero i)) (fun a n hn ih m hm i hi => ?_) a n
  have hpos := cut.first_pos a n hn
  have hle := cut.first_le a n
  rw [Cut.pieces_of_pos _ _ hn, programsOf, List.map_cons, List.foldl_cons, ← programsOf]
  generalize cut.first a n = k at hpos hle ih
  have hkeep : ∀ j < n, k ≤ j →
      effect block m (.program (dest + a) (src.load a k)) (dest + a + j) = 0xFF := by
    intro j hj hkj
    rw [effect_of_not_touches, hm j hj]
    simp only [Touches, Store.length_load]
    omega
  by_cases hik : i < k
  · -- the first piece holds the cell, and no later one comes back to it
    rw [foldl_effect_of_not_touches
      (not_touches_programsOf cut dest src (.inl (by omega)))]
    exact FlashCells.program_apply_of_erased (Store.getElem?_load src a k i hik) (hm i hi)
  · have hrest := ih _ (fun j hj => by
      have h := hkeep (k + j) (by omega) (by omega)
      rwa [← Nat.add_assoc, Nat.add_assoc dest a k] at h) (i - k) (by omega)
    rw [show dest + (a + k) + (i - k) = dest + a + i by omega,
      show a + k + (i - k) = a + i by omega] at hrest
    exact hrest

end Pieces

/-! ## Boards with an FMC100 -/

/-- A board whose FMC100 driver found a chip. -/
structure FmcBoard extends Board where
  fmc : soc.spiDriver = .fmc100
  found : (flashInitFmc100 probe).2 = true
  /-- The last sector of the chip, if it is a NOR. -/
  lastSector : ℕ
  /-- The RAM that the agent changes while it runs: its variables and its stack. -/
  own : ℕ → Prop

namespace FmcBoard

variable (b : FmcBoard)

/-- How far the address bytes of the driver reach. -/
def reach : ℕ :=
  if b.flashInfo.flashType = .nor then min b.flashInfo.size (norReach b.lastSector)
  else b.flashInfo.size

/-- The bus reads the same at an address while the handler runs: in RAM that the agent does not use
itself, and in the mask ROM.  Registers do not, and neither does the window of the flash. -/
def Keeps (a : ℕ) : Prop :=
  (b.soc.ramBase ≤ a ∧ a < b.soc.ramBase + 128 * 1024 * 1024 ∧ ¬ b.own a) ∨
    ∃ w ∈ b.soc.bootrom, w.1 ≤ a ∧ a < w.1 + w.2

/-- What is on the bus when the pages are copied. -/
def LiveBus (m : Machine) (live : ℕ → Store UInt8) : Prop :=
  ∀ o a, b.Keeps a → live o a = m.bus a

lemma flashInit_eq : b.flashInit = flashInitFmc100 b.probe := by
  rw [Board.flashInit, b.fmc]

lemma flashInfo_eq : b.flashInfo = (flashInitFmc100 b.probe).1 := by
  rw [Board.flashInfo, Board.boot_of_flashInit (by rw [b.flashInit_eq]; exact b.found),
    b.flashInit_eq]

lemma flashReadable_eq : b.flashReadable = true := by
  have hinit : b.flashInit.2 = true := by
    rw [b.flashInit_eq]
    exact b.found
  rw [Board.flashReadable, Board.boot_of_flashInit hinit]
  exact hinit

/-- The geometry that the handlers use. -/
lemma exists_geometry : ∃ g, b.geometry = some g ∧ g.size = b.flashInfo.size ∧
    g.sectorSize = b.flashInfo.sectorSize ∧ g.pageSize = b.flashInfo.pageSize :=
  ⟨_, dif_pos b.flashReadable_eq, rfl, rfl, rfl⟩

/-- The two kinds of flash behind an FMC100. -/
lemma cases : (nandIdentify (b.probe.jedecId 0) = true ∧ b.flashInfo = nandInfo) ∨
    (nandIdentify (b.probe.jedecId 0) = false ∧
      b.flashInfo = norInfo (b.probe.jedecId 0).2.2) := by
  have hfound := b.found
  rw [flashInfo_eq]
  rw [flashInitFmc100] at hfound ⊢
  by_cases hversion : b.probe.version ≠ 0x100
  · rw [if_pos hversion] at hfound
    cases hfound
  rw [if_neg hversion]
  dsimp only
  cases hnand : nandIdentify (b.probe.jedecId 0) with
  | true => exact .inl ⟨rfl, rfl⟩
  | false => exact .inr ⟨rfl, rfl⟩

/-- The sizes of both kinds. -/
lemma sizes : (b.flashInfo.sectorSize = 0x20000 ∧ b.flashInfo.pageSize = 2048 ∧
      b.flashInfo.size = 2 ^ 27 ∧ b.reach = 2 ^ 27) ∨
    (b.flashInfo.sectorSize = 0x10000 ∧ b.flashInfo.pageSize = 256 ∧
      2 ^ 20 ≤ b.flashInfo.size ∧ b.flashInfo.size ≤ 2 ^ 26 ∧
      b.reach = min b.flashInfo.size (norReach b.lastSector)) := by
  rcases b.cases with ⟨-, hinfo⟩ | ⟨-, hinfo⟩
  · refine .inl ?_
    rw [reach, hinfo]
    exact ⟨rfl, rfl, rfl, rfl⟩
  · have hbounds := (norInfo_isNor (b.probe.jedecId 0).2.2).size_bounds
    refine .inr ?_
    rw [reach, hinfo]
    exact ⟨rfl, rfl, hbounds.1, hbounds.2, rfl⟩

end FmcBoard

namespace FmcChip

/-- What an event does to the chip. -/
def perform (c : FmcChip) : FlashEvent → FmcChip
  | .erase addr => (c.flashEraseSector addr).2
  | .program addr data => (c.flashWritePage addr data).2
  | .send _ => c

/-- What the calls of a handler do to the chip. -/
def performAll (c : FmcChip) (events : List FlashEvent) : FmcChip := events.foldl perform c

/-- What the handler is told of its erases is what the chip returns. -/
def Answered (chip : Chip) : FmcChip → List FlashEvent → Prop
  | _, [] => True
  | c, e :: es =>
      (∀ addr, e = .erase addr → chip.eraseOk addr = (c.flashEraseSector addr).1) ∧
        Answered chip (c.perform e) es

lemma Good.perform {p : Probe} {lastSector : ℕ} {c : FmcChip} (h : Good p lastSector c)
    (e : FlashEvent) : Good p lastSector (c.perform e) := by
  cases e with
  | erase addr => exact h.after (.erase addr)
  | program addr data => exact h.after (.write addr data)
  | send q => exact h

end FmcChip

/-- The driver can do what an event asks for: its address bytes reach, and a program stays in its
page. -/
def FlashEvent.Direct (b : FmcBoard) : FlashEvent → Prop
  | .erase addr => addr < b.reach
  | .program addr data =>
      data ≠ [] ∧ addr < b.reach ∧ addr % b.flashInfo.pageSize + data.length ≤ b.flashInfo.pageSize
  | .send _ => True

section Perform

open FmcChip

variable {b : FmcBoard} {c : FmcChip}

/-- What a program leaves of a page on a NOR. -/
lemma perform_program_nor {n : NorChip} (h : n.Ready) (addr : ℕ) (data : List UInt8) :
    ((FmcChip.nor n).perform (.program addr data)).flash =
      n.programAt (n.place addr) (data.take 256) := by
  simp only [perform, flashWritePage, h.flashWritePage_eq, flash]

lemma perform_erase_nor {n : NorChip} (h : n.Ready) (addr : ℕ) :
    ((FmcChip.nor n).perform (.erase addr)).flash =
      FlashCells.erase 0x10000 n.cells (n.place addr) := by
  simp only [perform, flashEraseSector, h.flashEraseSector_eq, flash, NorChip.eraseAt_eq_erase]

/-- Where the address bytes reach, they say what is meant. -/
lemma place_of_lt_reach (hinfo : b.flashInfo = norInfo (b.probe.jedecId 0).2.2) {n : NorChip}
    (hlast : n.lastSector = b.lastSector) {addr : ℕ} (h : addr < b.reach) :
    n.place addr = addr := by
  have hreach : b.reach = min b.flashInfo.size (norReach b.lastSector) := by
    rw [FmcBoard.reach, hinfo]
    rfl
  rw [hreach, ← hlast] at h
  exact NorChip.place_of_lt (lt_min_iff.mp h).2

lemma lt_of_lt_reach (hinfo : b.flashInfo = nandInfo) {addr : ℕ} (h : addr < b.reach) :
    addr < NandChip.rows * nandPageSize := by
  rwa [FmcBoard.reach, hinfo] at h

/-- **A direct event does to the chip what it says.** -/
lemma perform_flash (hc : Good b.probe b.lastSector c) {e : FlashEvent} (h : e.Direct b) :
    (c.perform e).flash = e.effect b.flashInfo.sectorSize c.flash := by
  rcases b.cases with ⟨hnand, hinfo⟩ | ⟨hnor, hinfo⟩
  · obtain ⟨n, rfl, hready⟩ := nand_of_good hc hnand
    cases e with
    | erase addr =>
        rw [hinfo]
        exact flash_erase_nand hready (lt_of_lt_reach hinfo h)
    | program addr data =>
        obtain ⟨hne, haddr, hpage⟩ := h
        rw [hinfo] at hpage
        have hpage : addr % nandPageSize + data.length ≤ nandPageSize := hpage
        have hprogram := flash_write_nand hready (lt_of_lt_reach hinfo haddr) hne
        rw [List.take_of_length_le (by omega)] at hprogram
        exact hprogram
    | send p => rfl
  · obtain ⟨n, rfl, hready, hlast⟩ := nor_of_good hc hnor
    cases e with
    | erase addr =>
        rw [perform_erase_nor hready, place_of_lt_reach hinfo hlast h, hinfo]
        rfl
    | program addr data =>
        obtain ⟨hne, haddr, hpage⟩ := h
        rw [hinfo] at hpage
        have hpage : addr % 256 + data.length ≤ 256 := hpage
        rw [perform_program_nor hready, place_of_lt_reach hinfo hlast haddr,
          List.take_of_length_le (by omega), NorChip.programAt_eq_program hpage]
        rfl
    | send p => rfl

/-- **Direct events do to the chip what they say.** -/
lemma performAll_flash (hc : Good b.probe b.lastSector c) {es : List FlashEvent}
    (h : ∀ e ∈ es, e.Direct b) :
    (c.performAll es).flash = es.foldl (effect b.flashInfo.sectorSize) c.flash := by
  induction es generalizing c with
  | nil => rfl
  | cons e es ih =>
      obtain ⟨he, hes⟩ := List.forall_mem_cons.mp h
      rw [performAll, List.foldl_cons, ← performAll, ih (hc.perform e) hes, List.foldl_cons,
        perform_flash hc he]

/-- What is erased reads as erased. -/
lemma NorChip.Ready.flashEraseSector_fst {n : NorChip} (h : n.Ready) {addr : ℕ}
    (haligned : addr % 0x10000 = 0) (hlt : addr + 0x10000 ≤ 2 ^ 32) :
    (n.flashEraseSector addr).1 = true := by
  have hdiv : ∀ a, n.place a / 0x10000 = a / 0x10000 % 256 % (n.size / 0x10000) := by
    intro a
    have hsplit : n.size = 0x10000 * (n.lastSector + 1) := Nat.mul_comm _ _
    rw [NorChip.place, hsplit, Nat.mod_mul_right_div_self,
      Nat.mul_div_cancel_left _ (by decide : 0 < 0x10000),
      show (2 : ℕ) ^ 24 = 0x10000 * 256 by rfl, Nat.mod_mul_right_div_self]
  have herased : ∀ i < 0x10000, (n.flashEraseSector addr).2.cells (n.place (addr + i)) = 0xFF := by
    intro i hi
    rw [h.flashEraseSector_eq]
    refine if_pos ?_
    rw [hdiv, hdiv, show (addr + i) / 0x10000 = addr / 0x10000 by omega]
  have hread : ∀ off, off + 16 ≤ 0x10000 →
      ((n.flashEraseSector addr).2.flashRead (addr + off) 16).all (· = 0xFF) = true := by
    intro off hoff
    have hready : (n.flashEraseSector addr).2.Ready := by
      rw [h.flashEraseSector_eq]
      exact h.after_cells _ _
    have hplace : (n.flashEraseSector addr).2.place = n.place := by
      rw [h.flashEraseSector_eq]
      rfl
    rw [hready.flashRead_eq, List.all_eq_true, hplace]
    intro x hx
    obtain ⟨i, hi, rfl⟩ := List.mem_map.mp hx
    have hi := List.mem_range.mp hi
    rw [Nat.add_assoc]
    exact decide_eq_true (herased (off + i) (by omega))
  have hhead := hread 0 (by decide)
  have htail := hread 0xFFF0 (by decide)
  simp only [NorChip.flashEraseSector, NorChip.verifyErased] at hhead htail ⊢
  rw [add32_of_lt (by omega)]
  simp only [Nat.add_zero] at hhead
  rw [show min 0x10000 16 = 16 by rfl, hhead, show 0x10000 - 16 = 0xFFF0 by rfl, htail]
  rfl

/-- An erase succeeds. -/
lemma flashEraseSector_fst (hc : Good b.probe b.lastSector c) {addr : ℕ} (haddr : addr < 2 ^ 32)
    (haligned : addr % b.flashInfo.sectorSize = 0) : (c.flashEraseSector addr).1 = true := by
  rcases b.cases with ⟨hnand, -⟩ | ⟨hnor, hinfo⟩
  · obtain ⟨n, rfl, hready⟩ := nand_of_good hc hnand
    rw [flashEraseSector, hready.nandEraseBlock_eq_mod]
  · obtain ⟨n, rfl, hready, -⟩ := nor_of_good hc hnor
    rw [hinfo] at haligned
    have haligned : addr % 0x10000 = 0 := haligned
    have herased : (n.flashEraseSector addr).1 = true :=
      hready.flashEraseSector_fst haligned (by omega)
    rw [flashEraseSector, herased]

/-- An oracle for which every erase succeeds tells the truth. -/
lemma answered_of_eraseOk (hc : Good b.probe b.lastSector c) {es : List FlashEvent} {chip : Chip}
    (h : ∀ addr, .erase addr ∈ es → addr < 2 ^ 32 ∧ addr % b.flashInfo.sectorSize = 0)
    (hok : ∀ addr, chip.eraseOk addr = true) : c.Answered chip es := by
  induction es generalizing c with
  | nil => trivial
  | cons e es ih =>
      refine ⟨?_, ih (hc.perform e) fun addr haddr => h addr (List.mem_cons_of_mem _ haddr)⟩
      rintro addr rfl
      obtain ⟨hlt, haligned⟩ := h addr List.mem_cons_self
      rw [hok, flashEraseSector_fst hc hlt haligned]

/-! ### Cells that stay erased -/

/-- An event leaves an erased cell as it is: it erases, or it programs another page, or nothing
but neutral bytes, or the cell is out of the reach of three address bytes, or of the chip. -/
def FlashEvent.Spares (b : FmcBoard) (a : ℕ) : FlashEvent → Prop
  | .erase addr => addr < b.flashInfo.size
  | .program addr data =>
      data ≠ [] ∧ addr < b.flashInfo.size ∧
        ((∀ x ∈ data, x = 0xFF) ∨
          (addr < b.reach ∧ a / b.flashInfo.pageSize ≠ addr / b.flashInfo.pageSize) ∨
          (b.flashInfo.flashType = .nor ∧ norReach b.lastSector ≤ a))
  | .send _ => True

/-- Neutral bytes change nothing on a NOR, wherever they go. -/
lemma NorChip.programAt_of_neutral {n : NorChip} {data : List UInt8} (h : ∀ x ∈ data, x = 0xFF)
    (base a : ℕ) : n.programAt base data a = n.cells a := by
  rw [NorChip.programAt]
  split
  · rw [FlashCells.getD_of_neutral h, FlashCells.and_erased]
  · rfl

/-- **What an event spares stays erased.** -/
lemma perform_spares (hc : Good b.probe b.lastSector c) {a : ℕ} {e : FlashEvent} (h : e.Spares b a)
    (herased : c.flash a = 0xFF) : (c.perform e).flash a = 0xFF := by
  cases e with
  | erase addr =>
      have hkeep : ∀ base,
          FlashCells.erase b.flashInfo.sectorSize c.flash base a = 0xFF := fun base =>
        effect_of_erased (e := .erase base) trivial herased
      rcases b.cases with ⟨hnand, hinfo⟩ | ⟨hnor, hinfo⟩
      · obtain ⟨n, rfl, hready⟩ := nand_of_good hc hnand
        have haddr : addr < b.flashInfo.size := h
        rw [hinfo] at haddr hkeep
        rw [perform, flash_erase_nand hready haddr]
        exact hkeep addr
      · obtain ⟨n, rfl, hready, -⟩ := nor_of_good hc hnor
        rw [hinfo] at hkeep
        rw [perform_erase_nor hready]
        exact hkeep (n.place addr)
  | program addr data =>
      obtain ⟨hne, haddr, hspares⟩ := h
      rcases b.cases with ⟨hnand, hinfo⟩ | ⟨hnor, hinfo⟩
      · obtain ⟨n, rfl, hready⟩ := nand_of_good hc hnand
        rw [hinfo] at haddr hspares
        rw [perform, flash_write_nand hready haddr hne]
        rcases hspares with hneutral | ⟨-, hpage⟩ | ⟨hnor, -⟩
        · rw [FlashCells.program_apply_of_neutral fun x hx => hneutral x (List.mem_of_mem_take hx)]
          exact herased
        · have hpage : a / nandPageSize ≠ addr / nandPageSize := hpage
          rw [FlashCells.program_apply_of_not_mem, herased]
          have hlength := List.length_take_le (nandPageSize - addr % nandPageSize) data
          unfold nandPageSize at *
          omega
        · cases hnor
      · obtain ⟨n, rfl, hready, hlast⟩ := nor_of_good hc hnor
        rw [perform_program_nor hready]
        rcases hspares with hneutral | ⟨hreach, hpage⟩ | ⟨-, hfar⟩
        · rw [NorChip.programAt_of_neutral fun x hx => hneutral x (List.mem_of_mem_take hx)]
          exact herased
        · rw [hinfo] at hpage
          have hpage : a / 256 ≠ addr / 256 := hpage
          rw [place_of_lt_reach hinfo hlast hreach, NorChip.programAt, if_neg hpage]
          exact herased
        · have hplace := n.place_lt addr
          rw [hlast] at hplace
          have hsector := sector_lt_of_norReach hplace hfar
          rw [NorChip.programAt, if_neg (by omega)]
          exact herased
  | send p => exact herased

lemma performAll_spares (hc : Good b.probe b.lastSector c) {a : ℕ} {es : List FlashEvent}
    (h : ∀ e ∈ es, e.Spares b a) (herased : c.flash a = 0xFF) :
    (c.performAll es).flash a = 0xFF := by
  induction es generalizing c with
  | nil => exact herased
  | cons e es ih =>
      obtain ⟨he, hes⟩ := List.forall_mem_cons.mp h
      rw [performAll, List.foldl_cons, ← performAll]
      exact ih (hc.perform e) hes (perform_spares hc he herased)

end Perform

/-! ## The handler -/

/-- The events of an erase loop in which no erase fails. -/
def erasesOf (base sectorSz : ℕ) (progress : ℕ → ℕ → Packet) (is : List ℕ) : List FlashEvent :=
  is.flatMap fun i => [.erase (add32 base (i * sectorSz)),
    .send (progress i (add32 base (i * sectorSz)))]

/-- The last thing a handler does is to acknowledge. -/
def EndsOk (events : List FlashEvent) : Prop := events.getLast? = some (sendAck ackOk)

lemma not_endsOk_ackFlashError (events : List FlashEvent) :
    ¬ EndsOk (events ++ [sendAck ackFlashError]) := by
  rw [EndsOk, List.getLast?_append]
  simp only [List.getLast?_singleton, Option.some_or, Option.some.injEq]
  decide

/-- An erase loop comes to its end, or to an error. -/
lemma eraseLoop_cases (chip : Chip) (base sectorSz : ℕ) (progress : ℕ → ℕ → Packet)
    (is : List ℕ) :
    eraseLoop chip base sectorSz progress is = (erasesOf base sectorSz progress is, true) ∨
      ∃ events, eraseLoop chip base sectorSz progress is =
        (events ++ [sendAck ackFlashError], false) := by
  induction is with
  | nil => exact .inl rfl
  | cons i is ih =>
      rw [eraseLoop]
      dsimp only
      by_cases hok : chip.eraseOk (add32 base (i * sectorSz)) = true
      · rw [if_pos hok]
        rcases ih with ih | ⟨events, ih⟩
        · rw [ih]
          exact .inl rfl
        · rw [ih]
          exact .inr ⟨_ :: _ :: events, rfl⟩
      · rw [if_neg hok]
        exact .inr ⟨[_], rfl⟩

lemma eraseLoop_of_eraseOk {chip : Chip} (h : ∀ addr, chip.eraseOk addr = true)
    (base sectorSz : ℕ) (progress : ℕ → ℕ → Packet) (is : List ℕ) :
    eraseLoop chip base sectorSz progress is = (erasesOf base sectorSz progress is, true) := by
  induction is with
  | nil => rfl
  | cons i is ih =>
      rw [eraseLoop]
      dsimp only
      rw [if_pos (h _), ih]
      rfl

/-- The number of sectors that `handle_flash_program` erases. -/
def programSectors (sectorSz addr size : ℕ) : ℕ :=
  (add32 (add32 addr size) (sectorSz - 1) / sectorSz * sectorSz + 2 ^ 32 -
    addr / sectorSz * sectorSz) % 2 ^ 32 / sectorSz

/-- The erases of a request. -/
def programErases (g : Geometry) (addr size : ℕ) : List FlashEvent :=
  erasesOf (addr / g.sectorSize * g.sectorSize) g.sectorSize
    (fun s _ => progressPacket (s + 1) (programSectors g.sectorSize addr size))
    (List.range (programSectors g.sectorSize addr size))

/-- What the handler does when nothing fails. -/
def programEvents (g : Geometry) (live : ℕ → Store UInt8) (ramAddr addr size : ℕ) :
    List FlashEvent :=
  sendAck ackOk :: (programErases g addr size ++
    (programLoop g addr (fun o i => live o (ramAddr + i)) size
        (programSectors g.sectorSize addr size) ++
      [sendAck ackOk]))

/-- The fields of a request. -/
structure ProgramFields (data : List UInt8) (ramAddr addr size : ℕ) : Prop where
  length_ge : 16 ≤ data.length
  ramAddr_eq : readLe32 data = ramAddr
  addr_eq : readLe32 (data.drop 4) = addr
  size_eq : readLe32 (data.drop 8) = size

/-- A request that `handle_flash_program` accepts, for some content of the RAM. -/
structure Accepting (b : Board) (flashSize ramAddr addr size : ℕ) : Prop where
  ramAddr_lt : ramAddr < 2 ^ 32
  addr_lt : addr < 2 ^ 32
  size_lt : size < 2 ^ 32
  size_ne : size ≠ 0
  add_le : add32 addr size ≤ flashSize
  readable : addrReadable b ramAddr size = true

section Handler

variable {b : Board} {g : Geometry} {m : Machine} {live : ℕ → Store UInt8} {chip : Chip}
  {data : List UInt8} {ramAddr addr size : ℕ}

/-- **A handler that ends well has done everything.** -/
lemma endsOk_handleFlashProgram (hg : b.geometry = some g)
    (hfields : ProgramFields data ramAddr addr size)
    (h : EndsOk (handleFlashProgram b m live chip data)) :
    Accepting b g.size ramAddr addr size ∧
      handleFlashProgram b m live chip data = programEvents g live ramAddr addr size := by
  obtain ⟨hlength, rfl, rfl, rfl⟩ := hfields
  have herror : ∀ status, status ≠ ackOk → ¬ EndsOk [sendAck status] := by
    intro status hne hend
    exact hne (by simpa [EndsOk, sendAck, ackPacket] using hend)
  rw [handleFlashProgram, if_neg (by omega), hg] at h ⊢
  dsimp only at h ⊢
  by_cases hcheck : readLe32 (data.drop 8) = 0 ∨
      add32 (readLe32 (data.drop 4)) (readLe32 (data.drop 8)) > g.size ∨
      addrReadable b (readLe32 data) (readLe32 (data.drop 8)) = false
  · rw [if_pos hcheck] at h
    exact absurd h (herror _ (by decide))
  rw [if_neg hcheck] at h ⊢
  simp only [not_or, Nat.not_lt, gt_iff_lt, Bool.not_eq_false] at hcheck
  by_cases hcrc : (crc32 0 (m.bus.load (readLe32 data) (readLe32 (data.drop 8)))).toNat ≠
      readLe32 (data.drop 12)
  · rw [if_pos hcrc] at h
    simp only [EndsOk, crcErrorAck, List.getLast?_singleton, Option.some.injEq, sendAck, ackPacket,
      FlashEvent.send.injEq, Packet.mk.injEq, List.cons.injEq] at h
    exact absurd h.2.1 (by decide)
  rw [if_neg hcrc] at h ⊢
  refine ⟨⟨readLe32_lt _, readLe32_lt _, readLe32_lt _, hcheck.1, hcheck.2.1, hcheck.2.2⟩, ?_⟩
  rw [← programSectors] at h ⊢
  rcases eraseLoop_cases chip (readLe32 (data.drop 4) / g.sectorSize * g.sectorSize) g.sectorSize
    (fun s _ => progressPacket (s + 1) (programSectors g.sectorSize (readLe32 (data.drop 4))
      (readLe32 (data.drop 8)))) (List.range (programSectors g.sectorSize (readLe32 (data.drop 4))
      (readLe32 (data.drop 8)))) with hloop | ⟨events, hloop⟩
  · rw [hloop]
    rfl
  · rw [hloop] at h
    refine absurd h ?_
    rw [if_neg Bool.false_ne_true, List.append_nil]
    exact not_endsOk_ackFlashError (_ :: events)

/-- A request for a given content of the RAM. -/
def programRequest (m : Machine) (ramAddr addr size : ℕ) : List UInt8 :=
  packU32 ramAddr ++ (packU32 addr ++ (packU32 size ++
    packU32 (crc32 0 (m.bus.load ramAddr size)).toNat))

lemma programFields_programRequest (h : Accepting b g.size ramAddr addr size) :
    ProgramFields (programRequest m ramAddr addr size) ramAddr addr size := by
  refine ⟨by simp [programRequest], ?_, ?_, ?_⟩
  · rw [programRequest, readLe32_packU32_append, Nat.mod_eq_of_lt h.ramAddr_lt]
  · exact (readLe32_packU32_append addr _).trans (Nat.mod_eq_of_lt h.addr_lt)
  · exact (readLe32_packU32_append size _).trans (Nat.mod_eq_of_lt h.size_lt)

variable (m live chip) in
/-- **The handler ends well** when no erase fails and the checksum is right. -/
lemma handleFlashProgram_programRequest (hg : b.geometry = some g)
    (h : Accepting b g.size ramAddr addr size) (hok : ∀ a, chip.eraseOk a = true) :
    handleFlashProgram b m live chip (programRequest m ramAddr addr size) =
      programEvents g live ramAddr addr size := by
  obtain ⟨hlength, hram, haddr, hsize⟩ := programFields_programRequest (m := m) h
  have hcrc : readLe32 ((programRequest m ramAddr addr size).drop 12) =
      (crc32 0 (m.bus.load ramAddr size)).toNat := by
    exact (readLe32_packU32 _).trans (Nat.mod_eq_of_lt (BitVec.isLt _))
  rw [handleFlashProgram, if_neg (by omega), hg]
  dsimp only
  rw [hram, haddr, hsize, hcrc, if_neg, if_neg (not_not_intro rfl), eraseLoop_of_eraseOk hok]
  · rfl
  · rw [h.readable]
    simp only [not_or, Nat.not_lt, gt_iff_lt]
    exact ⟨h.size_ne, h.add_le, Bool.true_eq_false_eq_False⟩

lemma endsOk_programEvents : EndsOk (programEvents g live ramAddr addr size) := by
  rw [EndsOk, programEvents, ← List.append_assoc, ← List.cons_append, List.getLast?_append]
  rfl

/-! ### The events of a request -/

lemma mem_erasesOf {base sectorSz : ℕ} {progress : ℕ → ℕ → Packet} {is : List ℕ} {e : FlashEvent} :
    e ∈ erasesOf base sectorSz progress is ↔ ∃ i ∈ is, e = .erase (add32 base (i * sectorSz)) ∨
      e = .send (progress i (add32 base (i * sectorSz))) := by
  rw [erasesOf, List.mem_flatMap]
  simp only [List.mem_cons, List.not_mem_nil, or_false]

variable (hsector : g.sectorSize = 0x10000 ∨ g.sectorSize = 0x20000) (hpos : 0 < size)
  (hlt : addr + size ≤ 2 ^ 27)

include hsector hpos hlt

lemma programSectors_eq :
    programSectors g.sectorSize addr size =
      (addr + size - 1) / g.sectorSize - addr / g.sectorSize + 1 := by
  rcases hsector with hsector | hsector
  · rw [hsector, programSectors, add32_of_lt (a := addr) (by omega), add32_of_lt (by omega)]
    omega
  · rw [hsector, programSectors, add32_of_lt (a := addr) (by omega), add32_of_lt (by omega)]
    omega

/-- The sector of a cell of the range is erased, -/
lemma erase_mem_programErases {i : ℕ} (hi : i < size) :
    .erase ((addr + i) / g.sectorSize * g.sectorSize) ∈ programErases g addr size := by
  rw [programErases, mem_erasesOf, programSectors_eq hsector hpos hlt]
  refine ⟨(addr + i) / g.sectorSize - addr / g.sectorSize, List.mem_range.mpr ?_, .inl ?_⟩
  · rcases hsector with hsector | hsector
    · rw [hsector]
      omega
    · rw [hsector]
      omega
  · rcases hsector with hsector | hsector
    · rw [hsector, add32_of_lt (by omega)]
      exact congrArg _ (by omega)
    · rw [hsector, add32_of_lt (by omega)]
      exact congrArg _ (by omega)

/-- and no other sector is. -/
lemma mem_programErases {e : FlashEvent} (he : e ∈ programErases g addr size) :
    (∃ i < size, e = .erase ((addr + i) / g.sectorSize * g.sectorSize)) ∨ ∃ p, e = .send p := by
  rw [programErases, mem_erasesOf, programSectors_eq hsector hpos hlt] at he
  obtain ⟨j, hj, rfl | rfl⟩ := he
  · have hj := List.mem_range.mp hj
    refine .inl ⟨max addr ((addr / g.sectorSize + j) * g.sectorSize) - addr, ?_, ?_⟩
    · rcases hsector with hsector | hsector
      · rw [hsector] at hj ⊢
        omega
      · rw [hsector] at hj ⊢
        omega
    · rcases hsector with hsector | hsector
      · rw [hsector] at hj ⊢
        rw [add32_of_lt (by omega)]
        exact congrArg _ (by omega)
      · rw [hsector] at hj ⊢
        rw [add32_of_lt (by omega)]
        exact congrArg _ (by omega)
  · exact .inr ⟨_, rfl⟩

omit hsector hpos in
lemma mem_programLoop {src : ℕ → Store UInt8} {total : ℕ} {e : FlashEvent}
    (he : e ∈ programLoop g addr src size total) :
    (∃ p ∈ (Cut.upTo g.pageSize g.page_pos).pieces 0 size,
      e = .program (addr + p.1) ((src p.1).load p.1 p.2)) ∨ ∃ p, e = .send p := by
  obtain ⟨p, hp, he⟩ := List.mem_flatMap.mp he
  rcases List.mem_cons.mp he with rfl | he
  · obtain ⟨-, -, hend⟩ := Cut.mem_pieces _ hp
    refine .inl ⟨p, hp, ?_⟩
    rw [add32_of_lt (by omega)]
  · split at he
    · exact .inr ⟨_, List.mem_singleton.mp he⟩
    · cases he

/-- What is done for a request. -/
lemma mem_programEvents {e : FlashEvent} (he : e ∈ programEvents g live ramAddr addr size) :
    (∃ i < size, e = .erase ((addr + i) / g.sectorSize * g.sectorSize)) ∨
      (∃ p ∈ (Cut.upTo g.pageSize g.page_pos).pieces 0 size,
        e = .program (addr + p.1) ((live p.1).load (ramAddr + p.1) p.2)) ∨ ∃ p, e = .send p := by
  rw [programEvents, List.mem_cons, List.mem_append, List.mem_append, List.mem_singleton] at he
  rcases he with rfl | he | he | rfl
  · exact .inr (.inr ⟨_, rfl⟩)
  · exact (mem_programErases hsector hpos hlt he).imp_right .inr
  · refine .inr ((mem_programLoop hlt he).imp_left ?_)
    rintro ⟨p, hp, rfl⟩
    refine ⟨p, hp, ?_⟩
    congr 1
    exact List.map_congr_left fun i _ => by rw [Nat.add_assoc]
  · exact .inr (.inr ⟨_, rfl⟩)

end Handler

/-! ## Requests -/

/-- A request was met: the range of the flash holds the source, as it was when its checksum was
verified, and outside the sectors that overlap the range the flash is as before. -/
structure Programmed (b : FmcBoard) (m : Machine) (ramAddr addr size : ℕ)
    (before after : Store UInt8) : Prop where
  inside : addr + size ≤ b.flashInfo.size
  data : after.load addr size = m.bus.load ramAddr size
  frame : ∀ a, (∀ i < size, a / b.flashInfo.sectorSize ≠ (addr + i) / b.flashInfo.sectorSize) →
    after a = before a

/-- **The last `ACK_OK` can be trusted** for a request: whatever the memory and the flash hold,
whatever registers and the window read from page to page, and whatever the chip returns for its
erases, the request was met when the handler ends with it. -/
def ProgramSound (b : FmcBoard) (ramAddr addr size : ℕ) : Prop :=
  ∀ (m : Machine) (live : ℕ → Store UInt8) (chip : Chip) (data : List UInt8) (c : FmcChip),
    ProgramFields data ramAddr addr size → FmcChip.Reached b.probe b.lastSector c →
    b.LiveBus m live → c.Answered chip (handleFlashProgram b.toBoard m live chip data) →
    EndsOk (handleFlashProgram b.toBoard m live chip data) →
    Programmed b m ramAddr addr size c.flash
      (c.performAll (handleFlashProgram b.toBoard m live chip data)).flash

section Requests

open FmcChip

variable {b : FmcBoard} {g : Geometry} {m : Machine} {live : ℕ → Store UInt8} {c : FmcChip}
  {ramAddr addr size : ℕ}

/-- The range is one that the driver can program page by page. -/
structure FmcBoard.Programmable (b : FmcBoard) (addr size : ℕ) : Prop where
  reached : addr + size ≤ b.reach
  paged : addr % b.flashInfo.pageSize = 0 ∨
    addr % b.flashInfo.pageSize + size ≤ b.flashInfo.pageSize

lemma FmcBoard.sectorSize_eq (b : FmcBoard) :
    b.flashInfo.sectorSize = 0x10000 ∨ b.flashInfo.sectorSize = 0x20000 := by
  rcases b.sizes with h | h
  · exact .inr h.1
  · exact .inl h.1

lemma FmcBoard.reach_le (b : FmcBoard) : b.reach ≤ b.flashInfo.size ∧ b.reach ≤ 2 ^ 27 := by
  rcases b.sizes with ⟨-, -, hsize, hreach⟩ | ⟨-, -, -, hsize, hreach⟩
  · omega
  · omega

variable (live ramAddr) in
/-- Of a programmable range, every event is one that the driver can do. -/
lemma direct_programEvents (hg : g.sectorSize = b.flashInfo.sectorSize ∧
    g.pageSize = b.flashInfo.pageSize) (hpos : 0 < size) (h : b.Programmable addr size) :
    ∀ e ∈ programEvents g live ramAddr addr size, e.Direct b := by
  obtain ⟨hreached, hpaged⟩ := h
  have hle := b.reach_le.2
  intro e he
  rcases mem_programEvents (hg.1 ▸ b.sectorSize_eq) hpos (by omega) he with
    ⟨i, hi, rfl⟩ | ⟨p, hp, rfl⟩ | ⟨p, rfl⟩
  · have hdown := Nat.div_mul_le_self (addr + i) g.sectorSize
    exact show _ < b.reach by omega
  · obtain ⟨-, hlen, hend⟩ := Cut.mem_pieces _ hp
    refine ⟨fun hnil => ?_, show _ < b.reach by omega, ?_⟩
    · have hlength := congrArg List.length hnil
      rw [Store.length_load, List.length_nil] at hlength
      omega
    · rw [Store.length_load, ← hg.2]
      rw [← hg.2] at hpaged
      rcases hpaged with hpage | hpage
      · obtain ⟨hmod, hlimit⟩ := Cut.mem_pieces_upTo _ (Nat.zero_mod _) hp
        rw [Nat.add_mod, hpage, hmod, Nat.zero_add, Nat.zero_mod, Nat.zero_add]
        exact hlimit
      · have hlow : addr % g.pageSize + p.1 < g.pageSize := by omega
        rw [Nat.add_mod, Nat.mod_eq_of_lt (show p.1 < g.pageSize by omega), Nat.mod_eq_of_lt hlow]
        omega
  · trivial

/-- The page loop programs the pieces of the range, where the source stays as it is. -/
lemma foldl_programLoop {block : ℕ} (hlt : addr + size ≤ 2 ^ 27) {srcs : ℕ → Store UInt8}
    {src : Store UInt8} (hsrc : ∀ o, ∀ i < size, srcs o i = src i) (total : ℕ)
    (cells : Store UInt8) :
    (programLoop g addr srcs size total).foldl (effect block) cells =
      (programsOf addr src ((Cut.upTo g.pageSize g.page_pos).pieces 0 size)).foldl (effect block)
        cells := by
  rw [programLoop, programsOf, List.foldl_flatMap, List.foldl_map]
  refine List.foldl_ext _ _ _ fun cells p hp => ?_
  obtain ⟨-, -, hend⟩ := Cut.mem_pieces _ hp
  have hpage : (srcs p.1).load p.1 p.2 = src.load p.1 p.2 :=
    Store.load_congr fun i _ hi => hsrc p.1 i (by omega)
  dsimp only
  rw [List.foldl_cons, add32_of_lt (by omega), hpage]
  split
  · rfl
  · rfl

/-- What the events of a request leave in its range. -/
lemma foldl_programEvents (hsector : g.sectorSize = 0x10000 ∨ g.sectorSize = 0x20000)
    (hpos : 0 < size) (hlt : addr + size ≤ 2 ^ 27) {src : Store UInt8}
    (hsrc : ∀ o, ∀ i < size, live o (ramAddr + i) = src i) (cells : Store UInt8) {i : ℕ}
    (hi : i < size) :
    (programEvents g live ramAddr addr size).foldl (effect g.sectorSize) cells (addr + i) =
      src i := by
  have hnoprogram : ∀ e ∈ programErases g addr size, e.NoProgram := by
    intro e he
    rcases mem_programErases hsector hpos hlt he with ⟨j, -, rfl⟩ | ⟨p, rfl⟩
    · trivial
    · trivial
  have herased : ∀ j < size, (programErases g addr size).foldl (effect g.sectorSize) cells
      (addr + 0 + j) = 0xFF := by
    intro j hj
    refine foldl_effect_erased hnoprogram (erase_mem_programErases hsector hpos hlt hj) ?_ cells
    have hpos : 0 < g.sectorSize := by omega
    rw [Nat.add_zero, Nat.mul_div_cancel _ hpos]
  have hprogrammed := foldl_programsOf g.sectorSize (Cut.upTo g.pageSize g.page_pos) addr
    src 0 size _ herased i hi
  rw [Nat.add_zero, Nat.zero_add] at hprogrammed
  rw [programEvents, List.foldl_cons, List.foldl_append, List.foldl_append,
    foldl_programLoop hlt hsrc]
  exact hprogrammed

/-- **A request for a programmable range is met**, from memory that stays as it is. -/
lemma programmed_of_programmable (hc : Good b.probe b.lastSector c)
    (hg : g.sectorSize = b.flashInfo.sectorSize ∧ g.pageSize = b.flashInfo.pageSize)
    (hpos : 0 < size) (h : b.Programmable addr size)
    (hlive : ∀ o, ∀ i < size, live o (ramAddr + i) = m.bus (ramAddr + i)) :
    Programmed b m ramAddr addr size c.flash
      (c.performAll (programEvents g live ramAddr addr size)).flash := by
  have hreached := h.reached
  have hle := b.reach_le
  have hsector : g.sectorSize = 0x10000 ∨ g.sectorSize = 0x20000 := hg.1 ▸ b.sectorSize_eq
  have hflash := performAll_flash hc (direct_programEvents live ramAddr hg hpos h)
  rw [← hg.1] at hflash
  refine ⟨by omega, ?_, fun a ha => ?_⟩
  · refine Store.load_eq_load_iff.mpr fun i hi => ?_
    rw [hflash, foldl_programEvents hsector hpos (by omega) hlive c.flash hi]
  · rw [hflash, foldl_effect_of_not_touches]
    rw [← hg.1] at ha
    intro e he htouches
    rcases mem_programEvents hsector hpos (by omega) he with ⟨i, hi, rfl⟩ | ⟨p, hp, rfl⟩ | ⟨p, rfl⟩
    · have hpos : 0 < g.sectorSize := by omega
      refine ha i hi ?_
      have htouches : a / g.sectorSize =
        (addr + i) / g.sectorSize * g.sectorSize / g.sectorSize := htouches
      rwa [Nat.mul_div_cancel _ hpos] at htouches
    · obtain ⟨-, -, hend⟩ := Cut.mem_pieces _ hp
      obtain ⟨hfrom, hto⟩ := htouches
      rw [Store.length_load] at hto
      exact ha (a - addr) (by omega) (by rw [Nat.add_sub_cancel' (by omega)])
    · exact htouches

/-! ### Requests that are not met -/

/-- A chip whose cells are all erased. -/
lemma FmcBoard.exists_erased (b : FmcBoard) :
    ∃ c, FmcChip.Reached b.probe b.lastSector c ∧ c.flash = fun _ => 0xFF := by
  rcases b.cases with ⟨hnand, -⟩ | ⟨hnor, -⟩
  · obtain ⟨n, hreached, -, harray, -⟩ :=
      exists_reached_nand hnand b.lastSector (fun _ _ => 0xFF) fun _ => 0xFF
    refine ⟨.nand n, hreached, ?_⟩
    rw [flash, harray]
  · obtain ⟨n, hreached, -, -, hcells⟩ := exists_reached_nor hnor b.lastSector fun _ => 0xFF
    exact ⟨.nor n, hreached, hcells⟩

/-- A RAM of neutral bytes, but for one. -/
def ramWithZero (a : ℕ) : Machine where
  bus i := if i = a then 0 else 0xFF
  reg _ := 0
  flash _ := 0xFF
  stray _ _ := 0
  emmcFails _ := false

/-- A chip that is never at fault. -/
def faultlessChip : Chip := ⟨fun _ => true, fun _ => (0, 0, 0), fun _ => 0xFF⟩

/-- Erases are answered. -/
lemma answered_programEvents (hc : Good b.probe b.lastSector c)
    (hg : g.sectorSize = b.flashInfo.sectorSize) :
    c.Answered faultlessChip (programEvents g live ramAddr addr size) := by
  refine answered_of_eraseOk hc (fun a ha => ?_) fun _ => rfl
  rw [programEvents, List.mem_cons, List.mem_append, List.mem_append, List.mem_singleton] at ha
  rcases ha with ha | ha | ha | ha
  · cases ha
  · rw [programErases, mem_erasesOf] at ha
    obtain ⟨i, -, ha | ha⟩ := ha
    · cases ha
      rw [← hg]
      refine ⟨Nat.mod_lt _ (by decide), ?_⟩
      rcases hg ▸ b.sectorSize_eq with hsector | hsector
      · rw [hsector, add32]
        omega
      · rw [hsector, add32]
        omega
    · cases ha
  · obtain ⟨p, -, ha⟩ := List.mem_flatMap.mp ha
    rcases List.mem_cons.mp ha with ha | ha
    · cases ha
    · split at ha
      · cases List.mem_singleton.mp ha
      · cases ha
  · cases ha

/-- A sound request is met by the events of the handler. -/
lemma ProgramSound.programmed (h : ProgramSound b ramAddr addr size) (hg : b.geometry = some g)
    (hsector : g.sectorSize = b.flashInfo.sectorSize)
    (haccepting : Accepting b.toBoard g.size ramAddr addr size) {m : Machine}
    (hlive : b.LiveBus m live) (hc : FmcChip.Reached b.probe b.lastSector c) :
    Programmed b m ramAddr addr size c.flash
      (c.performAll (programEvents g live ramAddr addr size)).flash := by
  have hevents := handleFlashProgram_programRequest m live faultlessChip hg haccepting fun _ => rfl
  have hprogrammed := h m live faultlessChip _ c
    (programFields_programRequest (m := m) haccepting) hc hlive
  rw [hevents] at hprogrammed
  exact hprogrammed (answered_programEvents hc.good hsector) endsOk_programEvents

/-- When no piece that holds a cell can program it, the cell is spared. -/
lemma spares_programEvents
    (hg : g.sectorSize = b.flashInfo.sectorSize ∧ g.pageSize = b.flashInfo.pageSize)
    (hlt : addr + size ≤ b.flashInfo.size) (hsize : b.flashInfo.size ≤ 2 ^ 27) {j : ℕ}
    (hj : j < size)
    (hspared : ∀ p ∈ (Cut.upTo g.pageSize g.page_pos).pieces 0 size, p.1 ≤ j → j < p.1 + p.2 →
      (addr + p.1 < b.reach ∧
          (addr + j) / b.flashInfo.pageSize ≠ (addr + p.1) / b.flashInfo.pageSize) ∨
        (b.flashInfo.flashType = .nor ∧ norReach b.lastSector ≤ addr + j)) :
    ∀ e ∈ programEvents g (fun _ => (ramWithZero (ramAddr + j)).bus) ramAddr addr size,
      e.Spares b (addr + j) := by
  intro e he
  rcases mem_programEvents (hg.1 ▸ b.sectorSize_eq) (by omega) (by omega) he with
    ⟨i, hi, rfl⟩ | ⟨p, hp, rfl⟩ | ⟨p, rfl⟩
  · have hdown := Nat.div_mul_le_self (addr + i) g.sectorSize
    exact show _ < b.flashInfo.size by omega
  · obtain ⟨-, hlen, hend⟩ := Cut.mem_pieces _ hp
    refine ⟨fun hnil => ?_, show _ < b.flashInfo.size by omega, ?_⟩
    · have hlength := congrArg List.length hnil
      rw [Store.length_load, List.length_nil] at hlength
      omega
    · by_cases hholds : p.1 ≤ j ∧ j < p.1 + p.2
      · exact .inr (hspared p hp hholds.1 hholds.2)
      · refine .inl fun x hx => ?_
        obtain ⟨i, hi, rfl⟩ := List.mem_map.mp hx
        have hi := List.mem_range.mp hi
        exact if_neg (by omega)
  · trivial

/-- **A request is not met** when a cell is spared. -/
lemma not_programSound_of_spared (hg : b.geometry = some g)
    (hsector : g.sectorSize = b.flashInfo.sectorSize)
    (haccepting : Accepting b.toBoard g.size ramAddr addr size) {j : ℕ} (hj : j < size)
    (hspares : ∀ e ∈ programEvents g (fun _ => (ramWithZero (ramAddr + j)).bus) ramAddr addr size,
      e.Spares b (addr + j)) : ¬ ProgramSound b ramAddr addr size := by
  intro h
  obtain ⟨c, hc, hflash⟩ := b.exists_erased
  have hprogrammed := h.programmed hg hsector haccepting (m := ramWithZero (ramAddr + j))
    (fun _ _ _ => rfl) hc
  have hdata := Store.load_eq_load_iff.mp hprogrammed.data j hj
  rw [performAll_spares hc.good hspares (congrFun hflash _)] at hdata
  exact absurd (hdata.trans (if_pos rfl)) (by decide : (0xFF : UInt8) ≠ 0)

/-- The first piece is the only one before its end. -/
lemma eq_zero_of_mem_pieces (c : Cut) {n j : ℕ} {p : ℕ × ℕ} (hp : p ∈ c.pieces 0 n)
    (hn : 0 < n) (hle : p.1 ≤ j) (hj : j < c.first 0 n) : p.1 = 0 := by
  rw [c.pieces_of_pos 0 hn, List.mem_cons] at hp
  rcases hp with rfl | hp
  · rfl
  · have hfrom := (c.mem_pieces hp).1
    omega

/-- **A sound request is programmable**, when it is accepted, -/
lemma ProgramSound.programmable (h : ProgramSound b ramAddr addr size)
    (haccepting : Accepting b.toBoard b.flashInfo.size ramAddr addr size) :
    b.Programmable addr size := by
  obtain ⟨g, hg, hsize, hsector, hpage⟩ := b.exists_geometry
  rw [← hsize] at haccepting
  have hpos := Nat.pos_of_ne_zero haccepting.size_ne
  have hinside : addr + size ≤ b.flashInfo.size := by
    obtain ⟨c, hc, -⟩ := b.exists_erased
    exact (h.programmed hg hsector haccepting (m := ramWithZero 0) (fun _ _ _ => rfl) hc).inside
  have hbounds : b.flashInfo.size ≤ 2 ^ 27 := by
    rcases b.sizes with ⟨-, -, hsize, -⟩ | ⟨-, -, -, hsize, -⟩
    · omega
    · omega
  have hreached : addr + size ≤ b.reach := by
    -- the last byte of a range that is too far on a NOR goes nowhere
    by_contra hfar
    have hnor : b.flashInfo.flashType = .nor ∧ norReach b.lastSector ≤ addr + (size - 1) := by
      rw [FmcBoard.reach] at hfar
      split at hfar
      · rename_i hnor
        exact ⟨hnor, by omega⟩
      · exact absurd hinside hfar
    exact not_programSound_of_spared hg hsector haccepting (Nat.sub_lt hpos Nat.one_pos)
      (spares_programEvents ⟨hsector, hpage⟩ hinside hbounds (Nat.sub_lt hpos Nat.one_pos)
        fun _ _ _ _ => .inr hnor) h
  refine ⟨hreached, ?_⟩
  -- the first byte behind the page of the first piece goes nowhere
  by_contra hcross
  rw [not_or] at hcross
  rw [← hpage] at hcross
  have hmod := Nat.mod_lt addr g.page_pos
  have hj : g.pageSize - addr % g.pageSize < size := by omega
  have hnext : (addr + (g.pageSize - addr % g.pageSize)) / g.pageSize = addr / g.pageSize + 1 := by
    have hsplit := Nat.mod_add_div addr g.pageSize
    rw [show addr + (g.pageSize - addr % g.pageSize) = g.pageSize * (addr / g.pageSize + 1) by
      rw [Nat.mul_add]
      omega]
    exact Nat.mul_div_cancel_left _ g.page_pos
  refine not_programSound_of_spared hg hsector haccepting hj
    (spares_programEvents ⟨hsector, hpage⟩ hinside hbounds hj fun p hp hle _ => .inl ?_) h
  have hfirst : g.pageSize - addr % g.pageSize < (Cut.upTo g.pageSize g.page_pos).first 0 size := by
    simp only [Cut.upTo]
    split
    · omega
    · omega
  rw [eq_zero_of_mem_pieces _ hp hpos hle hfirst, ← hpage, Nat.add_zero, hnext]
  exact ⟨by omega, Nat.succ_ne_self _⟩

/-- and its source stays as it is. -/
lemma ProgramSound.keeps (h : ProgramSound b ramAddr addr size)
    (haccepting : Accepting b.toBoard b.flashInfo.size ramAddr addr size) :
    ∀ i < size, b.Keeps (ramAddr + i) := by
  have hprogrammable := h.programmable haccepting
  obtain ⟨g, hg, hsize, hsector, hpage⟩ := b.exists_geometry
  rw [← hsize] at haccepting
  have hpos := Nat.pos_of_ne_zero haccepting.size_ne
  have hle := b.reach_le.2
  have hreached := hprogrammable.reached
  intro j hj
  -- a byte that does not stay may be cleared behind the checksum
  by_contra hkeeps
  obtain ⟨c, hc, -⟩ := b.exists_erased
  let cleared : ℕ → Store UInt8 := fun _ => (ramWithZero (ramAddr + j)).bus
  let neutral : Machine := { ramWithZero 0 with bus := fun _ => 0xFF }
  have hlive : b.LiveBus neutral cleared := by
    intro o a ha
    refine if_neg ?_
    rintro rfl
    exact hkeeps ha
  have hprogrammed := h.programmed hg hsector haccepting hlive hc
  have hdata := Store.load_eq_load_iff.mp hprogrammed.data j hj
  have hsrc : ∀ o, ∀ i < size, cleared o (ramAddr + i) =
      (fun i => (ramWithZero (ramAddr + j)).bus (ramAddr + i)) i := fun _ _ _ => rfl
  have hflash := performAll_flash hc.good (direct_programEvents cleared ramAddr ⟨hsector, hpage⟩
    hpos hprogrammable)
  rw [← hsector] at hflash
  rw [hflash, foldl_programEvents (hsector ▸ b.sectorSize_eq) hpos (by omega) hsrc c.flash hj]
    at hdata
  exact absurd ((if_pos rfl).symm.trans hdata) (by decide : (0 : UInt8) ≠ 0xFF)

/-- **A programmable request is sound**, from memory that stays as it is. -/
lemma programSound_of_programmable
    (h : Accepting b.toBoard b.flashInfo.size ramAddr addr size →
      b.Programmable addr size ∧ ∀ i < size, b.Keeps (ramAddr + i)) :
    ProgramSound b ramAddr addr size := by
  obtain ⟨g, hg, hsize, hsector, hpage⟩ := b.exists_geometry
  rw [← hsize] at h
  intro m live chip data c hfields hc hlive _ hends
  obtain ⟨haccepting, hevents⟩ := endsOk_handleFlashProgram hg hfields hends
  obtain ⟨hprogrammable, hkeeps⟩ := h haccepting
  rw [hevents]
  exact programmed_of_programmable hc.good ⟨hsector, hpage⟩
    (Nat.pos_of_ne_zero haccepting.size_ne) hprogrammable fun o i hi => hlive o _ (hkeeps i hi)

/-- **The last `ACK_OK` of a request** can be trusted exactly when the range lies where the driver
reaches, starts at a page or ends before the next one, and the source is memory that stays as it is,
or when the request is refused. -/
theorem flash_program_sound_iff (b : FmcBoard) (ramAddr addr size : ℕ) :
    ProgramSound b ramAddr addr size ↔
      (Accepting b.toBoard b.flashInfo.size ramAddr addr size →
        b.Programmable addr size ∧ ∀ i < size, b.Keeps (ramAddr + i)) :=
  ⟨fun h haccepting => ⟨h.programmable haccepting, h.keeps haccepting⟩,
    programSound_of_programmable⟩

lemma hi3516ev300_fmc100 : hi3516ev300.spiDriver = .fmc100 := rfl

/-- A camera with a NOR of 16 MiB, and an agent with its stack and its variables around its load
address. -/
def camera : FmcBoard where
  soc := hi3516ev300
  soc_mem := hi3516ev300_mem
  probe := ⟨0x100, fun _ => (0xEF, 0x40, 0x18), none⟩
  fmc := hi3516ev300_fmc100
  found := rfl
  lastSector := 255
  own a := 0x40FF0000 ≤ a ∧ a < 0x41800000

/-- A page programmed from its middle: the second half is lost, and the last `ACK_OK` is sent. -/
theorem flash_program_loses_second_half :
    Accepting camera.toBoard camera.flashInfo.size 0x42000000 128 256 ∧
      ¬ ProgramSound camera 0x42000000 128 256 := by
  have haccepting : Accepting camera.toBoard camera.flashInfo.size 0x42000000 128 256 :=
    ⟨by decide, by decide, by decide, by decide, by decide, by decide⟩
  refine ⟨haccepting, fun h => ?_⟩
  rcases (h.programmable haccepting).paged with hpage | hpage
  · exact absurd hpage (by decide)
  · exact absurd hpage (by decide)

end Requests

end Defib
