import Defib.Agent.MemoryRead

/-!
# What a read should return, and when it does

`addressedMedium` is the abstract reading of the whitelist: the medium a range addresses is that
of the first clause of `addr_readable` it satisfies, and `Medium.cells` are its bytes.  The loop
of `handle_read` decides anew, by other tests and on the start address alone, how to fetch.

For each way of fetching this module settles when the two agree whatever the memory holds:
`sent_io_iff` for word access, `sent_emmc_iff` for cards, `sent_flash_iff` for the SPI drivers.
`ReadFaithful` collects the conditions.
-/

namespace Defib

/-! ## The addressed medium -/

/-- What an address range can address. -/
inductive Medium
  | ram
  | io
  | bootrom
  | flash
  deriving DecidableEq, Repr

/-- The medium of the first clause of `addr_readable` that admits the range. -/
def addressedMedium (b : Board) (addr size : ℕ) : Option Medium :=
  if size = 0 ∨ add32 addr size ≤ addr then none
  else if inRange addr size b.soc.ramBase (128 * 1024 * 1024) then some .ram
  else if (ioWindows b.soc).any fun w => inRange addr size w.1 w.2 then some .io
  else if b.soc.bootrom.any fun w => inRange addr size w.1 w.2 then some .bootrom
  else if flashWindow b addr size then some .flash
  else none

/-- The byte of a 32-bit register at an address, little endian. -/
def regByte (m : Machine) (a : ℕ) : UInt8 := ⟨((m.reg (a - a % 4)) >>> (a % 4 * 8)).setWidth 8⟩

/-- The bytes of a medium, by bus address. -/
def Medium.cells (b : Board) (m : Machine) : Medium → Store UInt8
  | .ram => m.bus
  | .io => regByte m
  | .bootrom => m.bus
  | .flash => fun a => m.flash (a - b.soc.flashMem)

lemma addrReadable_eq (b : Board) (addr size : ℕ) :
    addrReadable b addr size = (addressedMedium b addr size).isSome := by
  unfold addrReadable addressedMedium
  split_ifs with h₁ h₂ h₃ h₄ h₅
  all_goals simp_all

/-- A range lies in a window, without wrapping. -/
def Inside (addr size : ℕ) (w : ℕ × ℕ) : Prop := w.1 ≤ addr ∧ addr + size ≤ w.1 + w.2

/-- The clause of `addr_readable` that stands for a medium. -/
def Medium.Admits (b : Board) (addr size : ℕ) : Medium → Prop
  | .ram => Inside addr size (b.soc.ramBase, 128 * 1024 * 1024)
  | .io => ∃ w ∈ ioWindows b.soc, Inside addr size w
  | .bootrom => ∃ w ∈ b.soc.bootrom, Inside addr size w
  | .flash => flashWindow b addr size = true

lemma inRange_iff {addr size : ℕ} (h : addr + size < 2 ^ 32) (w : ℕ × ℕ) :
    inRange addr size w.1 w.2 = true ↔ Inside addr size w := by
  simp only [inRange, Inside, add32, Nat.mod_eq_of_lt h, Bool.and_eq_true, decide_eq_true_eq]

/-- **Inversion of the whitelist.** -/
lemma addressedMedium_inv {b : Board} {addr size : ℕ} {md : Medium} (haddr : addr < 2 ^ 32)
    (hsize : size < 2 ^ 32) (h : addressedMedium b addr size = some md) :
    0 < size ∧ addr + size < 2 ^ 32 ∧ md.Admits b addr size := by
  unfold addressedMedium at h
  by_cases hover : size = 0 ∨ add32 addr size ≤ addr
  · simp [hover] at h
  have hpos : 0 < size := by omega
  have hwrap : addr + size < 2 ^ 32 := by
    unfold add32 at hover
    omega
  refine ⟨hpos, hwrap, ?_⟩
  rw [if_neg hover] at h
  split_ifs at h with h₁ h₂ h₃ h₄
  all_goals cases h
  · exact (inRange_iff hwrap _).mp h₁
  · obtain ⟨w, hw, hin⟩ := List.any_eq_true.mp h₂
    exact ⟨w, hw, (inRange_iff hwrap w).mp hin⟩
  · obtain ⟨w, hw, hin⟩ := (Option.any_eq_true ..).mp h₃
    exact ⟨w, hw, (inRange_iff hwrap w).mp hin⟩
  · exact h₄

/-- The register windows lie in the region that is read by words. -/
lemma ioRegion_of_mem_ioWindows (b : Board) {w : ℕ × ℕ} (hw : w ∈ ioWindows b.soc) {addr : ℕ}
    (hlo : w.1 ≤ addr) (hhi : addr < w.1 + w.2) : ioRegion b.soc addr = true := by
  simp only [ioRegion, Bool.or_eq_true, Bool.and_eq_true, decide_eq_true_eq]
  rw [ioWindows, List.mem_append, List.mem_map] at hw
  rcases hw with hw | ⟨base, hbase, rfl⟩
  · simp only [List.mem_cons, List.not_mem_nil, or_false] at hw
    rcases hw with rfl | rfl | rfl | rfl | rfl | rfl
    all_goals
      simp only at hlo hhi
      omega
  · have := b.extra_bases base hbase
    simp only at hlo hhi
    omega

/-- Registers are always read by words. -/
lemma ioRegion_of_addressedMedium {b : Board} {addr size : ℕ} (haddr : addr < 2 ^ 32)
    (hsize : size < 2 ^ 32) (h : addressedMedium b addr size = some .io) :
    ioRegion b.soc addr = true := by
  obtain ⟨hpos, -, w, hw, hlo, hhi⟩ := addressedMedium_inv haddr hsize h
  exact ioRegion_of_mem_ioWindows b hw hlo (by omega)

/-- What is left when neither word access nor the flash window applies is plain memory. -/
lemma addressedMedium_bus {b : Board} {addr size : ℕ} {md : Medium} (haddr : addr < 2 ^ 32)
    (hsize : size < 2 ^ 32) (h : addressedMedium b addr size = some md)
    (hio : ¬ ioRegion b.soc addr = true) (hflash : ¬ flashWindow b addr size = true) :
    md = .ram ∨ md = .bootrom := by
  obtain ⟨-, -, hadmits⟩ := addressedMedium_inv haddr hsize h
  cases md with
  | ram => exact .inl rfl
  | bootrom => exact .inr rfl
  | io => exact absurd (ioRegion_of_addressedMedium haddr hsize h) hio
  | flash => exact absurd hadmits hflash

/-- An SPI flash has at most 128 MiB. -/
lemma size_le_of_ne_emmc {b : Board} (hreadable : b.flashReadable = true)
    (htype : b.flashInfo.flashType ≠ .emmc) : b.flashInfo.size ≤ 2 ^ 27 := by
  rcases b.boot_cases hreadable with hnor | ⟨hnand, -⟩ | ⟨card, -, -, hinfo⟩
  · have := hnor.size_bounds
    omega
  · rw [hnand]
    decide
  · rw [hinfo] at htype
    exact absurd rfl htype

/-- Outside the register region, a range in the window of an SPI flash addresses that flash. -/
lemma addressedMedium_flash {b : Board} {addr size : ℕ} {md : Medium} (haddr : addr < 2 ^ 32)
    (hsize : size < 2 ^ 32) (h : addressedMedium b addr size = some md)
    (hio : ¬ ioRegion b.soc addr = true) (hflash : flashWindow b addr size = true)
    (htype : b.flashInfo.flashType ≠ .emmc) : md = .flash := by
  obtain ⟨hpos, -, hadmits⟩ := addressedMedium_inv haddr hsize h
  simp only [flashWindow, Bool.and_eq_true, decide_eq_true_eq] at hflash
  obtain ⟨⟨hreadable, hge⟩, hle⟩ := hflash
  have hcap := size_le_of_ne_emmc hreadable htype
  have hmap := b.flashMem_add_le
  cases md with
  | flash => rfl
  | io => exact absurd (ioRegion_of_addressedMedium haddr hsize h) hio
  | ram =>
      have hram : b.soc.ramBase ≤ addr := hadmits.1
      omega
  | bootrom =>
      obtain ⟨w, hw, -, hhi⟩ := hadmits
      have hrom := b.bootrom_le w hw
      omega

/-- The register region and the window of a card do not meet. -/
lemma not_emmcPath_of_ioRegion {b : Board} {addr size : ℕ} (hio : ioRegion b.soc addr = true) :
    ¬ emmcPath b addr size = true := by
  intro hemmc
  simp only [emmcPath, flashWindow, Bool.and_eq_true, decide_eq_true_eq] at hemmc
  obtain ⟨⟨hbase, -⟩, ⟨-, hge⟩, -⟩ := hemmc
  have hmap := b.le_flashMem_of_emmc hbase
  simp only [ioRegion, Bool.or_eq_true, Bool.and_eq_true, decide_eq_true_eq] at hio
  omega

/-! ## Word access -/

lemma ioByte_of_lt (m : Machine) {a j : ℕ} (h : a % 4 + j < 4) :
    ioByte m a j = regByte m (a + j) := by
  have hmod : (a + j) % 4 = a % 4 + j := by omega
  have hword : a + j - (a % 4 + j) = a - a % 4 := by omega
  rw [ioByte, regByte, hmod, hword]

lemma ioByte_of_ge (m : Machine) {a j : ℕ} (h : 4 ≤ a % 4 + j) : ioByte m a j = 0 := by
  rw [ioByte, BitVec.ushiftRight_eq_zero (by omega)]
  rfl

lemma ioByte_of_reg_zero {m : Machine} (h : ∀ a, m.reg a = 0#32) (a j : ℕ) : ioByte m a j = 0 := by
  rw [ioByte, h, BitVec.zero_ushiftRight]
  rfl

lemma regByte_of_reg_zero {m : Machine} (h : ∀ a, m.reg a = 0#32) (a : ℕ) : regByte m a = 0 := by
  rw [regByte, h, BitVec.zero_ushiftRight]
  rfl

lemma regByte_of_reg_ones {m : Machine} (h : ∀ a, m.reg a = BitVec.allOnes 32) (a : ℕ) :
    regByte m a = 0xFF := by
  rw [regByte, h]
  have hmod : a % 4 = 0 ∨ a % 4 = 1 ∨ a % 4 = 2 ∨ a % 4 = 3 := by omega
  rcases hmod with hk | hk | hk | hk <;> rw [hk] <;> rfl

/-- When word access reads the right bytes: the range lies inside one word, or it starts on a
word and ends before the second chunk, which starts in the middle of a word, needs a third
byte. -/
def WordAligned (addr size : ℕ) : Prop := addr % 4 + size ≤ 4 ∨ addr % 4 = 0 ∧ size ≤ 1024

instance (addr size : ℕ) : Decidable (WordAligned addr size) := by
  unfold WordAligned
  infer_instance

/-- The machine whose memory and flash hold one byte and whose registers hold one word. -/
def uniform (mem : UInt8) (word : BitVec 32) (cell : UInt8) : Machine where
  bus _ := mem
  reg _ := word
  flash _ := cell
  stray _ _ := 0
  emmcFails _ := false

/-- Every block of the card can be read. -/
def Machine.NoFail (m : Machine) : Prop := ∀ n, m.emmcFails n = false

/-- `sent` is what the medium holds, whatever that is. -/
def SentIs (b : Board) (addr size : ℕ) (md : Medium) : Prop :=
  ∀ m : Machine, m.NoFail → ∀ i < size, sent b m addr size i = md.cells b m (addr + i)

lemma sent_of_ioRegion {b : Board} {addr : ℕ} (hio : ioRegion b.soc addr = true) (m : Machine)
    (size i : ℕ) : sent b m addr size i =
      ioByte m (addr + i / 1022 * 1022 + i % 1022 / 4 * 4) (i % 1022 % 4) := by
  have hlimit : readLimit b addr size = 1022 := if_neg (not_emmcPath_of_ioRegion hio)
  simp only [sent, if_pos hio, hlimit]

lemma sentIs_io_iff {b : Board} {addr size : ℕ} {md : Medium} (hpos : 0 < size)
    (hio : ioRegion b.soc addr = true) :
    SentIs b addr size md ↔ md = .io ∧ WordAligned addr size := by
  constructor
  · intro h
    have hmd : md = .io := by
      have h0 := h (uniform 1 0 1) (fun _ => rfl) 0 hpos
      rw [sent_of_ioRegion hio, ioByte_of_reg_zero (fun _ => rfl)] at h0
      cases md with
      | io => rfl
      | ram => cases h0
      | bootrom => cases h0
      | flash => cases h0
    refine ⟨hmd, ?_⟩
    subst hmd
    by_contra hbad
    -- the first byte whose shift leaves the word
    obtain ⟨i, hi, hge⟩ : ∃ i < size,
        4 ≤ (addr + i / 1022 * 1022 + i % 1022 / 4 * 4) % 4 + i % 1022 % 4 := by
      unfold WordAligned at hbad
      rcases Nat.eq_zero_or_pos (addr % 4) with hz | hp
      · exact ⟨1024, by omega, by omega⟩
      · exact ⟨4 - addr % 4, by omega, by omega⟩
    have h1 := h (uniform 0 (BitVec.allOnes 32) 0) (fun _ => rfl) i hi
    rw [sent_of_ioRegion hio, ioByte_of_ge _ hge] at h1
    have hff : regByte (uniform 0 (BitVec.allOnes 32) 0) (addr + i) = 0xFF :=
      regByte_of_reg_ones (fun _ => rfl) _
    exact absurd (h1.trans hff) (by decide)
  · rintro ⟨rfl, halign⟩ m - i hi
    have hlt : (addr + i / 1022 * 1022 + i % 1022 / 4 * 4) % 4 + i % 1022 % 4 < 4 := by
      unfold WordAligned at halign
      omega
    have hpos' : addr + i / 1022 * 1022 + i % 1022 / 4 * 4 + i % 1022 % 4 = addr + i := by
      omega
    rw [sent_of_ioRegion hio, ioByte_of_lt m hlt, hpos']
    rfl

/-! ## Cards -/

/-- The machine whose flash is zero but for one cell. -/
def marked (cell : ℕ) : Machine where
  bus _ := 0
  reg _ := 0
  flash a := if a = cell then 1 else 0
  stray _ _ := 0
  emmcFails _ := false

lemma sent_of_emmcPath {b : Board} {addr size : ℕ} (hio : ¬ ioRegion b.soc addr = true)
    (hemmc : emmcPath b addr size = true) {card : EmmcCard} (hcard : b.probe.emmc = some card)
    (m : Machine) (i : ℕ) :
    sent b m addr size i = m.flash (emmcCell card (addr - b.soc.flashMem) i) := by
  simp only [sent, if_neg hio, if_pos hemmc, hcard]

lemma emmcCell_highCapacity {card : EmmcCard} (hhc : card.highCapacity = true) {off : ℕ}
    (hoff : off % 512 = 0) (i : ℕ) : emmcCell card off i = off + i := by
  simp only [emmcCell, hhc, if_true]
  omega

lemma sentIs_emmc_iff {b : Board} {addr size : ℕ} {md : Medium} (hpos : 0 < size)
    (hio : ¬ ioRegion b.soc addr = true) (hemmc : emmcPath b addr size = true)
    {card : EmmcCard} (hcard : b.probe.emmc = some card)
    (hoff : (addr - b.soc.flashMem) % 512 = 0) (hsize : size % 512 = 0) :
    SentIs b addr size md ↔
      md = .flash ∧ (card.highCapacity = true ∨ addr = b.soc.flashMem ∧ size = 512) := by
  have hge : b.soc.flashMem ≤ addr := by
    simp only [emmcPath, flashWindow, Bool.and_eq_true, decide_eq_true_eq] at hemmc
    exact hemmc.2.1.2
  constructor
  · intro h
    have hmd : md = .flash := by
      have h0 := h (uniform 0 0 1) (fun _ => rfl) 0 hpos
      rw [sent_of_emmcPath hio hemmc hcard] at h0
      cases md with
      | flash => rfl
      | ram => cases h0
      | bootrom => cases h0
      | io =>
          have hzero : regByte (uniform 0 0 1) (addr + 0) = 0 :=
            regByte_of_reg_zero (fun _ => rfl) _
          exact absurd (h0.trans hzero) (by simp [uniform])
    refine ⟨hmd, ?_⟩
    subst hmd
    by_contra hbad
    rw [not_or] at hbad
    obtain ⟨hsc, hfirst⟩ := hbad
    -- a cell the medium has at `i` must be the one that is sent there
    have hcell : ∀ i < size,
        emmcCell card (addr - b.soc.flashMem) i = addr + i - b.soc.flashMem := by
      intro i hi
      have hi' := h (marked (addr + i - b.soc.flashMem)) (fun _ => rfl) i hi
      rw [sent_of_emmcPath hio hemmc hcard] at hi'
      simp only [Medium.cells, marked, if_true] at hi'
      by_contra hne
      rw [if_neg hne] at hi'
      cases hi'
    have hcell0 := hcell 0 hpos
    simp only [emmcCell, if_neg hsc] at hcell0
    by_cases hlong : 512 < size
    · have hcell1 := hcell 512 hlong
      simp only [emmcCell, if_neg hsc] at hcell1
      omega
    · exact hfirst ⟨by omega, by omega⟩
  · rintro ⟨rfl, hcond⟩ m - i hi
    rw [sent_of_emmcPath hio hemmc hcard]
    rcases hcond with hhc | ⟨rfl, rfl⟩
    · rw [emmcCell_highCapacity hhc hoff]
      simp only [Medium.cells]
      congr 1
      omega
    · have hblock : emmcCell card 0 i = i := by
        simp only [emmcCell]
        have : i / 512 = 0 := Nat.div_eq_of_lt hi
        split <;> omega
      simp [Medium.cells, hblock]

/-! ## SPI flashes -/

/-- How far the view of a driver is the chip itself: 16 MiB for a NOR on the FMC100, whose three
address bytes wrap, and 32 MiB on the HISFC350, which has two banks.  NAND pages are addressed
by row, so there is no limit. -/
def viewReach (b : Board) : ℕ :=
  match b.soc.spiDriver with
  | .fmc100 => if b.flashInfo.flashType = .nand then 2 ^ 32 else 2 ^ 24
  | .hisfc350 => 2 ^ 25

lemma view_of_lt {b : Board} (m : Machine) {a : ℕ} (ha : a < viewReach b) :
    view b m a = m.flash a := by
  unfold viewReach at ha
  unfold view
  cases hdriver : b.soc.spiDriver with
  | fmc100 =>
      rw [hdriver] at ha
      by_cases hnand : b.flashInfo.flashType = .nand
      · simp only [if_pos hnand]
      · simp only [if_neg hnand] at ha ⊢
        rw [Nat.mod_eq_of_lt ha]
  | hisfc350 =>
      rw [hdriver] at ha
      simp only at ha ⊢
      by_cases hbank : needsBankSwitch b = true
      · rw [if_pos hbank]
        have hcell : (if a ≥ 0x1000000 then 1 else 0) * 2 ^ 24 + a % 2 ^ 24 = a := by
          split <;> omega
        rw [hcell]
      · rw [if_neg hbank]

/-- Beyond its reach a driver reads some other cell. -/
lemma view_of_ge {b : Board} {a : ℕ} (ha : viewReach b ≤ a) (hsize : a < b.flashInfo.size)
    (hlt : a < 2 ^ 32) : ∃ c, c ≠ a ∧ ∀ m, view b m a = m.flash c := by
  unfold viewReach at ha
  unfold view
  cases hdriver : b.soc.spiDriver with
  | fmc100 =>
      rw [hdriver] at ha
      by_cases hnand : b.flashInfo.flashType = .nand
      · simp only [if_pos hnand] at ha
        omega
      · simp only [if_neg hnand] at ha ⊢
        exact ⟨a % 2 ^ 24, by omega, fun m => rfl⟩
  | hisfc350 =>
      rw [hdriver] at ha
      simp only at ha ⊢
      have hbank : needsBankSwitch b = true := by
        simp only [needsBankSwitch, decide_eq_true_eq]
        omega
      simp only [if_pos hbank]
      refine ⟨_, ?_, fun m => rfl⟩
      split <;> omega

lemma sentIs_flash_iff {b : Board} {addr size : ℕ} (hpos : 0 < size)
    (hio : ¬ ioRegion b.soc addr = true) (hemmc : ¬ emmcPath b addr size = true)
    (hflash : flashWindow b addr size = true) (hwrap : addr + size < 2 ^ 32) :
    SentIs b addr size .flash ↔ addr - b.soc.flashMem + size ≤ viewReach b := by
  have hsent : ∀ (m : Machine) i,
      sent b m addr size i = view b m (addr - b.soc.flashMem + i) := by
    intro m i
    simp only [sent, if_neg hio, if_neg hemmc, if_pos hflash]
  simp only [flashWindow, Bool.and_eq_true, decide_eq_true_eq] at hflash
  obtain ⟨⟨-, hge⟩, hle⟩ := hflash
  constructor
  · intro h
    by_contra hbad
    -- the last byte lies beyond the reach
    have hlast := view_of_ge (b := b) (a := addr - b.soc.flashMem + (size - 1))
      (by omega) (by omega) (by omega)
    obtain ⟨c, hne, hview⟩ := hlast
    have h1 := h (marked (addr - b.soc.flashMem + (size - 1))) (fun _ => rfl) (size - 1) (by omega)
    rw [hsent, hview] at h1
    have hcell : addr + (size - 1) - b.soc.flashMem = addr - b.soc.flashMem + (size - 1) := by
      omega
    simp [Medium.cells, marked, hne, hcell] at h1
  · intro hreach m _ i hi
    rw [hsent, view_of_lt m (by omega)]
    simp only [Medium.cells]
    congr 1
    omega

/-! ## All of them -/

/-- The condition under which `handle_read` returns what the range addresses. -/
def ReadFaithful (b : Board) (addr size : ℕ) : Prop :=
  if ioRegion b.soc addr then
    addressedMedium b addr size = some .io ∧ WordAligned addr size
  else if emmcPath b addr size then
    addressedMedium b addr size = some .flash ∧
      (b.probe.emmc.any EmmcCard.highCapacity = true ∨ addr = b.soc.flashMem ∧ size = 512)
  else if flashWindow b addr size then addr - b.soc.flashMem + size ≤ viewReach b
  else True

instance (b : Board) (addr size : ℕ) : Decidable (ReadFaithful b addr size) := by
  unfold ReadFaithful
  infer_instance

lemma sentIs_iff {b : Board} {addr size : ℕ} {md : Medium} (haddr : addr < 2 ^ 32)
    (hsize : size < 2 ^ 32) (hmd : addressedMedium b addr size = some md)
    (hacc : readAccepted b addr size = true) :
    SentIs b addr size md ↔ ReadFaithful b addr size := by
  obtain ⟨hpos, hwrap, -⟩ := addressedMedium_inv haddr hsize hmd
  unfold ReadFaithful
  by_cases hio : ioRegion b.soc addr = true
  · rw [if_pos hio, sentIs_io_iff hpos hio, hmd, Option.some_inj]
  rw [if_neg hio]
  by_cases hemmc : emmcPath b addr size = true
  · obtain ⟨card, hcard, -⟩ := exists_card hemmc (by omega)
    simp only [readAccepted, hemmc, Bool.true_and, Bool.and_eq_true, Bool.not_eq_true',
      Bool.or_eq_false_iff, decide_eq_false_iff_not, ne_eq, not_not] at hacc
    rw [if_pos hemmc, sentIs_emmc_iff hpos hio hemmc hcard hacc.2.1 hacc.2.2, hmd,
      Option.some_inj, hcard, Option.any_some]
  rw [if_neg hemmc]
  by_cases hflash : flashWindow b addr size = true
  · have htype := flashType_ne_emmc hflash hemmc
    have hmedium := addressedMedium_flash haddr hsize hmd hio hflash htype
    subst hmedium
    rw [if_pos hflash, sentIs_flash_iff hpos hio hemmc hflash hwrap]
  · rw [if_neg hflash, iff_true]
    intro m _ i _
    simp only [sent, if_neg hio, if_neg hemmc, if_neg hflash]
    rcases addressedMedium_bus haddr hsize hmd hio hflash with rfl | rfl <;> rfl

/-- A faithful request is answered with the bytes of its medium. -/
lemma sent_load_of_faithful {b : Board} {addr size : ℕ} {md : Medium} (haddr : addr < 2 ^ 32)
    (hsize : size < 2 ^ 32) (hmd : addressedMedium b addr size = some md)
    (hacc : readAccepted b addr size = true) (hfaith : ReadFaithful b addr size) (m : Machine) :
    (sent b m addr size).load 0 size = (md.cells b m).load addr size := by
  rw [Store.load_eq_load_iff]
  intro i hi
  -- which blocks fail makes no difference to the bytes
  have hsent := (sentIs_iff haddr hsize hmd hacc).mpr hfaith
    { m with emmcFails := fun _ => false } (fun _ => rfl) i hi
  rw [Nat.zero_add]
  cases md <;> exact hsent

end Defib
