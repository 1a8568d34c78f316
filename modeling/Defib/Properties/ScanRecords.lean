import Defib.Agent.FlashDriver
import Defib.Agent.Scan

/-!
# What the records of a scan say

`handle_scan` reads a NAND through the driver, and a NOR through the memory-mapped window at
`FLASH_MEM`.  The window does not show every sector: it repeats after 1 MiB on some FMC100 SoCs, and
on the HISFC350 it shows the 16 MiB bank that was selected last.  The other commands take the path
of the driver for that reason.

The classification of a sector is right for the bytes it looks at (`patternStatus_cases`), so a
record is right whatever the flash holds exactly when the window shows its sector
(`scan_records_right_iff`).
-/

namespace Defib

/-! ## The memory-mapped window -/

/-- What the window depends on besides the cells. -/
structure WindowState where
  /-- The SoC is one of those whose boot-mode window repeats after 1 MiB. -/
  wraps : Bool
  /-- The bank that was selected last is the high one. -/
  highBank : Bool

/-- The cell that the window shows at an offset, where the drivers say. -/
def mappedCell (b : Board) (w : WindowState) (a : ℕ) : Option ℕ :=
  match b.soc.spiDriver with
  | .fmc100 => if w.wraps then some (a % 2 ^ 20) else if a < 2 ^ 24 then some a else none
  | .hisfc350 =>
      if a < 2 ^ 24 then some ((if needsBankSwitch b && w.highBank then 2 ^ 24 else 0) + a)
      else none

/-- A window that shows what the drivers say. -/
def Shows (b : Board) (w : WindowState) (m : Machine) (window : Store UInt8) : Prop :=
  ∀ a, ∀ c ∈ mappedCell b w a, window a = m.flash c

/-- The cell of a NOR that `flash_read` reads at an address. -/
def readCell (b : Board) (a : ℕ) : ℕ :=
  match b.soc.spiDriver with
  | .fmc100 => a % 2 ^ 24
  | .hisfc350 =>
      if needsBankSwitch b then (if a ≥ 0x1000000 then 1 else 0) * 2 ^ 24 + a % 2 ^ 24 else a

/-- The offset of a sector. -/
def sectorOffset (b : Board) (s : ℕ) : ℕ := s * scanSectorSz b

/-- The flash is a NAND, or the window shows the sector. -/
def Exposed (b : Board) (w : WindowState) (s : ℕ) : Prop :=
  b.flashInfo.flashType = .nand ∨
    match b.soc.spiDriver with
    | .fmc100 =>
        if w.wraps then sectorOffset b s % 2 ^ 24 < 2 ^ 20 else sectorOffset b s < 2 ^ 24
    | .hisfc350 => needsBankSwitch b = true → sectorOffset b s < 2 ^ 24 ∧ w.highBank = false

/-! ## Records -/

/-- A chip that reads the same each time. -/
def stableChip (window : Store UInt8) (oob : ℕ → UInt8) : ScanChip := ⟨window, window, window, oob⟩

/-- The reports of a scan as they are sent, without the header. -/
def scanPayload (packets : List Packet) : List UInt8 :=
  ((packets.filter fun p => p.cmd = rspScan).drop 1).flatMap Packet.data

/-- The five bytes about a sector. -/
def scanRecord (packets : List Packet) (s : ℕ) : List UInt8 :=
  ((scanPayload packets).drop (5 * s)).take 5

/-- The checksum and the status are those of the bytes. -/
structure RecordRight (sector record : List UInt8) : Prop where
  crc : record.tail = packU32 (zlibCrc32 sector).toNat
  empty : record.head? = some scanEmpty ↔ ∀ x ∈ sector, x = 0xFF
  stuckZero : record.head? = some scanStuckZero ↔ ∀ x ∈ sector, x = 0x00
  stuckPattern : record.head? = some scanStuckPat ↔
    ∃ v, v ≠ 0xFF ∧ v ≠ 0x00 ∧ ∀ x ∈ sector, x = v

/-! ## One sector -/

/-- The loop may give up when both flags are down: they are those of all the bytes. -/
lemma patternLoop_eq (first : UInt8) (bs : List UInt8) (allFf allSame : Bool) :
    patternLoop first bs allFf allSame =
      (allFf && bs.all (· == 0xFF), allSame && bs.all (· == first)) := by
  induction bs generalizing allFf allSame with
  | nil => simp [patternLoop]
  | cons b bs ih =>
      have hff : (if b ≠ 0xFF then false else allFf) = (allFf && b == 0xFF) := by
        by_cases h : b = 0xFF <;> simp [h]
      have hsame : (if b ≠ first then false else allSame) = (allSame && b == first) := by
        by_cases h : b = first <;> simp [h]
      rw [patternLoop, hff, hsame, ih, List.all_cons, List.all_cons, ← Bool.and_assoc,
        ← Bool.and_assoc]
      -- where the loop gives up, both conjunctions are false already
      cases allFf && b == 0xFF with
      | true => rfl
      | false =>
          cases allSame && b == first with
          | true => rfl
          | false => rfl

lemma all_beq_iff {xs : List UInt8} {v : UInt8} :
    (xs.all (· == v)) = true ↔ ∀ x ∈ xs, x = v := by
  simp only [List.all_eq_true, beq_iff_eq]

/-- The status of a sector that holds one byte everywhere. -/
def uniformStatus (v : UInt8) : UInt8 :=
  if v = 0xFF then scanEmpty else if v = 0x00 then scanStuckZero else scanStuckPat

lemma uniformStatus_eq_empty_iff {v : UInt8} : uniformStatus v = scanEmpty ↔ v = 0xFF := by
  rw [uniformStatus]
  split_ifs with hff hzero
  · exact iff_of_true rfl hff
  · exact iff_of_false (by decide) hff
  · exact iff_of_false (by decide) hff

lemma uniformStatus_eq_stuckZero_iff {v : UInt8} : uniformStatus v = scanStuckZero ↔ v = 0x00 := by
  rw [uniformStatus]
  split_ifs with hff hzero
  · exact iff_of_false (by decide) (by rw [hff]; decide)
  · exact iff_of_true rfl hzero
  · exact iff_of_false (by decide) hzero

lemma uniformStatus_eq_stuckPat_iff {v : UInt8} :
    uniformStatus v = scanStuckPat ↔ v ≠ 0xFF ∧ v ≠ 0x00 := by
  rw [uniformStatus]
  split_ifs with hff hzero
  · exact iff_of_false (by decide) fun h => h.1 hff
  · exact iff_of_false (by decide) fun h => h.2 hzero
  · exact iff_of_true rfl ⟨hff, hzero⟩

section

variable {sector : List UInt8}

lemma patternStatus_of_uniform (hne : sector ≠ []) {v : UInt8} (h : ∀ x ∈ sector, x = v) :
    patternStatus sector = some (uniformStatus v) := by
  obtain ⟨first, bs, rfl⟩ := List.exists_cons_of_ne_nil hne
  obtain ⟨rfl, hbs⟩ := List.forall_mem_cons.mp h
  have hsame : bs.all (· == first) = true := all_beq_iff.mpr hbs
  simp only [patternStatus, patternLoop_eq, Bool.true_and, hsame, uniformStatus]
  by_cases hff : first = 0xFF
  · rw [hff] at hsame
    simp [hff, hsame]
  · simp only [if_neg hff, beq_false_of_ne hff, Bool.false_and, Bool.false_eq_true, if_false,
      if_true, beq_iff_eq]
    exact (apply_ite some _ _ _).symm

/-- **Sectors without a pattern** are recognised as such. -/
lemma patternStatus_of_mixed (h : ∀ v, ¬ ∀ x ∈ sector, x = v) : patternStatus sector = none := by
  cases sector with
  | nil => rfl
  | cons first bs =>
      have hnot : ∀ v, first = v → bs.all (· == v) = false := by
        rintro v rfl
        rw [← Bool.not_eq_true, all_beq_iff]
        exact fun hbs => h first (List.forall_mem_cons.mpr ⟨rfl, hbs⟩)
      have hsame := hnot first rfl
      have hff : (first == 0xFF && bs.all (· == 0xFF)) = false := by
        rw [Bool.and_eq_false_iff]
        by_cases heq : first = 0xFF
        · exact .inr (hnot 0xFF heq)
        · exact .inl (beq_false_of_ne heq)
      simp only [patternStatus, patternLoop_eq, Bool.true_and, hsame, hff, Bool.false_and,
        Bool.false_eq_true, if_false]

/-- A record with the checksum and the pattern of its bytes is right. -/
lemma recordRight_of_pattern (hne : sector ≠ []) {plain : UInt8}
    (hplain : plain ≠ scanEmpty ∧ plain ≠ scanStuckZero ∧ plain ≠ scanStuckPat) :
    RecordRight sector
      (SectorReport.pack ⟨(patternStatus sector).getD plain, zlibCrc32 sector⟩) := by
  have hstatus : ∀ status, ((SectorReport.pack
      ⟨(patternStatus sector).getD plain, zlibCrc32 sector⟩).head? = some status ↔
        (patternStatus sector).getD plain = status) :=
    fun status => ⟨Option.some.inj, congrArg some⟩
  by_cases huniform : ∃ v, ∀ x ∈ sector, x = v
  · obtain ⟨v, hv⟩ := huniform
    obtain ⟨x, hx⟩ := List.exists_mem_of_ne_nil sector hne
    have hall : ∀ u, (∀ x ∈ sector, x = u) ↔ v = u :=
      fun u => ⟨fun hu => (hv x hx).symm.trans (hu x hx), fun h => h ▸ hv⟩
    have hpattern : (patternStatus sector).getD plain = uniformStatus v := by
      rw [patternStatus_of_uniform hne hv]
      rfl
    refine ⟨rfl, ?_, ?_, ?_⟩
    · rw [hstatus, hpattern, uniformStatus_eq_empty_iff, hall]
    · rw [hstatus, hpattern, uniformStatus_eq_stuckZero_iff, hall]
    · rw [hstatus, hpattern, uniformStatus_eq_stuckPat_iff]
      constructor
      · rintro ⟨hff, hzero⟩
        exact ⟨v, hff, hzero, hv⟩
      · rintro ⟨u, hff, hzero, hu⟩
        rw [(hall u).mp hu]
        exact ⟨hff, hzero⟩
  · have hmixed : ∀ v, ¬ ∀ x ∈ sector, x = v := fun v hv => huniform ⟨v, hv⟩
    have hpattern : (patternStatus sector).getD plain = plain := by
      rw [patternStatus_of_mixed hmixed]
      rfl
    refine ⟨rfl, ?_, ?_, ?_⟩
    · rw [hstatus, hpattern]
      exact iff_of_false hplain.1 (hmixed _)
    · rw [hstatus, hpattern]
      exact iff_of_false hplain.2.1 (hmixed _)
    · rw [hstatus, hpattern]
      refine iff_of_false hplain.2.2 ?_
      rintro ⟨v, -, -, hv⟩
      exact hmixed v hv

end

/-! ## The packets of a scan -/

lemma length_pack (r : SectorReport) : r.pack.length = 5 := rfl

/-- What is sent about the sectors, in their order. -/
lemma scanPayload_handleScan {b : Board} (h : Scans b) (m : Machine) (c : ScanChip) :
    scanPayload (handleScan b m c) = (scanReports b m c).flatMap SectorReport.pack := by
  obtain ⟨groups, hbatches, hflatten, -⟩ := scanBatches_of_scans h m c
  have hkept : (groups.map batchPacket).filter (fun p => p.cmd = rspScan) =
      groups.map batchPacket := by
    rw [List.filter_eq_self]
    intro p hp
    obtain ⟨g, -, rfl⟩ := List.mem_map.mp hp
    rfl
  have hack : [ackPacket ackOk].filter (fun p => p.cmd = rspScan) = [] := rfl
  rw [handleScan_of_scans h, hbatches, scanPayload, List.filter_cons_of_pos rfl,
    List.filter_append, hkept, hack, List.append_nil, List.drop_one, List.tail_cons,
    List.flatMap_map, ← hflatten, List.flatten_eq_flatMap, List.flatMap_assoc]
  rfl

lemma take_drop_flatMap_pack {rs : List SectorReport} {s : ℕ} {r : SectorReport}
    (h : rs[s]? = some r) : ((rs.flatMap SectorReport.pack).drop (5 * s)).take 5 = r.pack := by
  induction rs generalizing s with
  | nil => cases h
  | cons r' rs ih =>
      cases s with
      | zero =>
          obtain rfl := Option.some.inj h
          exact List.take_left' (length_pack r')
      | succ s =>
          have hskip : 5 * (s + 1) = r'.pack.length + 5 * s := by
            rw [length_pack]
            omega
          rw [List.flatMap_cons, hskip, ← List.drop_drop, List.drop_left]
          exact ih h

/-- **The record of a sector** is the report of it. -/
lemma scanRecord_handleScan {b : Board} (h : Scans b) (m : Machine) (c : ScanChip) {s : ℕ}
    (hs : s < scanSectors b) :
    scanRecord (handleScan b m c) s = (scanSector b m c (scanSectorSz b) s).pack := by
  rw [scanRecord, scanPayload_handleScan h]
  apply take_drop_flatMap_pack
  rw [scanReports, List.getElem?_map, List.getElem?_range hs]
  rfl

/-! ## The bytes of a record -/

/-- What the SPI drivers identify. -/
lemma Board.spi_cases {b : Board} (h : b.flashInit.2 = true) :
    b.flashInfo.IsNor ∨ b.flashInfo = nandInfo ∧ b.soc.spiDriver = .fmc100 := by
  have hinfo : b.flashInfo = b.flashInit.1 := congrArg Prod.fst (Board.boot_of_flashInit h)
  rw [hinfo]
  rw [Board.flashInit] at h ⊢
  cases hdriver : b.soc.spiDriver with
  | fmc100 =>
      rw [hdriver] at h
      exact (flashInitFmc100_cases b.probe h).imp_right fun hnand => ⟨hnand, rfl⟩
  | hisfc350 =>
      rw [hdriver] at h
      exact .inl (flashInitHisfc350_isNor b.probe h)

lemma Board.flashReadable_of_flashInit {b : Board} (h : b.flashInit.2 = true) :
    b.flashReadable = true := by
  rw [Board.flashReadable, Board.boot_of_flashInit h, h]

section

variable {b : Board} {w : WindowState} {m : Machine} {s : ℕ}

lemma scanSectorSz_of_nor (hnor : b.flashInfo.IsNor) : scanSectorSz b = 0x10000 := by
  rw [scanSectorSz, hnor.2.1]
  rfl

lemma scanSectorSz_pos (b : Board) : 0 < scanSectorSz b := by
  rw [scanSectorSz]
  split_ifs with h
  · decide
  · exact Nat.pos_of_ne_zero h

lemma scans_of_flashInit (h : b.flashInit.2 = true) : Scans b := by
  refine ⟨Board.flashReadable_of_flashInit h, ?_⟩
  rcases Board.spi_cases h with hnor | ⟨hnand, -⟩
  · have hsize := hnor.size_bounds
    rw [scanSectors, scanSectorSz_of_nor hnor]
    omega
  · rw [scanSectors, scanSectorSz, hnand]
    decide

/-- A sector lies in the flash. -/
lemma sector_le (hs : s < scanSectors b) :
    sectorOffset b s + scanSectorSz b ≤ b.flashInfo.size := by
  have hle := (Nat.le_div_iff_mul_le (scanSectorSz_pos b)).mp (Nat.succ_le_of_lt hs)
  rwa [Nat.succ_mul] at hle

lemma view_of_nor (hnor : b.flashInfo.IsNor) (m : Machine) (a : ℕ) :
    view b m a = m.flash (readCell b a) := by
  rw [view, readCell]
  cases b.soc.spiDriver with
  | fmc100 =>
      have htype : b.flashInfo.flashType ≠ .nand := by
        rw [hnor.1]
        decide
      dsimp only
      rw [if_neg htype]
  | hisfc350 =>
      dsimp only
      cases needsBankSwitch b with
      | true => rw [if_pos rfl, if_pos rfl]
      | false => rw [if_neg Bool.false_ne_true, if_neg Bool.false_ne_true]

lemma flashRead_of_nor (hnor : b.flashInfo.IsNor) (m : Machine) (addr len : ℕ) :
    flashRead b m addr len = Store.load (fun a => m.flash (readCell b a)) addr len := by
  have htype : b.flashInfo.flashType ≠ .emmc := by
    rw [hnor.1]
    decide
  rw [flashRead_eq htype]
  exact Store.load_congr fun a _ _ => view_of_nor hnor m a

lemma not_nand (hnor : b.flashInfo.IsNor) : b.flashInfo.flashType ≠ .nand := by
  rw [hnor.1]
  decide

/-- A byte of one of the first sectors lies below their end. -/
lemma mul_add_lt {s i n k : ℕ} (hi : i < n) (h : s * n < k * n) : s * n + i < k * n := by
  have hs : s < k := Nat.lt_of_mul_lt_mul_right h
  calc
    s * n + i < s * n + n := Nat.add_lt_add_left hi _
    _ = (s + 1) * n := (Nat.succ_mul s n).symm
    _ ≤ k * n := Nat.mul_le_mul_right n hs

/-- **Where a sector is exposed**, the window shows the cells that `flash_read` reads. -/
lemma mappedCell_of_exposed (hnor : b.flashInfo.IsNor) (hs : s < scanSectors b)
    (h : Exposed b w s) {i : ℕ} (hi : i < scanSectorSz b) :
    mappedCell b w (sectorOffset b s + i) = some (readCell b (sectorOffset b s + i)) := by
  have hlast := sector_le hs
  have hexposed := h.resolve_left (not_nand hnor)
  rw [sectorOffset, scanSectorSz_of_nor hnor] at hlast hexposed ⊢
  rw [scanSectorSz_of_nor hnor] at hi
  rw [mappedCell, readCell]
  cases hdriver : b.soc.spiDriver with
  | fmc100 =>
      rw [hdriver] at hexposed
      dsimp only at hexposed ⊢
      cases hwraps : w.wraps with
      | true =>
          rw [hwraps, if_pos rfl] at hexposed
          rw [if_pos rfl]
          refine congrArg some ?_
          omega
      | false =>
          rw [hwraps, if_neg Bool.false_ne_true] at hexposed
          have hlt : s * 0x10000 + i < 2 ^ 24 := mul_add_lt (k := 256) hi hexposed
          rw [if_neg Bool.false_ne_true, if_pos hlt, Nat.mod_eq_of_lt hlt]
  | hisfc350 =>
      rw [hdriver] at hexposed
      dsimp only at hexposed ⊢
      cases hbanked : needsBankSwitch b with
      | true =>
          obtain ⟨hlow, hbank⟩ := hexposed hbanked
          have hlt : s * 0x10000 + i < 2 ^ 24 := mul_add_lt (k := 256) hi hlow
          rw [if_pos hlt, hbank, Bool.and_false, if_neg Bool.false_ne_true, if_pos rfl,
            if_neg (by omega), Nat.mod_eq_of_lt hlt, Nat.zero_mul]
      | false =>
          have hsize := of_decide_eq_false hbanked
          have hlt : s * 0x10000 + i < 2 ^ 24 := by omega
          rw [if_pos hlt, Bool.false_and, if_neg Bool.false_ne_true,
            if_neg Bool.false_ne_true, Nat.zero_add]

/-- **Where it is not**, the window does not show the first cell of the sector at all. -/
lemma mappedCell_ne_of_not_exposed (hnor : b.flashInfo.IsNor) (h : ¬ Exposed b w s) {i : ℕ}
    (hi : i < scanSectorSz b) :
    readCell b (sectorOffset b s) ∉ mappedCell b w (sectorOffset b s + i) := by
  rw [Exposed, not_or] at h
  obtain ⟨-, hhidden⟩ := h
  rw [sectorOffset, scanSectorSz_of_nor hnor] at hhidden ⊢
  rw [scanSectorSz_of_nor hnor] at hi
  rw [mappedCell, readCell, Option.mem_def]
  cases hdriver : b.soc.spiDriver with
  | fmc100 =>
      rw [hdriver] at hhidden
      dsimp only at hhidden ⊢
      cases hwraps : w.wraps with
      | true =>
          rw [hwraps, if_pos rfl] at hhidden
          rw [if_pos rfl, Option.some.injEq]
          omega
      | false =>
          rw [hwraps, if_neg Bool.false_ne_true] at hhidden
          rw [if_neg Bool.false_ne_true, if_neg (fun hlt => hhidden (Nat.lt_of_add_right_lt hlt))]
          exact (Option.some_ne_none _).symm
  | hisfc350 =>
      rw [hdriver] at hhidden
      dsimp only at hhidden ⊢
      rw [Classical.not_imp, not_and, Bool.not_eq_false] at hhidden
      obtain ⟨hbanked, hhigh⟩ := hhidden
      by_cases hlow : s * 0x10000 < 2 ^ 24
      · have hlt : s * 0x10000 + i < 2 ^ 24 := mul_add_lt (k := 256) hi hlow
        rw [if_pos hlt, hbanked, hhigh hlow, Bool.and_self, if_pos rfl, if_pos rfl,
          if_neg (by omega), Option.some.injEq]
        omega
      · rw [if_neg (fun hlt => hlow (Nat.lt_of_add_right_lt hlt))]
        exact (Option.some_ne_none _).symm

/-- A good block of a NAND is read through the driver. -/
lemma scanSector_of_nand (hinfo : b.flashInfo = nandInfo) (hdriver : b.soc.spiDriver = .fmc100)
    (oob : ℕ → UInt8) (window : Store UInt8) (hgood : oob s = 0xFF) :
    scanSector b m (stableChip window oob) (scanSectorSz b) s =
      ⟨(patternStatus (flashRead b m (sectorOffset b s) (scanSectorSz b))).getD scanGood,
        zlibCrc32 (flashRead b m (sectorOffset b s) (scanSectorSz b))⟩ := by
  have htype : b.flashInfo.flashType = .nand := by
    rw [hinfo]
    rfl
  have hmarker : (flashReadOob b (stableChip window oob) s).any (· ≠ 0xFF) = false := by
    rw [flashReadOob, hdriver]
    dsimp only
    rw [if_pos htype]
    change Option.any _ (some (oob s)) = false
    rw [hgood]
    rfl
  rw [scanSector, if_pos htype, hmarker, if_neg Bool.false_ne_true]
  dsimp only
  rw [crc32_zero]
  rfl

/-- A NOR is read through the window. -/
lemma scanSector_of_nor (hnor : b.flashInfo.IsNor) (oob : ℕ → UInt8) (window : Store UInt8) :
    scanSector b m (stableChip window oob) (scanSectorSz b) s =
      ⟨(patternStatus (window.load (sectorOffset b s) (scanSectorSz b))).getD scanGood,
        zlibCrc32 (window.load (sectorOffset b s) (scanSectorSz b))⟩ := by
  rw [scanSector, if_neg (not_nand hnor)]
  simp only [stableChip, crc32_zero, ne_eq, not_true_eq_false, if_false]
  rfl

lemma load_ne_nil (window : Store UInt8) (a : ℕ) (b : Board) :
    window.load a (scanSectorSz b) ≠ [] := by
  rw [← List.length_pos_iff, Store.length_load]
  exact scanSectorSz_pos b

lemma scanGood_plain :
    scanGood ≠ scanEmpty ∧ scanGood ≠ scanStuckZero ∧ scanGood ≠ scanStuckPat := by
  decide

/-- **An exposed sector** has a right record, whatever the flash holds. -/
lemma recordRight_of_exposed (hspi : b.flashInit.2 = true) (hs : s < scanSectors b)
    {oob : ℕ → UInt8} (hgood : b.flashInfo.flashType = .nand → oob s = 0xFF)
    {window : Store UInt8} (hshows : Shows b w m window) (h : Exposed b w s) :
    RecordRight (flashRead b m (sectorOffset b s) (scanSectorSz b))
      (scanRecord (handleScan b m (stableChip window oob)) s) := by
  rw [scanRecord_handleScan (scans_of_flashInit hspi) m _ hs]
  rcases Board.spi_cases hspi with hnor | ⟨hinfo, hdriver⟩
  · have hread : window.load (sectorOffset b s) (scanSectorSz b) =
        flashRead b m (sectorOffset b s) (scanSectorSz b) := by
      rw [flashRead_of_nor hnor, Store.load_eq_load_iff]
      intro i hi
      exact hshows _ _ (mappedCell_of_exposed hnor hs h hi)
    rw [scanSector_of_nor hnor, ← hread]
    exact recordRight_of_pattern (load_ne_nil _ _ b) scanGood_plain
  · have htype : b.flashInfo.flashType = .nand := by
      rw [hinfo]
      rfl
    have hne : flashRead b m (sectorOffset b s) (scanSectorSz b) ≠ [] := by
      rw [flashRead_eq (by rw [htype]; decide)]
      exact load_ne_nil _ _ b
    rw [scanSector_of_nand hinfo hdriver oob window (hgood htype)]
    exact recordRight_of_pattern hne scanGood_plain

/-- A record that reports an erased sector is wrong if the sector is not. -/
lemma not_recordRight_of_erased (hspi : b.flashInit.2 = true) (hnor : b.flashInfo.IsNor)
    (hs : s < scanSectors b) {oob : ℕ → UInt8} {window : Store UInt8}
    (herased : ∀ i < scanSectorSz b, window (sectorOffset b s + i) = 0xFF)
    (hheld : m.flash (readCell b (sectorOffset b s)) ≠ 0xFF) :
    ¬ RecordRight (flashRead b m (sectorOffset b s) (scanSectorSz b))
      (scanRecord (handleScan b m (stableChip window oob)) s) := by
  have huniform : ∀ x ∈ window.load (sectorOffset b s) (scanSectorSz b), x = 0xFF := by
    intro x hx
    obtain ⟨i, hi, rfl⟩ := List.mem_map.mp hx
    exact herased i (List.mem_range.mp hi)
  rw [scanRecord_handleScan (scans_of_flashInit hspi) m _ hs, scanSector_of_nor hnor,
    patternStatus_of_uniform (load_ne_nil _ _ b) huniform, flashRead_of_nor hnor]
  intro hright
  have hall := hright.empty.mp rfl
  exact hheld (hall _ (List.mem_map.mpr ⟨0, List.mem_range.mpr (scanSectorSz_pos b), rfl⟩))

end

/-- **When a scan can be believed.**  Whatever a flash holds that the SPI drivers can identify, and
whatever the window shows where the drivers do not say, the record of a sector that is no bad block
is right exactly when the flash is a NAND or the window exposes the sector. -/
theorem scan_records_right_iff (b : Board) (hspi : b.flashInit.2 = true) (w : WindowState)
    (oob : ℕ → UInt8) {s : ℕ} (hs : s < scanSectors b)
    (hgood : b.flashInfo.flashType = .nand → oob s = 0xFF) :
    (∀ m window, Shows b w m window →
        RecordRight (flashRead b m (sectorOffset b s) (scanSectorSz b))
          (scanRecord (handleScan b m (stableChip window oob)) s)) ↔
      Exposed b w s := by
  constructor
  · intro hright
    by_contra hhidden
    have hnor := (Board.spi_cases hspi).resolve_right fun h => hhidden (.inl (by rw [h.1]; rfl))
    -- a flash that is erased but for the first byte of the sector, behind a window without it
    let cell := readCell b (sectorOffset b s)
    let m : Machine := ⟨fun _ => 0, fun _ => 0, fun c => if c = cell then 0x00 else 0xFF,
      fun _ _ => 0, fun _ => false⟩
    let window : Store UInt8 := fun a => ((mappedCell b w a).map m.flash).getD 0xFF
    have hshows : Shows b w m window := by
      intro a c hc
      change ((mappedCell b w a).map m.flash).getD 0xFF = m.flash c
      rw [Option.mem_def.mp hc]
      rfl
    refine not_recordRight_of_erased hspi hnor hs (fun i hi => ?_) ?_ (hright m window hshows)
    · have hnot := mappedCell_ne_of_not_exposed hnor hhidden hi
      change ((mappedCell b w (sectorOffset b s + i)).map m.flash).getD 0xFF = 0xFF
      cases hcell : mappedCell b w (sectorOffset b s + i) with
      | none => rfl
      | some c =>
          rw [hcell] at hnot
          exact if_neg fun heq => hnot (congrArg some heq)
    · change (if cell = cell then (0x00 : UInt8) else 0xFF) ≠ 0xFF
      rw [if_pos rfl]
      decide
  · intro hexposed m window hshows
    exact recordRight_of_exposed hspi hs hgood hshows hexposed

/-- A hi3516ev300 with 16 MiB of NOR. -/
def evNorBoard : Board := norBoard hi3516ev300 hi3516ev300_mem

/-- A flash that is erased but for the byte at 1 MiB. -/
def farByte : Machine :=
  ⟨fun _ => 0, fun _ => 0, fun c => if c = 2 ^ 20 then 0x00 else 0xFF, fun _ _ => 0, fun _ => false⟩

/-- The sector behind the first MiB is reported as erased. -/
theorem scan_record_wraps :
    evNorBoard.flashInit.2 = true ∧ 16 < scanSectors evNorBoard ∧
      Shows evNorBoard ⟨true, false⟩ farByte (fun a => farByte.flash (a % 2 ^ 20)) ∧
      ¬ RecordRight
        (flashRead evNorBoard farByte (sectorOffset evNorBoard 16) (scanSectorSz evNorBoard))
        (scanRecord (handleScan evNorBoard farByte
          (stableChip (fun a => farByte.flash (a % 2 ^ 20)) fun _ => 0xFF)) 16) := by
  have hspi : evNorBoard.flashInit.2 = true := by decide
  have hsectors : 16 < scanSectors evNorBoard := by decide
  have hnor : evNorBoard.flashInfo.IsNor := norInfo_isNor 0x18
  refine ⟨hspi, hsectors, ?_, not_recordRight_of_erased hspi hnor hsectors (fun i hi => ?_) ?_⟩
  · intro a c hc
    exact congrArg farByte.flash (Option.some.inj hc)
  · rw [scanSectorSz_of_nor hnor] at hi
    rw [sectorOffset, scanSectorSz_of_nor hnor]
    refine if_neg ?_
    omega
  · decide

theorem scan_records_right_iff_first :
    (∀ m window, Shows evNorBoard ⟨true, false⟩ m window →
        RecordRight (flashRead evNorBoard m (sectorOffset evNorBoard 0) (scanSectorSz evNorBoard))
          (scanRecord (handleScan evNorBoard m (stableChip window fun _ => 0xFF)) 0)) ↔
      Exposed evNorBoard ⟨true, false⟩ 0 :=
  scan_records_right_iff evNorBoard (by decide) ⟨true, false⟩ (fun _ => 0xFF) (by decide)
    fun _ => rfl

end Defib
