import Defib.Agent.MemoryRead

/-!
# Scanning the flash

`handle_scan`: one status and one checksum per sector, sent in batches of up to eight after a
header that announces how many sectors there are.  A batch does not say which sectors it is about;
`scanBatches_eq` says that the batches hold the reports in order.
-/

namespace Defib

/-- `RSP_SCAN`. -/
def rspScan : UInt8 := 0x86

/-- `SCAN_GOOD`. -/
def scanGood : UInt8 := 0x00
/-- `SCAN_EMPTY`. -/
def scanEmpty : UInt8 := 0x01
/-- `SCAN_STUCK_ZERO`. -/
def scanStuckZero : UInt8 := 0x02
/-- `SCAN_STUCK_PAT`. -/
def scanStuckPat : UInt8 := 0x03
/-- `SCAN_UNSTABLE`. -/
def scanUnstable : UInt8 := 0x04
/-- `SCAN_BAD_BLOCK`. -/
def scanBadBlock : UInt8 := 0x06

/-- `SCAN_BATCH_MAX`. -/
def scanBatchMax : ℕ := 8

/-- What the flash shows a scan.  The memory-mapped window is read three times, and an unstable
sector may answer differently each time. -/
structure ScanChip where
  /-- The window during the first checksum. -/
  first : Store UInt8
  /-- The window during the pattern check. -/
  pattern : Store UInt8
  /-- The window during the second checksum. -/
  second : Store UInt8
  /-- `OOB[0]` of page 0 of a block. -/
  oob : ℕ → UInt8

/-- The result for one sector. -/
structure SectorReport where
  status : UInt8
  crc : BitVec 32
  deriving DecidableEq, Repr

/-- `[status:1][crc32:4]`. -/
def SectorReport.pack (r : SectorReport) : List UInt8 := r.status :: packU32 r.crc.toNat

/-! ## One sector -/

/-- The loop of the pattern check, from the second byte on: `all_ff` and `all_same`. -/
def patternLoop (first : UInt8) : List UInt8 → Bool → Bool → Bool × Bool
  | [], allFf, allSame => (allFf, allSame)
  | b :: bs, allFf, allSame =>
      let allFf := if b ≠ 0xFF then false else allFf
      let allSame := if b ≠ first then false else allSame
      if !allFf && !allSame then (allFf, allSame) else patternLoop first bs allFf allSame

/-- The status of a sector with a pattern. -/
def patternStatus : List UInt8 → Option UInt8
  | [] => none
  | first :: bs =>
      let flags := patternLoop first bs (first == 0xFF) true
      if flags.1 then some scanEmpty
      else if flags.2 && first == 0x00 then some scanStuckZero
      else if flags.2 then some scanStuckPat
      else none

/-- `flash_read_oob` of the two drivers: the first byte, or `none` for the error. -/
def flashReadOob (b : Board) (c : ScanChip) (block : ℕ) : Option UInt8 :=
  match b.soc.spiDriver with
  | .fmc100 => if b.flashInfo.flashType = .nand then some (c.oob block) else none
  | .hisfc350 => none

/-- The body of the loop over sectors. -/
def scanSector (b : Board) (m : Machine) (c : ScanChip) (sectorSz s : ℕ) : SectorReport :=
  if b.flashInfo.flashType = .nand then
    if (flashReadOob b c s).any (· ≠ 0xFF) then ⟨scanBadBlock, 0⟩
    else
      let buf := flashRead b m (s * sectorSz) sectorSz
      ⟨(patternStatus buf).getD scanGood, crc32 0 buf⟩
  else
    let crc1 := crc32 0 (c.first.load (s * sectorSz) sectorSz)
    let crc2 := crc32 0 (c.second.load (s * sectorSz) sectorSz)
    ⟨(patternStatus (c.pattern.load (s * sectorSz) sectorSz)).getD
      (if crc2 ≠ crc1 then scanUnstable else scanGood), crc1⟩

/-! ## `handle_scan` -/

/-- `sector_sz`, with its default. -/
def scanSectorSz (b : Board) : ℕ :=
  if b.flashInfo.sectorSize = 0 then 0x10000 else b.flashInfo.sectorSize

/-- `num_sectors`. -/
def scanSectors (b : Board) : ℕ := b.flashInfo.size / scanSectorSz b

/-- The reports of a scan, sector by sector. -/
def scanReports (b : Board) (m : Machine) (c : ScanChip) : List SectorReport :=
  (List.range (scanSectors b)).map (scanSector b m c (scanSectorSz b))

/-- The loop that packs reports into `result_buf` and flushes it when it is full or the last
sector is done. -/
def scanBatches : List UInt8 → List SectorReport → List Packet
  | _, [] => []
  | buf, r :: rs =>
      let buf := buf ++ r.pack
      if buf.length ≥ scanBatchMax * 5 ∨ rs = [] then ⟨rspScan, buf⟩ :: scanBatches [] rs
      else scanBatches buf rs

/-- `handle_scan`. -/
def handleScan (b : Board) (m : Machine) (c : ScanChip) : List Packet :=
  if b.flashReadable = false then [ackPacket ackFlashError]
  else if scanSectors b = 0 then [ackPacket ackFlashError]
  else
    ⟨rspScan, packU32 (scanSectors b)⟩ ::
      (scanBatches [] (scanReports b m c) ++ [ackPacket ackOk])

/-- The agent runs the scan. -/
def Scans (b : Board) : Prop := b.flashReadable = true ∧ scanSectors b ≠ 0

/-- A batch of reports as a packet. -/
def batchPacket (rs : List SectorReport) : Packet := ⟨rspScan, rs.flatMap SectorReport.pack⟩

/-- **The batches hold the reports in order**, at least one each. -/
lemma scanBatches_eq (pending reports : List SectorReport) (h : reports ≠ []) :
    ∃ groups : List (List SectorReport), scanBatches (pending.flatMap SectorReport.pack) reports =
        groups.map batchPacket ∧ groups.flatten = pending ++ reports ∧ ∀ g ∈ groups, g ≠ [] := by
  induction reports generalizing pending with
  | nil => exact absurd rfl h
  | cons r rs ih =>
      have hbuf : pending.flatMap SectorReport.pack ++ r.pack =
          (pending ++ [r]).flatMap SectorReport.pack := by simp
      rw [scanBatches, hbuf]
      by_cases hrs : rs = []
      · subst hrs
        refine ⟨[pending ++ [r]], ?_, by simp, by simp⟩
        simp [scanBatches, batchPacket]
      by_cases hfull : ((pending ++ [r]).flatMap SectorReport.pack).length ≥ scanBatchMax * 5
      · obtain ⟨groups, hbatches, hflatten, hne⟩ := ih [] hrs
        refine ⟨(pending ++ [r]) :: groups, ?_, ?_, ?_⟩
        · simp only [hfull, true_or, if_true, List.map_cons]
          rw [← hbatches]
          rfl
        · rw [List.flatten_cons, hflatten]
          simp
        · simpa using hne
      · obtain ⟨groups, hbatches, hflatten, hne⟩ := ih (pending ++ [r]) hrs
        refine ⟨groups, ?_, by simpa using hflatten, hne⟩
        simp only [hfull, hrs, or_self, if_false]
        exact hbatches

lemma length_scanReports (b : Board) (m : Machine) (c : ScanChip) :
    (scanReports b m c).length = scanSectors b := by
  rw [scanReports, List.length_map, List.length_range]

lemma scanReports_ne_nil {b : Board} (h : Scans b) (m : Machine) (c : ScanChip) :
    scanReports b m c ≠ [] := by
  rw [← List.length_pos_iff, length_scanReports]
  exact Nat.pos_of_ne_zero h.2

/-- The batches of a scan hold its reports in order, and none is empty. -/
lemma scanBatches_of_scans {b : Board} (h : Scans b) (m : Machine) (c : ScanChip) :
    ∃ groups : List (List SectorReport),
      scanBatches [] (scanReports b m c) = groups.map batchPacket ∧
        groups.flatten = scanReports b m c ∧ ∀ g ∈ groups, g ≠ [] :=
  scanBatches_eq [] _ (scanReports_ne_nil h m c)

lemma handleScan_of_scans {b : Board} (h : Scans b) (m : Machine) (c : ScanChip) :
    handleScan b m c = ⟨rspScan, packU32 (scanSectors b)⟩ ::
      (scanBatches [] (scanReports b m c) ++ [ackPacket ackOk]) := by
  rw [handleScan, if_neg (by simp [h.1]), if_neg h.2]

end Defib
