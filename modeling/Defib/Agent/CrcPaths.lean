import Defib.Agent.ReadPaths

/-!
# The checksum of a range

`handle_crc32_cmd` repeats the checks of `handle_read` but not its choices: it knows no word
access, no NAND and no card, and it tests the flash window in 32 bits.  Where none of that
matters its result is the checksum of the bytes `handle_read` sends (`crcOf_eq`); everywhere else
there are two memories it cannot tell apart although their replies differ in the first byte alone
(`crcBlind`).
-/

namespace Defib

/-- Whatever `CMD_READ` accepts, `CMD_CRC32` accepts. -/
lemma handleCrc32Cmd_of_accepted {b : Board} {data : List UInt8} (hlen : 8 ≤ data.length)
    (hacc : readAccepted b (readLe32 data) (readLe32 (data.drop 4)) = true) (m : Machine) :
    handleCrc32Cmd b m data =
      [⟨rspCrc32, packU32 (crcOf b m (readLe32 data) (readLe32 (data.drop 4))).toNat⟩] := by
  simp only [readAccepted, Bool.and_eq_true, decide_eq_true_eq, ne_eq] at hacc
  obtain ⟨⟨⟨hpos, hmax⟩, hread⟩, -⟩ := hacc
  rw [handleCrc32Cmd, if_neg (by omega)]
  simp only
  rw [if_neg (by rw [hread]; simp only [Bool.true_eq_false, or_false]; omega)]

lemma packU32_toNat_inj {c d : BitVec 32} (h : packU32 c.toNat = packU32 d.toNat) : c = d := by
  have := congrArg readLe32 h
  rw [readLe32_packU32, readLe32_packU32, Nat.mod_eq_of_lt c.isLt, Nat.mod_eq_of_lt d.isLt] at this
  exact BitVec.eq_of_toNat_eq this

/-- Outside the 64-bit window the 32-bit test fails as well, even when its bound wraps. -/
lemma flashWindow_of_crcWindow {b : Board} {addr size : ℕ} (hwrap : addr + size < 2 ^ 32)
    (h : crcWindow b addr size = true) : flashWindow b addr size = true := by
  simp only [crcWindow, flashWindow, Bool.and_eq_true, decide_eq_true_eq] at h ⊢
  obtain ⟨⟨hreadable, hge⟩, hle⟩ := h
  have hmap := b.flashMem_add_le
  have hcap := b.flashInfo_size_lt hreadable
  refine ⟨⟨hreadable, hge⟩, ?_⟩
  unfold add32 at hle
  omega

lemma crcWindow_of_flashWindow {b : Board} {addr size : ℕ} (hwrap : addr + size < 2 ^ 32)
    (htype : b.flashInfo.flashType ≠ .emmc) (h : flashWindow b addr size = true) :
    crcWindow b addr size = true := by
  simp only [crcWindow, flashWindow, Bool.and_eq_true, decide_eq_true_eq] at h ⊢
  obtain ⟨⟨hreadable, hge⟩, hle⟩ := h
  have hmap := b.flashMem_add_le
  have hcap := size_le_of_ne_emmc hreadable htype
  refine ⟨⟨hreadable, hge⟩, ?_⟩
  unfold add32
  omega

/-- Contents whose replies differ in the first byte only have different checksums. -/
lemma zlibCrc32_load_ne {s t : Store UInt8} {size : ℕ} (hpos : 0 < size) (h0 : s 0 ≠ t 0)
    (hrest : ∀ i, 0 < i → s i = t i) : zlibCrc32 (s.load 0 size) ≠ zlibCrc32 (t.load 0 size) := by
  obtain ⟨n, rfl⟩ : ∃ n, size = n + 1 := ⟨size - 1, by omega⟩
  have htail : s.load (0 + 1) n = t.load (0 + 1) n :=
    Store.load_congr fun i hi _ => hrest i (by omega)
  intro h
  rw [Store.load_succ, Store.load_succ, htail] at h
  exact h0 (zlibCrc32_single_inj [] (t.load (0 + 1) n) h)

/-- The checksum of a request is the same for two memories, but the bytes are not. -/
def CrcBlind (b : Board) (addr size : ℕ) : Prop :=
  ∃ m m' : Machine, m.NoFail ∧ m'.NoFail ∧ crcOf b m addr size = crcOf b m' addr size ∧
    sent b m addr size 0 ≠ sent b m' addr size 0 ∧
    ∀ i, 0 < i → sent b m addr size i = sent b m' addr size i

/-- The checksum does not depend on the registers. -/
lemma crcOf_reg (b : Board) (m : Machine) (reg : ℕ → BitVec 32) (addr size : ℕ) :
    crcOf b { m with reg := reg } addr size = crcOf b m addr size := rfl

/-- On the FMC100 without a NOR, the checksum does not depend on the flash. -/
lemma crcOf_flash {b : Board} (hdriver : b.soc.spiDriver = .fmc100)
    (htype : b.flashInfo.flashType ≠ .nor) (m : Machine) (flash : Store UInt8) (addr size : ℕ) :
    crcOf b { m with flash := flash } addr size = crcOf b m addr size := by
  simp only [crcOf, flashCrc32_of_not_nor hdriver htype]

/-- The registers that hold zero but for one byte. -/
def markedReg (addr : ℕ) : ℕ → BitVec 32 := fun w =>
  if w = addr - addr % 4 then 1#32 <<< (addr % 4 * 8) else 0#32

lemma regByte_markedReg_self {m : Machine} {addr : ℕ} (hreg : m.reg = markedReg addr) :
    regByte m addr = 1 := by
  have hbyte : ∀ p < 4, (⟨((1#32 <<< (p * 8)) >>> (p * 8)).setWidth 8⟩ : UInt8) = 1 := by decide
  rw [regByte, hreg, markedReg, if_pos rfl]
  exact hbyte _ (Nat.mod_lt _ (by omega))

lemma regByte_markedReg {m : Machine} {addr i : ℕ} (hreg : m.reg = markedReg addr) (hi : 0 < i) :
    regByte m (addr + i) = 0 := by
  rw [regByte, hreg, markedReg]
  split_ifs with hw
  · -- the same word, so a later byte of it
    have hbyte : ∀ q < 4, ∀ p < q,
        (⟨((1#32 <<< (p * 8)) >>> (q * 8)).setWidth 8⟩ : UInt8) = 0 := by
      decide
    exact hbyte _ (Nat.mod_lt _ (by omega)) _ (by omega)
  · rw [BitVec.zero_ushiftRight]
    rfl

lemma crcBlind_io {b : Board} {addr size : ℕ} (hio : ioRegion b.soc addr = true) :
    CrcBlind b addr size := by
  have hzero : ∀ a j, ioByte (uniform 0 0 0) a j = 0 := ioByte_of_reg_zero fun _ => rfl
  refine ⟨uniform 0 0 0, { uniform 0 0 0 with reg := markedReg addr }, fun _ => rfl,
    fun _ => rfl, (crcOf_reg ..).symm, ?_, fun i hi => ?_⟩
  · rw [sent_of_ioRegion hio, sent_of_ioRegion hio, hzero, ioByte_of_lt _ (by omega)]
    simp only [Nat.zero_div, Nat.zero_mod, Nat.zero_mul, Nat.add_zero]
    rw [regByte_markedReg_self rfl]
    decide
  · rw [sent_of_ioRegion hio, sent_of_ioRegion hio, hzero]
    by_cases hlt : (addr + i / 1022 * 1022 + i % 1022 / 4 * 4) % 4 + i % 1022 % 4 < 4
    · have hsum : addr + i / 1022 * 1022 + i % 1022 / 4 * 4 + i % 1022 % 4 = addr + i := by omega
      rw [ioByte_of_lt _ hlt, hsum, regByte_markedReg rfl hi]
    · rw [ioByte_of_ge _ (by omega)]

lemma crcBlind_emmc {b : Board} {addr size : ℕ} (hpos : 0 < size)
    (hio : ¬ ioRegion b.soc addr = true) (hemmc : emmcPath b addr size = true) :
    CrcBlind b addr size := by
  obtain ⟨card, hcard, -⟩ := exists_card hemmc (by omega)
  have hpath := hemmc
  simp only [emmcPath, Bool.and_eq_true, decide_eq_true_eq] at hpath
  obtain ⟨⟨hbase, htype⟩, -⟩ := hpath
  have hdriver := (b.le_flashMem_of_emmc hbase).2.2.2.2
  have hcell : ∀ i, 0 < i → emmcCell card (addr - b.soc.flashMem) i ≠
      emmcCell card (addr - b.soc.flashMem) 0 := by
    intro i hi
    simp only [emmcCell]
    split <;> omega
  refine ⟨uniform 0 0 0, marked (emmcCell card (addr - b.soc.flashMem) 0), fun _ => rfl,
    fun _ => rfl, (crcOf_flash hdriver (by simp [htype]) (uniform 0 0 0) _ addr size).symm, ?_,
    fun i hi => ?_⟩
  · rw [sent_of_emmcPath hio hemmc hcard, sent_of_emmcPath hio hemmc hcard]
    simp [uniform, marked]
  · rw [sent_of_emmcPath hio hemmc hcard, sent_of_emmcPath hio hemmc hcard]
    simp [uniform, marked, hcell i hi]

lemma crcBlind_nand {b : Board} {addr size : ℕ}
    (hio : ¬ ioRegion b.soc addr = true) (hemmc : ¬ emmcPath b addr size = true)
    (hflash : flashWindow b addr size = true) (htype : b.flashInfo.flashType ≠ .nor) :
    CrcBlind b addr size := by
  have hreadable : b.flashReadable = true := by
    simp only [flashWindow, Bool.and_eq_true] at hflash
    exact hflash.1.1
  obtain ⟨hnand, hdriver⟩ : b.flashInfo.flashType = .nand ∧ b.soc.spiDriver = .fmc100 := by
    rcases b.boot_cases hreadable with hnor | ⟨hinfo, hdriver⟩ | ⟨card, -, -, hinfo⟩
    · exact absurd hnor.1 htype
    · rw [hinfo]
      exact ⟨rfl, hdriver⟩
    · exact absurd (by rw [hinfo]; rfl) (flashType_ne_emmc hflash hemmc)
  have hsent : ∀ (m : Machine) i,
      sent b m addr size i = m.flash (addr - b.soc.flashMem + i) := by
    intro m i
    simp only [sent, if_neg hio, if_neg hemmc, if_pos hflash, view, hdriver, if_pos hnand]
  refine ⟨uniform 0 0 0, marked (addr - b.soc.flashMem), fun _ => rfl, fun _ => rfl,
    (crcOf_flash hdriver htype (uniform 0 0 0) _ addr size).symm, ?_, fun i hi => ?_⟩
  · rw [hsent, hsent]
    simp [uniform, marked]
  · rw [hsent, hsent]
    simp [uniform, marked, Nat.ne_of_gt hi]

/-- **Where the checksum is blind.** -/
lemma crcBlind {b : Board} {addr size : ℕ} (hpos : 0 < size)
    (h : ioRegion b.soc addr = true ∨
      (flashWindow b addr size = true ∧ ¬ b.flashInfo.flashType = .nor)) :
    CrcBlind b addr size := by
  by_cases hio : ioRegion b.soc addr = true
  · exact crcBlind_io hio
  obtain ⟨hflash, htype⟩ := h.resolve_left hio
  by_cases hemmc : emmcPath b addr size = true
  · exact crcBlind_emmc hpos hio hemmc
  · exact crcBlind_nand hio hemmc hflash htype

/-- **Where it is not**, it is the checksum of what is sent. -/
lemma crcOf_eq {b : Board} {addr size : ℕ} {m : Machine}
    (hwrap : addr + size < 2 ^ 32) (hio : ¬ ioRegion b.soc addr = true)
    (hnor : flashWindow b addr size = true → b.flashInfo.flashType = .nor) :
    crcOf b m addr size = zlibCrc32 ((sent b m addr size).load 0 size) := by
  by_cases hflash : flashWindow b addr size = true
  · have htype := hnor hflash
    have hemmc : ¬ emmcPath b addr size = true := by simp [emmcPath, htype]
    have hne : b.flashInfo.flashType ≠ .emmc := by simp [htype]
    rw [crcOf, if_pos (crcWindow_of_flashWindow hwrap hne hflash), flashCrc32_of_nor htype,
      flashRead_eq hne]
    congr 1
    rw [Store.load_eq_load_iff]
    intro i _
    simp only [sent, if_neg hio, if_neg hemmc, if_pos hflash, Nat.zero_add]
  · have hemmc : ¬ emmcPath b addr size = true := by simp [emmcPath, hflash]
    rw [crcOf, if_neg fun h => hflash (flashWindow_of_crcWindow hwrap h), crc32_zero]
    congr 1
    rw [Store.load_eq_load_iff]
    intro i _
    simp only [sent, if_neg hio, if_neg hemmc, if_neg hflash, Nat.zero_add]

end Defib
