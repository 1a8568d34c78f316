import Defib.Agent.MmcHost

/-!
# What the eMMC driver reads

`emmc_driver_refines` is about a controller and a card that are in time, whatever they answer until
then: `emmc_init` identifies the card, and every later `emmc_read_block` returns what the reads of
the agent are modelled with, the block as the card addresses it, or an error where the card fails.
-/

namespace Defib

open Himci

/-! ## Registers -/

lemma Polled.le {pending : Prop} {wait wait' : ℕ} (h : Polled pending wait wait') : wait' ≤ wait := by
  rcases h with ⟨-, -, rfl⟩ | ⟨-, rfl⟩
  · exact Nat.sub_le _ _
  · exact Nat.zero_le _

namespace MmcHost

variable {h h' : MmcHost} {v : BitVec 32}

/-- What `DW_STATUS` says of the card, and what a look at it may change. -/
lemma LoadStatus.busy (hload : h.LoadStatus v h') :
    ∃ busy data arrived, Polled (v &&& statusDataBusy ≠ 0) h.waits.busy busy ∧
      h' = { h with waits := { h.waits with busy := busy, data := data }, arrived := arrived } := by
  obtain ⟨busy, hpolled, hrest⟩ := hload
  by_cases hfailed : h.outcome = .failed
  · rw [if_pos hfailed] at hrest
    exact ⟨busy, h.waits.data, h.arrived, hpolled, hrest⟩
  · rw [if_neg hfailed] at hrest
    obtain ⟨-, -, data, -, hrest⟩ := hrest
    exact ⟨busy, data, _, hpolled, hrest⟩

/-- What `DW_STATUS` says of the FIFO. -/
lemma LoadStatus.count (hload : h.LoadStatus v h') (houtcome : h.outcome ≠ .failed) :
    statusFifoCount v ≤ h.words.length ∧ ∃ busy data, busy ≤ h.waits.busy ∧
      (if statusFifoCount v = 0 ∧ h.words ≠ [] then 0 < h.waits.data ∧ data = h.waits.data - 1
        else data = h.waits.data) ∧
      h' = { h with
              waits := { h.waits with busy := busy, data := data }
              arrived := statusFifoCount v } := by
  obtain ⟨busy, hpolled, hrest⟩ := hload
  rw [if_neg houtcome] at hrest
  obtain ⟨-, hcount, data, hdata, hrest⟩ := hrest
  exact ⟨hcount, busy, data, hpolled.le, hdata, hrest⟩

end MmcHost

namespace MmcChip

variable {chip : MmcChip} {h : MmcHost}

/-- What `handle_read` makes of a call of `emmc_read_block`. -/
def found (r : ℤ × List UInt8) : Option (List UInt8) := if r.1 = 0 then some r.2 else none

end MmcChip

namespace MmcHost

/-- The FIFO holds no more than is transferred, and that is no more than a block. -/
structure Bounded (h : MmcHost) : Prop where
  arrived : h.arrived ≤ h.words.length
  words : h.words.length ≤ 128

lemma statusFifoCount_shiftLeft : ∀ n < 129, statusFifoCount (BitVec.ofNat 32 n <<< 17) = n ∧
    (BitVec.ofNat 32 n <<< 17) &&& statusDataBusy = 0 := by
  decide +kernel

variable {h : MmcHost}

lemma exists_loadRintsts (hb : h.Bounded) : ∃ v h', h.LoadRintsts v h' ∧ h'.Bounded := by
  cases houtcome : h.outcome with
  | pending =>
      refine ⟨0, h, ?_, hb⟩
      simp only [LoadRintsts, houtcome]
      exact ⟨by decide, trivial⟩
  | answered =>
      have herror : (rintstsCmdDone ||| rintstsDto) &&& rintstsErrorMask = 0 := by decide
      have hdone : ¬ (rintstsCmdDone ||| rintstsDto) &&& rintstsCmdDone = 0 := by decide
      have hdto : ¬ (rintstsCmdDone ||| rintstsDto) &&& rintstsDto = 0 := by decide
      refine ⟨rintstsCmdDone ||| rintstsDto, { h with waits := { h.waits with
        done := 0
        data := if h.transfers = true ∧ h.words = [] then 0 else h.waits.data } }, ?_,
        hb.arrived, hb.words⟩
      simp only [LoadRintsts, houtcome]
      refine ⟨herror, 0, _, .inr ⟨hdone, rfl⟩, ?_, rfl⟩
      split_ifs
      · exact .inr ⟨hdto, rfl⟩
      · rfl
  | failed =>
      refine ⟨bit 1, h, ?_, hb⟩
      simp only [LoadRintsts, houtcome]
      exact .inl ⟨by decide, trivial⟩

lemma exists_loadStatus (hb : h.Bounded) : ∃ v h', h.LoadStatus v h' ∧ h'.Bounded := by
  obtain ⟨hcount, hclear⟩ := statusFifoCount_shiftLeft h.words.length (by have := hb.words; omega)
  have hpolled : Polled (BitVec.ofNat 32 h.words.length <<< 17 &&& statusDataBusy ≠ 0)
      h.waits.busy 0 := .inr ⟨not_not.mpr hclear, rfl⟩
  by_cases hfailed : h.outcome = .failed
  · exact ⟨_, { h with waits := { h.waits with busy := 0 } }, ⟨0, hpolled, if_pos hfailed ▸ rfl⟩,
      hb.arrived, hb.words⟩
  · have hidle : ¬ (h.words.length = 0 ∧ h.words ≠ []) := fun hidle =>
      hidle.2 (List.length_eq_zero_iff.mp hidle.1)
    refine ⟨_, { h with
      waits := { h.waits with busy := 0 }
      arrived := h.words.length }, ⟨0, hpolled, ?_⟩, le_rfl, hb.words⟩
    rw [if_neg hfailed, hcount]
    exact ⟨hb.arrived, le_rfl, h.waits.data, by rw [if_neg hidle], rfl⟩

lemma exists_loadFifo (hb : h.Bounded) : ∃ v h', h.LoadFifo v h' ∧ h'.Bounded := by
  by_cases hempty : h.arrived = 0
  · exact ⟨0, h, by rw [LoadFifo, if_pos hempty], hb⟩
  · have harrived := hb.arrived
    have hwords := hb.words
    obtain ⟨w, words, hcons⟩ := List.exists_cons_of_length_pos (l := h.words) (by omega)
    have hlength : h.words.length = words.length + 1 := by rw [hcons, List.length_cons]
    refine ⟨w, { h with words := h.words.tail, arrived := h.arrived - 1 }, ?_, ?_⟩
    · rw [LoadFifo, if_neg hempty, hcons]
      exact ⟨rfl, rfl⟩
    · constructor
      · show h.arrived - 1 ≤ h.words.tail.length
        rw [hcons, List.tail_cons]
        omega
      · show h.words.tail.length ≤ 128
        rw [hcons, List.tail_cons]
        omega

lemma Bounded.exists_load (hb : h.Bounded) (addr : ℕ) : ∃ v h', h.Load addr v h' ∧ h'.Bounded := by
  unfold Load
  split_ifs
  · exact ⟨0, { h with waits := { h.waits with reset := 0 } },
      ⟨0, .inr ⟨by decide, rfl⟩, rfl⟩, hb.arrived, hb.words⟩
  · exact ⟨0, { h with waits := { h.waits with start := 0 } },
      ⟨0, .inr ⟨by decide, rfl⟩, rfl⟩, hb.arrived, hb.words⟩
  · exact exists_loadRintsts hb
  · exact exists_loadStatus hb
  · exact exists_loadFifo hb
  · exact ⟨_, h, ⟨rfl, rfl⟩, hb⟩
  · exact ⟨_, h, ⟨rfl, rfl⟩, hb⟩
  · exact ⟨_, h, ⟨rfl, rfl⟩, hb⟩
  · exact ⟨_, h, ⟨rfl, rfl⟩, hb⟩
  · exact ⟨0, h, rfl, hb⟩

end MmcHost

namespace MmcChip

variable {chip : MmcChip} {h : MmcHost}

lemma bounded_exec (cmd : BitVec 32) : (chip.exec h cmd).Bounded := by
  have hblock : ∀ arg, (chip.blockWords arg).length = 128 := fun arg => by simp [blockWords]
  have hempty : ∀ h₁ : MmcHost, h₁.words = [] → h₁.arrived = 0 → h₁.Bounded :=
    fun h₁ hwords harrived => ⟨by simp [harrived], by simp [hwords]⟩
  rw [exec]
  split_ifs
  · exact hempty _ rfl rfl
  · exact hempty _ rfl rfl
  · rw [answer]
    split
    · split_ifs <;> exact hempty _ rfl rfl
    · split_ifs <;> exact hempty _ rfl rfl
    · split_ifs <;> exact hempty _ rfl rfl
    · split_ifs <;> exact hempty _ rfl rfl
    · split_ifs <;> exact hempty _ rfl rfl
    · split_ifs
      · exact hempty _ rfl rfl
      · exact ⟨Nat.zero_le _, (hblock _).le⟩
      · exact hempty _ rfl rfl
    · exact hempty _ rfl rfl

lemma bounded_store (hb : h.Bounded) (addr : ℕ) (v : BitVec 32) :
    (chip.store h addr v).Bounded := by
  rw [store]
  split_ifs
  · exact ⟨le_rfl, Nat.zero_le _⟩
  · exact ⟨hb.arrived, hb.words⟩
  · exact ⟨hb.arrived, hb.words⟩
  · exact ⟨hb.arrived, hb.words⟩
  · exact ⟨hb.arrived, hb.words⟩
  · exact ⟨hb.arrived, hb.words⟩
  · exact ⟨hb.arrived, hb.words⟩
  · exact bounded_exec v
  · exact hb

/-- The host always answers: a program has a run to its end. -/
lemma exists_runs {α : Type} (p : Mmio α) (hb : h.Bounded) :
    ∃ t a h', Mmio.Runs chip.host p h t a h' := by
  have hload : ∀ (h : MmcHost) (addr : ℕ), h.Bounded →
      ∃ v h', chip.host.load h addr v h' ∧ h'.Bounded := fun h addr hb => hb.exists_load addr
  have hstore : ∀ (h : MmcHost) (addr : ℕ) (v : BitVec 32), h.Bounded →
      (chip.host.store h addr v).Bounded := fun h addr v hb => bounded_store hb addr v
  exact Mmio.exists_runs hload hstore p hb

end MmcChip

/-- A card that needs two attempts of `CMD1` and reports an error for block 7. -/
def sampleChip : MmcChip where
  cells i := UInt8.ofNat i
  highCapacity := true
  cid _ := 0
  csd _ := 0
  powerUp := 2
  fails blockNo := blockNo = 7
  waits := ⟨3, 3, 3, 3, 3⟩
  powerUp_lt := by decide
  reset_le := by decide
  start_lt := by decide
  done_lt := by decide
  busy_le := by decide
  data_lt := by decide

/-- The host as it is powered on. -/
def sampleHost : MmcHost :=
  ⟨.idle, 0, 0, ⟨0, 0, 0, 0, 0⟩, 0, 0, 0, fun _ => 0, .pending, false, [], 0⟩

/-- Bits of a register, from `lo`, `n` of them. -/
def csdBits (csd lo n : ℕ) : ℕ := csd / 2 ^ lo % 2 ^ n

/-- The capacity that a CSD gives: `C_SIZE` is at bits 73 to 62, `C_SIZE_MULT` at 49 to 47 and
`READ_BL_LEN` at 83 to 80. -/
def csdCapacity (csd : ℕ) : ℕ :=
  (csdBits csd 62 12 + 1) * 2 ^ (csdBits csd 47 3 + 2) * 2 ^ csdBits csd 80 4

/-- A card of that CSD that does not count in blocks; `RESP1` and `RESP2` are the second and the third
word. -/
def smallCard (csd : ℕ) : EmmcCard := ⟨false, csdBits csd 32 32, csdBits csd 64 32⟩

/-- **`C_SIZE` is put together from the wrong words**: the high ten bits come from `RESP1`, the low two
from `RESP2`.  The capacity of a small card is right exactly when the bits in their place happen to be
the same. -/
theorem smallCard_capacity_iff (csd : ℕ) (hrblen : 9 ≤ csdBits csd 80 4 ∧ csdBits csd 80 4 ≤ 12) :
    emmcCapacityBytes (smallCard csd) = csdCapacity csd ↔
      csdBits csd 32 10 = csdBits csd 64 10 ∧ csdBits csd 94 2 = csdBits csd 62 2 := by
  have hsize : csdBits csd 62 12 = csdBits csd 64 10 * 4 + csdBits csd 62 2 := by
    simp only [csdBits]
    omega
  have hcsd1 : csdBits csd 32 32 % 1024 = csdBits csd 32 10 := by
    simp only [csdBits]
    omega
  have hcsd2 : csdBits csd 64 32 / 2 ^ 30 % 4 = csdBits csd 94 2 := by
    simp only [csdBits]
    omega
  have hmult : csdBits csd 32 32 / 2 ^ 15 % 8 = csdBits csd 47 3 := by
    simp only [csdBits]
    omega
  have hlen : csdBits csd 64 32 / 2 ^ 16 % 16 = csdBits csd 80 4 := by
    simp only [csdBits]
    omega
  have hlow : csdBits csd 94 2 < 4 ∧ csdBits csd 62 2 < 4 :=
    ⟨Nat.mod_lt _ (by decide), Nat.mod_lt _ (by decide)⟩
  rw [emmcCapacityBytes, smallCard, if_neg Bool.false_ne_true, csdCapacity]
  dsimp only
  rw [hcsd1, hcsd2, hmult, hlen, if_pos hrblen, hsize]
  have hpow : ∀ n : ℕ, 2 ^ n ≠ 0 := fun n => (Nat.pow_pos (by decide)).ne'
  rw [Nat.mul_left_inj (hpow _), Nat.mul_left_inj (hpow _)]
  omega

/-- A card of 1 GiB is taken for one of 256 KiB. -/
theorem smallCard_capacity_wrong :
    emmcCapacityBytes (smallCard (9 * 2 ^ 80 + 4095 * 2 ^ 62 + 7 * 2 ^ 47)) ≠
      csdCapacity (9 * 2 ^ 80 + 4095 * 2 ^ 62 + 7 * 2 ^ 47) :=
  (smallCard_capacity_iff _ (by decide)).not.mpr (by decide)

end Defib
