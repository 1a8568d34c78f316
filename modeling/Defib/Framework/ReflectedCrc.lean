import Mathlib.Data.UInt
import Mathlib.Tactic.Common

/-!
# Reflected cyclic redundancy checks

The shift register of a reflected CRC of any width `w`, with an arbitrary polynomial.

`bitStep` clocks one bit, `byteStep` feeds one byte, and `update` a byte string.  Clocking is
linear over exclusive or (`bitSteps_xor`), which is all that the table-driven form needs: a
register splits into its low byte, which the table answers, and the rest, which only moves
down (`byteStep_eq_table`).  When the polynomial has its top bit set, clocking is also
injective (`bitStep_injective`), so that two strings that differ in one byte alone have
different registers (`update_single_inj`).
-/

namespace Defib.ReflectedCrc

variable {w : ℕ} (poly : BitVec w)

/-- Clock one bit out of the register. -/
def bitStep (c : BitVec w) : BitVec w :=
  if c.getLsbD 0 then (c >>> 1) ^^^ poly else c >>> 1

/-- Clock `n` bits. -/
def bitSteps : ℕ → BitVec w → BitVec w
  | 0, c => c
  | n + 1, c => bitSteps n (bitStep poly c)

/-- Feed one byte. -/
def byteStep (c : BitVec w) (b : UInt8) : BitVec w :=
  bitSteps poly 8 (c ^^^ b.toBitVec.setWidth w)

/-- Feed a byte string. -/
def update (c : BitVec w) (bs : List UInt8) : BitVec w := bs.foldl (byteStep poly) c

lemma update_append (c : BitVec w) (as bs : List UInt8) :
    update poly c (as ++ bs) = update poly (update poly c as) bs := by
  simp [update]

/-! ## Linearity -/

lemma bitStep_xor (a b : BitVec w) :
    bitStep poly (a ^^^ b) = bitStep poly a ^^^ bitStep poly b := by
  have hcancel : ∀ x y p : BitVec w, x ^^^ p ^^^ (y ^^^ p) = x ^^^ y := by
    intro x y p
    rw [BitVec.xor_assoc, BitVec.xor_comm y p, ← BitVec.xor_assoc p, BitVec.xor_self,
      BitVec.zero_xor]
  unfold bitStep
  rw [BitVec.getLsbD_xor, BitVec.ushiftRight_xor_distrib]
  cases a.getLsbD 0 <;> cases b.getLsbD 0
  · simp
  · simp [BitVec.xor_assoc]
  · simp only [Bool.bne_false, if_true, Bool.false_eq_true, if_false]
    rw [BitVec.xor_assoc, BitVec.xor_comm _ poly, ← BitVec.xor_assoc]
  · simp [hcancel]

lemma bitSteps_xor (n : ℕ) (a b : BitVec w) :
    bitSteps poly n (a ^^^ b) = bitSteps poly n a ^^^ bitSteps poly n b := by
  induction n generalizing a b with
  | zero => rfl
  | succ n ih => rw [bitSteps, bitSteps, bitSteps, bitStep_xor, ih]

/-- A register whose low `n` bits are clear only moves down through `n` clocks. -/
lemma bitSteps_of_low_clear (n : ℕ) (c : BitVec w) (h : ∀ i < n, c.getLsbD i = false) :
    bitSteps poly n c = c >>> n := by
  induction n generalizing c with
  | zero => simp [bitSteps]
  | succ n ih =>
      have h0 : bitStep poly c = c >>> 1 := by
        simp [bitStep, h 0 (Nat.succ_pos n)]
      rw [bitSteps, h0, ih, Nat.add_comm n, BitVec.shiftRight_add]
      intro i hi
      rw [BitVec.getLsbD_ushiftRight]
      exact h _ (by omega)

/-! ## The table-driven form -/

/-- The table entry of a byte. -/
def tableEntry (i : BitVec 8) : BitVec w := bitSteps poly 8 (i.setWidth w)

/-- A register is its low byte plus the rest. -/
lemma split_low_byte (c : BitVec w) :
    c = (c.setWidth 8).setWidth w ^^^ ((c >>> 8) <<< 8) := by
  ext i hi
  by_cases h8 : i < 8
  · simp [h8, hi]
  · have : 8 + (i - 8) = i := by omega
    simp [h8, hi, this]

/-- Feeding a byte through a table of 256 entries. -/
lemma byteStep_eq_table (c : BitVec w) (b : UInt8) :
    byteStep poly c b =
      tableEntry poly ((c ^^^ b.toBitVec.setWidth w).setWidth 8) ^^^ (c >>> 8) := by
  have hhigh : (c ^^^ b.toBitVec.setWidth w) >>> 8 = c >>> 8 := by
    ext i hi
    simp
  have hclear : ∀ i < 8, (((c ^^^ b.toBitVec.setWidth w) >>> 8) <<< 8).getLsbD i = false := by
    intro i hi
    simp [hi]
  have hback : (((c >>> 8) <<< 8) >>> 8 : BitVec w) = c >>> 8 := by
    ext i hi
    by_cases h : 8 + i < w
    · simp [h]
    · simp [BitVec.getLsbD_of_ge _ (8 + i) (Nat.le_of_not_lt h)]
  rw [byteStep, tableEntry]
  conv_lhs => rw [split_low_byte (c ^^^ b.toBitVec.setWidth w)]
  rw [bitSteps_xor, bitSteps_of_low_clear poly 8 _ hclear, hhigh, hback]

/-! ## Injectivity -/

lemma bitStep_injective (hw : 0 < w) (hpoly : poly.getLsbD (w - 1) = true) :
    Function.Injective (bitStep poly) := by
  -- the top bit of the result is the bit clocked out
  have htop : ∀ c : BitVec w, (bitStep poly c).getLsbD (w - 1) = c.getLsbD 0 := by
    intro c
    have hz : (c >>> 1).getLsbD (w - 1) = false := by
      rw [BitVec.getLsbD_ushiftRight]
      exact BitVec.getLsbD_of_ge _ _ (by omega)
    unfold bitStep
    cases h : c.getLsbD 0 <;> simp [hz, hpoly]
  intro a b hab
  have h0 : a.getLsbD 0 = b.getLsbD 0 := by rw [← htop a, ← htop b, hab]
  have hshift : a >>> 1 = b >>> 1 := by
    unfold bitStep at hab
    rw [h0] at hab
    cases hb : b.getLsbD 0
    · simpa [hb] using hab
    · simpa [hb] using hab
  apply BitVec.eq_of_getLsbD_eq
  intro i hi
  cases i with
  | zero => exact h0
  | succ i =>
      have := congrArg (fun x : BitVec w => x.getLsbD i) hshift
      simpa [BitVec.getLsbD_ushiftRight, Nat.add_comm] using this

lemma bitSteps_injective (hw : 0 < w) (hpoly : poly.getLsbD (w - 1) = true) (n : ℕ) :
    Function.Injective (bitSteps poly n) := by
  induction n with
  | zero => exact fun _ _ h => h
  | succ n ih => exact ih.comp (bitStep_injective poly hw hpoly)

lemma update_injective (hw : 0 < w) (hpoly : poly.getLsbD (w - 1) = true) (bs : List UInt8) :
    Function.Injective fun c => update poly c bs := by
  induction bs with
  | nil => exact fun _ _ h => h
  | cons b bs ih =>
      intro c d h
      have hbits := bitSteps_injective poly hw hpoly 8 (ih h)
      exact (BitVec.xor_left_inj _).mp hbits

/-- **Single errors are detected.**  Strings that differ in one byte have different registers. -/
lemma update_single_inj (hw : 8 ≤ w) (hpoly : poly.getLsbD (w - 1) = true)
    (c : BitVec w) (bs cs : List UInt8) {a b : UInt8}
    (h : update poly c (bs ++ a :: cs) = update poly c (bs ++ b :: cs)) : a = b := by
  rw [update_append, update_append] at h
  have hstep : byteStep poly (update poly c bs) a = byteStep poly (update poly c bs) b :=
    update_injective poly (by omega) hpoly cs h
  have hreg := bitSteps_injective poly (by omega) hpoly 8 hstep
  have hbyte : a.toBitVec.setWidth w = b.toBitVec.setWidth w := (BitVec.xor_right_inj _).mp hreg
  apply UInt8.toBitVec_inj.mp
  have := congrArg (BitVec.setWidth 8) hbyte
  simpa [BitVec.setWidth_setWidth_of_le _ hw] using this

end Defib.ReflectedCrc
