import Mathlib.Tactic.NormNum.Prime
import Defib.Framework.ErrorDetection
import Defib.Properties.CrcAgreement

/-!
# What `verify_crc` rejects

`verifyCrc` accepts the multiples of the generator, so that a frame that was damaged on the way is
rejected when the places it differs in are no multiple of it.  That is so for every burst of at most
16 bits, for every odd number of flipped bits, and for one or two of them in a frame of up to 4095
bytes: the order of `X` modulo the generator is 32767.
-/

namespace Defib

open Polynomial

/-- The bits of a frame, each byte from its highest bit on. -/
def frameBits (frame : List UInt8) : List Bool := frame.flatMap byteBits

lemma length_frameBits (frame : List UInt8) : (frameBits frame).length = 8 * frame.length := by
  induction frame with
  | nil => rfl
  | cons b frame ih =>
      rw [frameBits, List.flatMap_cons, List.length_append, ← frameBits, ih, List.length_cons]
      have hbyte : (byteBits b).length = 8 := rfl
      omega

/-- The places in which a frame differs from another. -/
def damage (sent frame : List UInt8) : Finset ℕ := flipped (frameBits sent) (frameBits frame)

/-! ## The generator -/

lemma ccitt_parity : (X + 1 : (ZMod 2)[X]) ∣ ccitt.poly := by
  have hroot : IsRoot ccitt.poly 1 := by
    rw [IsRoot, ccitt_poly]
    simp only [eval_add, eval_pow, eval_X, eval_one, one_pow]
    decide
  rw [← dvd_iff_isRoot, C_1, CharTwo.sub_eq_add] at hroot
  exact hroot

/-- `X ^ d + 1` is a multiple of the generator exactly when squaring by hand says so. -/
lemma ccitt_dvd_iff {d : ℕ} (hd : d < 2 ^ 15) : ccitt.poly ∣ X ^ d + 1 ↔
    ccitt.powX ((List.range 15).reverse.map d.testBit) = 1 := by
  have hbits := Generator.ofBits_range_testBit 15 d
  rw [Nat.mod_eq_of_lt hd] at hbits
  rw [← ccitt.dvd_X_pow_add_one_iff, hbits]

/-- The order of `X` is `7 * 31 * 151`. -/
lemma ccitt_order : ccitt.OrderAtLeast 32767 := by
  refine ccitt.orderAtLeast_of_powX (by decide) ?_ fun p hp hdvd => ?_
  · rw [ccitt_dvd_iff (by decide)]
    decide +kernel
  · have hprimes : p = 7 ∨ p = 31 ∨ p = 151 := by
      have hfactors : 32767 = 7 * (31 * 151) := by decide
      rw [hfactors] at hdvd
      rcases (hp.dvd_mul).mp hdvd with h | h
      · exact .inl ((Nat.prime_dvd_prime_iff_eq hp (by norm_num)).mp h)
      · rcases (hp.dvd_mul).mp h with h | h
        · exact .inr (.inl ((Nat.prime_dvd_prime_iff_eq hp (by norm_num)).mp h))
        · exact .inr (.inr ((Nat.prime_dvd_prime_iff_eq hp (by norm_num)).mp h))
    rcases hprimes with rfl | rfl | rfl
    · rw [ccitt_dvd_iff (by decide)]
      decide +kernel
    · rw [ccitt_dvd_iff (by decide)]
      decide +kernel
    · rw [ccitt_dvd_iff (by decide)]
      decide +kernel

/-! ## Damaged frames -/

/-- Damage of a kind that the generator finds: a burst, one or two bits of a frame that is not too
long, or an odd number of them. -/
def Detectable (F : Finset ℕ) : Prop :=
  (∀ i ∈ F, ∀ j ∈ F, j < i + 16) ∨ (F.card ≤ 2 ∧ ∀ i ∈ F, ∀ j ∈ F, j < i + 32767) ∨ Odd F.card

lemma Detectable.not_dvd {F : Finset ℕ} (h : Detectable F) (hne : F.Nonempty) {n : ℕ}
    (hlt : ∀ i ∈ F, i < n) : ¬ ccitt.poly ∣ ∑ i ∈ F, X ^ (n - 1 - i) := by
  rcases h with hburst | ⟨hcard, hclose⟩ | hodd
  · exact ccitt.not_dvd_of_burst hne hlt hburst
  · exact ccitt.not_dvd_of_two ccitt_order hne hlt hcard hclose
  · exact ccitt.not_dvd_of_odd ccitt_parity hodd

/-- In a frame of up to 4095 bytes, any two bits are close enough. -/
lemma detectable_of_card_le_two {sent frame : List UInt8} (hlen : sent.length ≤ 4095)
    (hcard : (damage sent frame).card ≤ 2) : Detectable (damage sent frame) := by
  refine .inr (.inl ⟨hcard, fun i hi j hj => ?_⟩)
  have := lt_of_mem_flipped hj
  rw [length_frameBits] at this
  omega

/-- **A damaged frame is rejected** by `verify_crc`, if the damage is of a kind that the generator
finds. -/
theorem verifyCrc_of_damaged {data frame : List UInt8} (hdata : data ≠ [])
    (hlen : frame.length = (appendCrc data).length)
    (hdamaged : (damage (appendCrc data) frame).Nonempty)
    (hkind : Detectable (damage (appendCrc data) frame)) : verifyCrc frame = false := by
  have hlong : 3 ≤ frame.length := by
    have := List.length_pos_iff.mpr hdata
    rw [hlen, length_appendCrc]
    omega
  have hbits : (frameBits (appendCrc data)).length = (frameBits frame).length := by
    rw [length_frameBits, length_frameBits, hlen]
  refine Bool.eq_false_iff.mpr fun hverify => ?_
  rw [verifyCrc_iff hlong] at hverify
  have hsum := dvd_add (dvd_message_appendCrc data) hverify
  rw [← ofBits_flatMap_byteBits, ← ofBits_flatMap_byteBits, ← frameBits, ← frameBits,
    add_eq_sum_flipped hbits] at hsum
  exact hkind.not_dvd hdamaged (fun i => lt_of_mem_flipped) hsum

end Defib
