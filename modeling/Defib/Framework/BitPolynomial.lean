import Mathlib.Algebra.Polynomial.Div
import Mathlib.Algebra.Polynomial.Degree.Domain
import Mathlib.Algebra.Field.ZMod
import Mathlib.Data.Nat.Bitwise
import Mathlib.Data.Nat.Size
import Mathlib.RingTheory.Coprime.Lemmas
import Mathlib.Tactic.Ring

/-!
# Cyclic redundancy checks as polynomial remainders

A number stands for the polynomial over the field of two elements that has its bits as coefficients
(`bitPoly`).  Exclusive or is then addition and a shift multiplication by a power of `X`, so that a
register that is shifted and combined with a table is a remainder, whatever its conventions.

A `Generator` has its leading and its constant bit.  `Generator.remainder` divides by it bit by bit,
as one does by hand, and `bitPoly_remainder` says that this is the remainder of polynomials.  A
single flipped bit changes the remainder (`Generator.not_dvd_X_pow`), since the constant bit keeps
the generator from dividing a power of `X`.
-/

namespace Defib

open Polynomial

/-- The polynomial that has the bits of a number as its coefficients. -/
noncomputable def bitPoly (n : ℕ) : (ZMod 2)[X] :=
  ∑ i ∈ Finset.range n.size, if n.testBit i then X ^ i else 0

lemma coeff_bitPoly (n i : ℕ) : (bitPoly n).coeff i = if n.testBit i then 1 else 0 := by
  have hterm : ∀ j, (if n.testBit j then X ^ j else 0 : (ZMod 2)[X]).coeff i =
      if i = j then (if n.testBit j then 1 else 0) else 0 := by
    intro j
    split_ifs with hbit hij hij
    · rw [coeff_X_pow, if_pos hij]
    · rw [coeff_X_pow, if_neg hij]
    · exact coeff_zero i
    · exact coeff_zero i
  rw [bitPoly, finsetSum_coeff]
  simp only [hterm]
  rw [Finset.sum_ite_eq]
  split_ifs with hmem hbit hbit
  · rfl
  · rfl
  · -- a bit beyond the size of the number
    have hsize : n.size ≤ i := by simpa using hmem
    have hlt : n < 2 ^ i := Nat.size_le.mp hsize
    rw [Nat.testBit_eq_false_of_lt hlt] at hbit
    exact absurd hbit Bool.false_ne_true
  · rfl

@[simp] lemma bitPoly_zero : bitPoly 0 = 0 := by
  rw [bitPoly, Nat.size_zero, Finset.range_zero, Finset.sum_empty]

lemma bitPoly_injective : Function.Injective bitPoly := by
  intro a b h
  refine Nat.eq_of_testBit_eq fun i => ?_
  have hi := congrArg (fun p => p.coeff i) h
  simp only [coeff_bitPoly] at hi
  cases ha : a.testBit i <;> cases hb : b.testBit i <;> simp [ha, hb] at hi ⊢

lemma bitPoly_xor (a b : ℕ) : bitPoly (a ^^^ b) = bitPoly a + bitPoly b := by
  have htwo : (1 : ZMod 2) + 1 = 0 := by decide
  ext i
  rw [coeff_add, coeff_bitPoly, coeff_bitPoly, coeff_bitPoly, Nat.testBit_xor]
  cases a.testBit i <;> cases b.testBit i <;> simp [htwo]

/-- A number put in front of `k` bits. -/
lemma bitPoly_concat {k b : ℕ} (a : ℕ) (hb : b < 2 ^ k) :
    bitPoly (2 ^ k * a + b) = bitPoly a * X ^ k + bitPoly b := by
  ext i
  rw [coeff_add, coeff_bitPoly, coeff_mul_X_pow', coeff_bitPoly, coeff_bitPoly,
    Nat.testBit_two_pow_mul_add a hb]
  by_cases hi : i < k
  · rw [if_pos hi, if_neg (Nat.not_le.mpr hi), zero_add]
  · have hbit : b.testBit i = false :=
      Nat.testBit_eq_false_of_lt (hb.trans_le (Nat.pow_le_pow_right (by decide) (by omega)))
    rw [if_neg hi, if_pos (Nat.not_lt.mp hi), hbit, if_neg Bool.false_ne_true, add_zero]

lemma bitPoly_two_pow_mul (k a : ℕ) : bitPoly (2 ^ k * a) = bitPoly a * X ^ k := by
  simpa using bitPoly_concat a (Nat.two_pow_pos k)

lemma bitPoly_one : bitPoly 1 = 1 := by
  rw [bitPoly, Nat.size_one, Finset.sum_range_one, if_pos (by decide), pow_zero]

lemma bitPoly_two_pow (k : ℕ) : bitPoly (2 ^ k) = X ^ k := by
  simpa [bitPoly_one] using bitPoly_two_pow_mul k 1

lemma degree_bitPoly_lt {n w : ℕ} (h : n < 2 ^ w) : (bitPoly n).degree < w := by
  rw [degree_lt_iff_coeff_zero]
  intro i hi
  have hbit : n.testBit i = false :=
    Nat.testBit_eq_false_of_lt (h.trans_le (Nat.pow_le_pow_right (by decide) hi))
  rw [coeff_bitPoly, hbit, if_neg Bool.false_ne_true]

/-! ## Generators -/

/-- A generator of degree `width` with a constant term. -/
structure Generator where
  width : ℕ
  bits : ℕ
  width_pos : 0 < width
  leading : bits / 2 ^ width = 1
  constant : bits % 2 = 1

namespace Generator

variable (g : Generator)

noncomputable def poly : (ZMod 2)[X] := bitPoly g.bits

/-- One step of the division by hand: the next bit is taken down, and the generator subtracted if it
goes in. -/
def divStep (r : ℕ) (bit : Bool) : ℕ :=
  let r := 2 * r + bit.toNat
  if r.testBit g.width then r ^^^ g.bits else r

/-- The remainder of a string of bits, first bit first. -/
def remainder (bits : List Bool) : ℕ := bits.foldl g.divStep 0

/-- The generator without its leading term. -/
lemma poly_eq : g.poly = X ^ g.width + bitPoly (g.bits % 2 ^ g.width) := by
  have hsplit : g.bits = 2 ^ g.width * 1 + g.bits % 2 ^ g.width := by
    have hdiv := Nat.div_add_mod g.bits (2 ^ g.width)
    rw [g.leading] at hdiv
    exact hdiv.symm
  have hlow : g.bits % 2 ^ g.width < 2 ^ g.width := Nat.mod_lt _ (Nat.two_pow_pos _)
  calc g.poly = bitPoly (2 ^ g.width * 1 + g.bits % 2 ^ g.width) := by rw [poly, ← hsplit]
    _ = X ^ g.width + bitPoly (g.bits % 2 ^ g.width) := by
      rw [bitPoly_concat 1 hlow, bitPoly_one, one_mul]

lemma poly_monic : g.poly.Monic := by
  rw [poly_eq]
  exact monic_X_pow_add (degree_bitPoly_lt (Nat.mod_lt _ (Nat.two_pow_pos _)))

lemma degree_poly : g.poly.degree = g.width := by
  have hlow : (bitPoly (g.bits % 2 ^ g.width)).degree < (X ^ g.width : (ZMod 2)[X]).degree := by
    rw [degree_X_pow]
    exact degree_bitPoly_lt (Nat.mod_lt _ (Nat.two_pow_pos _))
  rw [poly_eq, degree_add_eq_left_of_degree_lt hlow, degree_X_pow]

/-- A factor may be replaced by its remainder. -/
lemma mul_mod (p q : (ZMod 2)[X]) : (p %ₘ g.poly * q) %ₘ g.poly = (p * q) %ₘ g.poly := by
  refine modByMonic_eq_of_dvd_sub g.poly_monic ⟨-(p /ₘ g.poly * q), ?_⟩
  calc p %ₘ g.poly * q - p * q
      = p %ₘ g.poly * q - (p %ₘ g.poly + g.poly * (p /ₘ g.poly)) * q := by
        rw [modByMonic_add_div]
    _ = g.poly * -(p /ₘ g.poly * q) := by ring

/-- The constant term keeps the generator from dividing a power of `X`. -/
lemma not_dvd_X_pow (n : ℕ) : ¬ g.poly ∣ X ^ n := by
  intro hdvd
  have hcoprime : IsCoprime g.poly X := by
    -- without its constant term, the generator is a multiple of `X`
    have hsplit : g.poly = bitPoly (g.bits / 2) * X + 1 := by
      have hbits : g.bits = 2 ^ 1 * (g.bits / 2) + 1 := by
        have := g.constant
        omega
      calc g.poly = bitPoly (2 ^ 1 * (g.bits / 2) + 1) := by rw [poly, ← hbits]
        _ = bitPoly (g.bits / 2) * X + 1 := by
          rw [bitPoly_concat _ (by decide), bitPoly_one, pow_one]
    exact ⟨1, -bitPoly (g.bits / 2), by rw [hsplit]; ring⟩
  have hunit : IsUnit g.poly := hcoprime.pow_right.isUnit_of_dvd' dvd_rfl hdvd
  have hdegree := degree_eq_zero_of_isUnit hunit
  rw [degree_poly] at hdegree
  exact g.width_pos.ne' (by exact_mod_cast hdegree)

/-- A register narrower than the generator is its own remainder. -/
lemma bitPoly_modByMonic {n : ℕ} (h : n < 2 ^ g.width) : bitPoly n %ₘ g.poly = bitPoly n := by
  rw [modByMonic_eq_self_iff g.poly_monic, degree_poly]
  exact degree_bitPoly_lt h

lemma divStep_lt {r : ℕ} (h : r < 2 ^ g.width) (bit : Bool) : g.divStep r bit < 2 ^ g.width := by
  have hnext : 2 * r + bit.toNat < 2 ^ (g.width + 1) := by
    have := bit.toNat_le
    rw [pow_succ]
    omega
  rw [divStep]
  refine Nat.lt_pow_two_of_testBit _ fun i hi => ?_
  by_cases hwidth : i = g.width
  · have hone : g.bits.testBit g.width = true := by
      rw [Nat.testBit_eq_decide_div_mod_eq, g.leading]
      rfl
    split_ifs with hbit
    · rw [Nat.testBit_xor, hwidth, hbit, hone]
      rfl
    · rw [hwidth]
      exact Bool.eq_false_of_not_eq_true hbit
  · have hbits : g.bits < 2 ^ (g.width + 1) := by
      have hdiv := Nat.div_add_mod g.bits (2 ^ g.width)
      have hmod := Nat.mod_lt g.bits (Nat.two_pow_pos g.width)
      rw [g.leading] at hdiv
      rw [pow_succ]
      omega
    have hpow : 2 ^ (g.width + 1) ≤ 2 ^ i := Nat.pow_le_pow_right (by decide) (by omega)
    have hr := Nat.testBit_eq_false_of_lt (hnext.trans_le hpow)
    have hg := Nat.testBit_eq_false_of_lt (hbits.trans_le hpow)
    split_ifs
    · rw [Nat.testBit_xor, hr, hg]
      rfl
    · exact hr

lemma bitPoly_divStep {r : ℕ} (h : r < 2 ^ g.width) (bit : Bool) :
    bitPoly (g.divStep r bit) = bitPoly (2 * r + bit.toNat) %ₘ g.poly := by
  have hself : bitPoly (g.divStep r bit) = bitPoly (g.divStep r bit) %ₘ g.poly :=
    (g.bitPoly_modByMonic (g.divStep_lt h bit)).symm
  rw [hself, divStep]
  split_ifs
  · rw [bitPoly_xor, add_modByMonic, ← poly, modByMonic_self g.poly_monic, add_zero]
  · rfl

end Generator

/-! ## Strings of bits and of bytes -/

/-- The number that a string of bits spells, first bit first. -/
def ofBits (bits : List Bool) : ℕ := bits.foldl (fun n bit => 2 * n + bit.toNat) 0

/-- The bits of a byte, highest first. -/
def byteBits (b : UInt8) : List Bool := (List.range 8).reverse.map b.toNat.testBit

/-- The number that a byte string spells, first byte first. -/
def message (data : List UInt8) : ℕ := data.foldl (fun n b => 2 ^ 8 * n + b.toNat) 0

lemma ofBits_foldl (n : ℕ) (bits : List Bool) :
    bits.foldl (fun n bit => 2 * n + bit.toNat) n = 2 ^ bits.length * n + ofBits bits := by
  induction bits using List.reverseRecOn with
  | nil => rw [List.foldl_nil, List.length_nil, pow_zero, one_mul, ofBits, List.foldl_nil, add_zero]
  | append_singleton bits bit ih =>
      rw [ofBits, List.foldl_append, List.foldl_append, ih, ← ofBits, List.length_append,
        List.length_singleton, pow_succ]
      simp only [List.foldl_cons, List.foldl_nil]
      ring

lemma ofBits_append (bits bits' : List Bool) :
    ofBits (bits ++ bits') = 2 ^ bits'.length * ofBits bits + ofBits bits' := by
  rw [ofBits, List.foldl_append, ofBits_foldl, ← ofBits]

lemma ofBits_replicate_false (n : ℕ) : ofBits (List.replicate n false) = 0 := by
  induction n with
  | zero => rfl
  | succ n ih => rw [List.replicate_succ', ofBits_append, ih, mul_zero, zero_add]; rfl

lemma ofBits_byteBits (b : UInt8) : ofBits (byteBits b) = b.toNat := by
  have hall : ∀ n < 256, ofBits (byteBits (UInt8.ofNat n)) = n := by decide +kernel
  have h := hall b.toNat b.toNat_lt
  rwa [UInt8.ofNat_toNat] at h

lemma message_foldl (n : ℕ) (data : List UInt8) :
    data.foldl (fun n b => 2 ^ 8 * n + b.toNat) n =
      2 ^ (8 * data.length) * n + message data := by
  induction data using List.reverseRecOn with
  | nil =>
      rw [List.foldl_nil, List.length_nil, mul_zero, pow_zero, one_mul, message, List.foldl_nil,
        add_zero]
  | append_singleton data b ih =>
      rw [message, List.foldl_append, List.foldl_append, ih, ← message, List.length_append,
        List.length_singleton, mul_add, pow_add]
      simp only [List.foldl_cons, List.foldl_nil]
      ring

lemma message_append (data data' : List UInt8) :
    message (data ++ data') = 2 ^ (8 * data'.length) * message data + message data' := by
  rw [message, List.foldl_append, message_foldl, ← message]

lemma message_singleton (b : UInt8) : message [b] = b.toNat := by
  rw [message, List.foldl_cons, List.foldl_nil, mul_zero, zero_add]

lemma message_lt (data : List UInt8) : message data < 2 ^ (8 * data.length) := by
  induction data using List.reverseRecOn with
  | nil => exact Nat.one_pos
  | append_singleton data b ih =>
      have hb := b.toNat_lt
      rw [message_append, message_singleton, List.length_append, List.length_singleton, mul_add,
        pow_add]
      omega

/-- The bits of a byte string spell the same number. -/
lemma ofBits_flatMap_byteBits (data : List UInt8) :
    ofBits (data.flatMap byteBits) = message data := by
  induction data using List.reverseRecOn with
  | nil => rfl
  | append_singleton data b ih =>
      rw [List.flatMap_append, List.flatMap_singleton, ofBits_append, ih, message_append,
        message_singleton, ofBits_byteBits]
      rfl

lemma bitPoly_message_append (data data' : List UInt8) :
    bitPoly (message (data ++ data')) =
      bitPoly (message data) * X ^ (8 * data'.length) + bitPoly (message data') := by
  rw [message_append, bitPoly_concat _ (message_lt data')]

namespace Generator

variable (g : Generator)

lemma foldl_divStep_lt {r : ℕ} (h : r < 2 ^ g.width) (bits : List Bool) :
    bits.foldl g.divStep r < 2 ^ g.width := by
  induction bits generalizing r with
  | nil => exact h
  | cons bit bits ih => exact ih (g.divStep_lt h bit)

lemma remainder_lt (bits : List Bool) : g.remainder bits < 2 ^ g.width :=
  g.foldl_divStep_lt (Nat.two_pow_pos _) bits

/-- **Division by hand finds the remainder.** -/
lemma bitPoly_remainder (bits : List Bool) :
    bitPoly (g.remainder bits) = bitPoly (ofBits bits) %ₘ g.poly := by
  induction bits using List.reverseRecOn with
  | nil => simp [remainder, ofBits]
  | append_singleton bits bit ih =>
      have hdown : ∀ n : ℕ, bitPoly (2 * n + bit.toNat) = bitPoly n * X + bitPoly bit.toNat := by
        intro n
        simpa using bitPoly_concat (k := 1) n (bit.toNat_lt)
      have hnext : g.remainder (bits ++ [bit]) = g.divStep (g.remainder bits) bit := by
        rw [remainder, List.foldl_append, ← remainder, List.foldl_cons, List.foldl_nil]
      have hbits : ofBits (bits ++ [bit]) = 2 * ofBits bits + bit.toNat := by
        rw [ofBits, List.foldl_append, ← ofBits, List.foldl_cons, List.foldl_nil]
      rw [hnext, g.bitPoly_divStep (g.remainder_lt bits), hbits, hdown, hdown, ih, add_modByMonic,
        mul_mod, ← add_modByMonic]

end Generator

end Defib
