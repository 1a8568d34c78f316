import Defib.Framework.BitPolynomial
import Mathlib.RingTheory.AdjoinRoot
import Mathlib.GroupTheory.OrderOfElement
import Mathlib.Algebra.CharP.Two

/-!
# What a cyclic redundancy check detects

Two strings of bits of one length differ in a set of places (`flipped`), and their polynomials in
the sum of the powers of `X` at these places (`add_eq_sum_flipped`).  A check overlooks the
difference when the generator divides that sum.  It never does when

* the places lie within a window of the width of the generator (`Generator.not_dvd_of_burst`),
* there is one place, or two that are closer than the order of `X` modulo the generator
  (`Generator.not_dvd_of_two`),
* their number is odd and `X + 1` divides the generator (`Generator.not_dvd_of_odd`).

The order is found by computation: `Generator.powX` raises `X` to a power by squaring, and the order
is `n` once `X ^ n` is one and no `X ^ (n / p)` is, `p` a prime that divides `n`.
-/

namespace Defib

open Polynomial

/-! ## Where two strings differ -/

/-- The places in which two strings of bits differ, counted from the first. -/
def flipped (u v : List Bool) : Finset ℕ :=
  (Finset.range u.length).filter fun i => u[i]? ≠ v[i]?

lemma lt_of_mem_flipped {u v : List Bool} {i : ℕ} (h : i ∈ flipped u v) : i < u.length :=
  Finset.mem_range.mp (Finset.mem_filter.mp h).1

/-- One more bit, at the end. -/
lemma bitPoly_ofBits_concat (u : List Bool) (b : Bool) :
    bitPoly (ofBits (u ++ [b])) = bitPoly (ofBits u) * X + if b then 1 else 0 := by
  have hbit : ofBits [b] = b.toNat := by cases b <;> rfl
  rw [ofBits_append, hbit, List.length_singleton, bitPoly_concat _ b.toNat_lt, pow_one]
  cases b
  · rw [Bool.toNat_false, bitPoly_zero, if_neg Bool.false_ne_true]
  · rw [Bool.toNat_true, bitPoly_one, if_pos rfl]

/-- A string of bits is the sum of the powers at its ones. -/
lemma bitPoly_ofBits (u : List Bool) :
    bitPoly (ofBits u) =
      ∑ i ∈ Finset.range u.length, if u[i]? = some true then X ^ (u.length - 1 - i) else 0 := by
  induction u using List.reverseRecOn with
  | nil => rw [ofBits, List.foldl_nil, bitPoly_zero, List.length_nil, Finset.range_zero,
      Finset.sum_empty]
  | append_singleton u b ih =>
      have hlast : (u ++ [b])[u.length]? = some b := List.getElem?_concat_length
      rw [bitPoly_ofBits_concat, ih, List.length_append, List.length_singleton,
        Finset.sum_range_succ, Finset.sum_mul]
      congr 1
      · refine Finset.sum_congr rfl fun i hi => ?_
        have hi := Finset.mem_range.mp hi
        have hpow : u.length + 1 - 1 - i = u.length - 1 - i + 1 := by omega
        rw [List.getElem?_append_left hi, hpow, pow_succ, ite_mul, zero_mul]
      · rw [hlast, Nat.add_sub_cancel, Nat.sub_self, pow_zero]
        cases b <;> rfl

/-- What two strings of one length differ in. -/
lemma add_eq_sum_flipped {u v : List Bool} (h : u.length = v.length) :
    bitPoly (ofBits u) + bitPoly (ofBits v) = ∑ i ∈ flipped u v, X ^ (u.length - 1 - i) := by
  rw [bitPoly_ofBits, bitPoly_ofBits, ← h, ← Finset.sum_add_distrib, flipped, Finset.sum_filter]
  refine Finset.sum_congr rfl fun i hi => ?_
  have hu := Finset.mem_range.mp hi
  have hv : i < v.length := h ▸ hu
  rw [List.getElem?_eq_getElem hu, List.getElem?_eq_getElem hv]
  cases u[i] <;> cases v[i] <;> simp [CharTwo.add_self_eq_zero]

namespace Generator

variable (g : Generator)

/-! ## Differences that are no multiple of the generator -/

lemma isCoprime_X : IsCoprime g.poly X := by
  have hconst : g.poly.coeff 0 = 1 := by
    rw [poly, coeff_bitPoly, Nat.testBit_zero, g.constant]
    rfl
  refine (irreducible_X.coprime_iff_not_dvd.mpr fun hdvd => ?_).symm
  rw [X_dvd_iff, hconst] at hdvd
  exact one_ne_zero hdvd

/-- Zeros behind a string of bits do not make it a multiple of the generator. -/
lemma dvd_of_dvd_X_pow_mul {n : ℕ} {p : (ZMod 2)[X]} (h : g.poly ∣ X ^ n * p) : g.poly ∣ p :=
  g.isCoprime_X.pow_right.dvd_of_dvd_mul_left h

/-- **A burst is detected**: no difference within as many places as the generator is wide is a
multiple of it. -/
lemma not_dvd_of_burst {F : Finset ℕ} {n : ℕ} (hne : F.Nonempty) (hlt : ∀ i ∈ F, i < n)
    (hburst : ∀ i ∈ F, ∀ j ∈ F, j < i + g.width) :
    ¬ g.poly ∣ ∑ i ∈ F, X ^ (n - 1 - i) := by
  -- the last place has the lowest power, which is taken out
  obtain ⟨m, hm, hlast⟩ := F.exists_max_image id hne
  have hout : ∑ i ∈ F, X ^ (n - 1 - i) =
      X ^ (n - 1 - m) * ∑ i ∈ F, (X ^ (m - i) : (ZMod 2)[X]) := by
    rw [Finset.mul_sum]
    refine Finset.sum_congr rfl fun i hi => ?_
    have hi := hlast i hi
    have hm := hlt m hm
    rw [← pow_add]
    congr 1
    simp only [id_eq] at hi
    omega
  have hcoeff : ∀ k, (∑ i ∈ F, (X ^ (m - i) : (ZMod 2)[X])).coeff k =
      ∑ i ∈ F, if k = m - i then 1 else 0 := by
    intro k
    rw [finsetSum_coeff]
    exact Finset.sum_congr rfl fun i _ => coeff_X_pow _ _
  have hzero : (∑ i ∈ F, (X ^ (m - i) : (ZMod 2)[X])).coeff 0 = 1 := by
    have honly : ∀ i ∈ F, (if 0 = m - i then (1 : ZMod 2) else 0) = if i = m then 1 else 0 := by
      intro i hi
      have hi := hlast i hi
      simp only [id_eq] at hi
      congr 1
      exact propext ⟨fun h => by omega, fun h => by omega⟩
    rw [hcoeff, Finset.sum_congr rfl honly, Finset.sum_ite_eq' F m, if_pos hm]
  have hdegree : (∑ i ∈ F, (X ^ (m - i) : (ZMod 2)[X])).degree < g.poly.degree := by
    rw [degree_poly, degree_lt_iff_coeff_zero]
    intro k hk
    rw [hcoeff]
    refine Finset.sum_eq_zero fun i hi => if_neg fun h => ?_
    have := hburst i hi m hm
    have := g.width_pos
    omega
  intro hdvd
  rw [hout] at hdvd
  refine g.poly_monic.not_dvd_of_degree_lt (fun h => ?_) hdegree (g.dvd_of_dvd_X_pow_mul hdvd)
  rw [h, coeff_zero] at hzero
  exact zero_ne_one hzero

/-- **An odd number of errors is detected**, if `X + 1` divides the generator. -/
lemma not_dvd_of_odd (hparity : (X + 1 : (ZMod 2)[X]) ∣ g.poly) {F : Finset ℕ} {n : ℕ}
    (hodd : Odd F.card) : ¬ g.poly ∣ ∑ i ∈ F, X ^ (n - 1 - i) := by
  intro hdvd
  obtain ⟨q, hq⟩ := hparity.trans hdvd
  have heval := congrArg (eval 1) hq
  have hone : ((F.card : ℕ) : ZMod 2) = 1 := (ZMod.natCast_eq_one_iff_odd).mpr hodd
  have htwo : (1 : ZMod 2) + 1 = 0 := CharTwo.add_self_eq_zero 1
  rw [eval_finsetSum, eval_mul, eval_add, eval_X, eval_one, htwo, zero_mul] at heval
  simp only [eval_pow, eval_X, one_pow, Finset.sum_const, nsmul_eq_mul, mul_one, hone] at heval
  exact one_ne_zero heval

/-- The order of `X` modulo the generator is at least `n`. -/
def OrderAtLeast (n : ℕ) : Prop := ∀ d, 0 < d → d < n → ¬ g.poly ∣ X ^ d + 1

/-- **One or two errors are detected**, if they are closer than the order of `X`. -/
lemma not_dvd_of_two {N : ℕ} (horder : g.OrderAtLeast N) {F : Finset ℕ} {n : ℕ}
    (hne : F.Nonempty) (hlt : ∀ i ∈ F, i < n) (hcard : F.card ≤ 2)
    (hclose : ∀ i ∈ F, ∀ j ∈ F, j < i + N) : ¬ g.poly ∣ ∑ i ∈ F, X ^ (n - 1 - i) := by
  have hpos := hne.card_pos
  obtain hone | htwo : F.card = 1 ∨ F.card = 2 := by omega
  · obtain ⟨i, rfl⟩ := Finset.card_eq_one.mp hone
    rw [Finset.sum_singleton]
    exact g.not_dvd_X_pow _
  · obtain ⟨i, j, hij, rfl⟩ := Finset.card_eq_two.mp htwo
    wlog h : i < j generalizing i j
    · rw [Finset.pair_comm]
      rw [Finset.pair_comm] at hne hlt hcard hclose hpos htwo
      exact this j i (Ne.symm hij) hne hlt hcard hclose hpos htwo (by omega)
    have hj : j < n := hlt j (by simp)
    have hN : j < i + N := hclose i (by simp) j (by simp)
    have hout : (X : (ZMod 2)[X]) ^ (n - 1 - i) + X ^ (n - 1 - j) =
        X ^ (n - 1 - j) * (X ^ (j - i) + 1) := by
      have hpow : n - 1 - i = n - 1 - j + (j - i) := by omega
      rw [hpow, pow_add]
      ring
    rw [Finset.sum_pair hij, hout]
    exact fun hdvd => horder (j - i) (by omega) (by omega) (g.dvd_of_dvd_X_pow_mul hdvd)

/-! ## The order of `X` -/

/-- The bits of a register, highest first. -/
def registerBits (r : ℕ) : List Bool := (List.range g.width).reverse.map r.testBit

lemma ofBits_range_testBit (w r : ℕ) :
    ofBits ((List.range w).reverse.map r.testBit) = r % 2 ^ w := by
  induction w with
  | zero => rw [pow_zero, Nat.mod_one]; rfl
  | succ w ih =>
      have hbit : ofBits [r.testBit w] = (r.testBit w).toNat := by cases r.testBit w <;> rfl
      rw [List.range_succ, List.reverse_append, List.reverse_singleton, List.map_append,
        List.map_singleton, ofBits_append, ih, hbit, List.length_map, List.length_reverse,
        List.length_range, Nat.toNat_testBit, Nat.mod_pow_succ, Nat.add_comm]

/-- The product of a register with a string of bits, by hand. -/
def mulMod (a : ℕ) (bits : List Bool) : ℕ :=
  bits.foldl (fun r bit => if bit then g.divStep r false ^^^ a else g.divStep r false) 0

lemma mulMod_lt {a : ℕ} (ha : a < 2 ^ g.width) (bits : List Bool) :
    g.mulMod a bits < 2 ^ g.width := by
  induction bits using List.reverseRecOn with
  | nil => exact Nat.two_pow_pos _
  | append_singleton bits bit ih =>
      rw [mulMod, List.foldl_append, ← mulMod, List.foldl_cons, List.foldl_nil]
      split_ifs
      · exact Nat.xor_lt_two_pow (g.divStep_lt ih false) ha
      · exact g.divStep_lt ih false

lemma bitPoly_mulMod {a : ℕ} (ha : a < 2 ^ g.width) (bits : List Bool) :
    bitPoly (g.mulMod a bits) = (bitPoly a * bitPoly (ofBits bits)) %ₘ g.poly := by
  induction bits using List.reverseRecOn with
  | nil => simp [mulMod, ofBits]
  | append_singleton bits bit ih =>
      have hshift : bitPoly (g.divStep (g.mulMod a bits) false) =
          (bitPoly a * bitPoly (ofBits bits) * X) %ₘ g.poly := by
        have hdouble : 2 * g.mulMod a bits + false.toNat = 2 ^ 1 * g.mulMod a bits := by
          rw [Bool.toNat_false, add_zero, pow_one]
        rw [g.bitPoly_divStep (g.mulMod_lt ha bits), hdouble, bitPoly_two_pow_mul, pow_one, ih,
          mul_mod]
      rw [mulMod, List.foldl_append, ← mulMod, List.foldl_cons, List.foldl_nil,
        bitPoly_ofBits_concat, mul_add, ← mul_assoc, add_modByMonic, ← hshift]
      cases bit
      · rw [if_neg Bool.false_ne_true, if_neg Bool.false_ne_true, mul_zero, zero_modByMonic,
          add_zero]
      · rw [if_pos rfl, if_pos rfl, mul_one, bitPoly_xor, g.bitPoly_modByMonic ha]

/-- A power of `X`, by squaring; `bits` spells the exponent. -/
def powX (bits : List Bool) : ℕ :=
  bits.foldl (fun r bit => let r := g.mulMod r (g.registerBits r)
    if bit then g.divStep r false else r) 1

lemma one_lt_two_pow_width : 1 < 2 ^ g.width := Nat.one_lt_two_pow g.width_pos.ne'

lemma powX_lt (bits : List Bool) : g.powX bits < 2 ^ g.width := by
  induction bits using List.reverseRecOn with
  | nil => exact g.one_lt_two_pow_width
  | append_singleton bits bit ih =>
      rw [powX, List.foldl_append, ← powX, List.foldl_cons, List.foldl_nil]
      dsimp only
      split_ifs
      · exact g.divStep_lt (g.mulMod_lt ih _) false
      · exact g.mulMod_lt ih _

lemma bitPoly_powX (bits : List Bool) :
    bitPoly (g.powX bits) = X ^ ofBits bits %ₘ g.poly := by
  induction bits using List.reverseRecOn with
  | nil =>
      rw [powX, List.foldl_nil, ← g.bitPoly_modByMonic g.one_lt_two_pow_width, bitPoly_one, ofBits,
        List.foldl_nil, pow_zero]
  | append_singleton bits bit ih =>
      have hlt := g.powX_lt bits
      have hself : ofBits (g.registerBits (g.powX bits)) = g.powX bits := by
        rw [registerBits, ofBits_range_testBit, Nat.mod_eq_of_lt hlt]
      have hsquare : bitPoly (g.mulMod (g.powX bits) (g.registerBits (g.powX bits))) =
          X ^ (2 * ofBits bits) %ₘ g.poly := by
        rw [g.bitPoly_mulMod hlt, hself, ih, mul_mod, mul_comm, mul_mod, ← pow_add, two_mul]
      have hbits : ofBits (bits ++ [bit]) = 2 * ofBits bits + bit.toNat := by
        rw [ofBits, List.foldl_append, ← ofBits, List.foldl_cons, List.foldl_nil]
      rw [powX, List.foldl_append, ← powX, List.foldl_cons, List.foldl_nil, hbits]
      dsimp only
      cases bit
      · rw [if_neg Bool.false_ne_true, hsquare, Bool.toNat_false, add_zero]
      · have hdouble : ∀ r, 2 * r + false.toNat = 2 ^ 1 * r := by
          intro r
          rw [Bool.toNat_false, add_zero, pow_one]
        rw [if_pos rfl, g.bitPoly_divStep (g.mulMod_lt hlt _), hdouble, bitPoly_two_pow_mul,
          hsquare, pow_one, mul_mod, Bool.toNat_true, pow_succ]

/-- `X` to the power of `n` is one exactly when the computation says so. -/
lemma dvd_X_pow_add_one_iff (bits : List Bool) :
    g.poly ∣ X ^ ofBits bits + 1 ↔ g.powX bits = 1 := by
  have hone : (1 : (ZMod 2)[X]) %ₘ g.poly = 1 := by
    rw [← bitPoly_one, g.bitPoly_modByMonic g.one_lt_two_pow_width]
  rw [← modByMonic_eq_zero_iff_dvd g.poly_monic, add_modByMonic, hone, CharTwo.add_eq_zero,
    ← bitPoly_powX, ← bitPoly_one, bitPoly_injective.eq_iff]

/-- **The order, by computation**: `X ^ n` is one, and `X ^ (n / p)` is not for any prime `p` that
divides `n`. -/
lemma orderAtLeast_of_powX {n : ℕ} (hn : 0 < n)
    (hpow : g.poly ∣ X ^ n + 1)
    (hprime : ∀ p, p.Prime → p ∣ n → ¬ g.poly ∣ X ^ (n / p) + 1) : g.OrderAtLeast n := by
  have hiff : ∀ d, (AdjoinRoot.root g.poly) ^ d = 1 ↔ g.poly ∣ X ^ d + 1 := by
    intro d
    rw [← AdjoinRoot.mk_X, ← map_pow, ← map_one (AdjoinRoot.mk g.poly), AdjoinRoot.mk_eq_mk,
      CharTwo.sub_eq_add]
  have horder : orderOf (AdjoinRoot.root g.poly) = n :=
    orderOf_eq_of_pow_and_pow_div_prime hn ((hiff n).mpr hpow) fun p hp hdvd h =>
      hprime p hp hdvd ((hiff (n / p)).mp h)
  intro d hd hlt hdvd
  have hle := Nat.le_of_dvd hd (orderOf_dvd_of_pow_eq_one ((hiff d).mpr hdvd))
  omega

end Generator

end Defib
