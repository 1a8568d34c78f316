import Mathlib.Data.List.Basic
import Mathlib.Data.List.GetD
import Mathlib.Tactic.Common

/-!
# Flat stores

A flat store assigns a value to every natural address.  It is the memory model shared by
everything below: a C output buffer, the device's RAM, and the cell array of a flash chip
are all stores of bytes.

Two operations and their algebra: `load m a n` reads the window of `n` cells at `a`, and
`write m a xs` overwrites the window at `a` with `xs`.  The laws the rest of the development
uses are that windows split (`load_add`), that a write is read back (`load_write_self`), and that
it does not disturb a disjoint window (`load_write_of_disjoint`).
-/

namespace Defib

/-- A store: one value per address. -/
abbrev Store (α : Type*) := ℕ → α

namespace Store

variable {α : Type*}

/-- The window of `n` cells at address `a`. -/
def load (m : Store α) (a n : ℕ) : List α := (List.range n).map fun i => m (a + i)

/-- Overwrite the window at `a` with `xs`. -/
def write (m : Store α) (a : ℕ) (xs : List α) : Store α := fun i =>
  if a ≤ i then xs.getD (i - a) (m i) else m i

/-! ## Windows -/

@[simp] lemma length_load (m : Store α) (a n : ℕ) : (m.load a n).length = n := by
  simp [load]

lemma getElem?_load (m : Store α) (a n i : ℕ) (hi : i < n) :
    (m.load a n)[i]? = some (m (a + i)) := by
  simp [load, hi]

lemma load_add (m : Store α) (a n k : ℕ) :
    m.load a (n + k) = m.load a n ++ m.load (a + n) k := by
  simp [load, List.range_add, Nat.add_assoc, Function.comp_def]

lemma load_one (m : Store α) (a : ℕ) : m.load a 1 = [m a] := rfl

lemma load_succ (m : Store α) (a n : ℕ) : m.load a (n + 1) = m a :: m.load (a + 1) n := by
  rw [Nat.add_comm n 1, load_add, load_one, List.singleton_append]

/-- Two windows are equal when their cells are. -/
lemma load_eq_load_iff {m m' : Store α} {a a' n : ℕ} :
    m.load a n = m'.load a' n ↔ ∀ i < n, m (a + i) = m' (a' + i) := by
  simp [load, List.map_inj_left]

lemma load_congr {m m' : Store α} {a n : ℕ} (h : ∀ i, a ≤ i → i < a + n → m i = m' i) :
    m.load a n = m'.load a n := by
  refine List.map_congr_left fun i hi => ?_
  have hi' : i < n := List.mem_range.mp hi
  exact h _ (by omega) (by omega)

/-- A window is determined by its cells. -/
lemma load_eq_iff {m : Store α} {a n : ℕ} {xs : List α} :
    m.load a n = xs ↔ xs.length = n ∧ ∀ i, i < n → xs[i]? = some (m (a + i)) := by
  constructor
  · rintro rfl
    exact ⟨length_load .., fun i hi => getElem?_load m a n i hi⟩
  · rintro ⟨hlen, h⟩
    apply List.ext_getElem?
    intro i
    by_cases hi : i < n
    · rw [getElem?_load m a n i hi, h i hi]
    · rw [List.getElem?_eq_none (by simpa using hi), List.getElem?_eq_none (by omega)]

/-- Sub-windows of a window. -/
lemma take_drop_load (m : Store α) (a n i k : ℕ) (h : i + k ≤ n) :
    ((m.load a n).drop i).take k = m.load (a + i) k := by
  obtain ⟨r, rfl⟩ := Nat.exists_eq_add_of_le h
  rw [show i + k + r = i + (k + r) by omega, load_add, load_add,
    List.drop_left' (length_load ..), List.take_left' (length_load ..)]

lemma take_load (m : Store α) (a : ℕ) {n k : ℕ} (h : k ≤ n) :
    (m.load a n).take k = m.load a k := by
  have := take_drop_load m a n 0 k (by omega)
  simpa using this

/-! ## Writing -/

lemma write_apply_of_lt (m : Store α) {a i : ℕ} (xs : List α) (h : i < a) :
    m.write a xs i = m i := by
  simp [write, Nat.not_le.mpr h]

lemma write_apply_of_ge (m : Store α) {a i : ℕ} (xs : List α) (h : a + xs.length ≤ i) :
    m.write a xs i = m i := by
  have ha : a ≤ i := by omega
  simp only [write, ha, if_true]
  rw [List.getD_eq_default _ _ (by omega)]

lemma write_apply_add (m : Store α) (a : ℕ) (xs : List α) {i : ℕ} {x : α} (h : xs[i]? = some x) :
    m.write a xs (a + i) = x := by
  simp [write, List.getD_eq_getElem?_getD, h]

/-- A write is read back. -/
lemma load_write_self (m : Store α) (a : ℕ) (xs : List α) :
    (m.write a xs).load a xs.length = xs := by
  rw [load_eq_iff]
  refine ⟨rfl, fun i hi => ?_⟩
  rw [List.getElem?_eq_getElem hi, write_apply_add m a xs (List.getElem?_eq_getElem hi)]

/-- Two writes in a row are one. -/
lemma write_write_append (m : Store α) (a : ℕ) (xs ys : List α) :
    (m.write a xs).write (a + xs.length) ys = m.write a (xs ++ ys) := by
  funext i
  simp only [write]
  by_cases hi : a ≤ i
  · rw [if_pos hi, if_pos hi]
    by_cases hlt : a + xs.length ≤ i
    · rw [if_pos hlt, List.getD_append_right _ _ _ _ (by omega), Nat.sub_sub,
        List.getD_eq_default xs _ (by omega)]
    · rw [if_neg hlt, List.getD_append _ _ _ _ (by omega)]
  · rw [if_neg hi, if_neg hi, if_neg (by omega)]

/-- A write leaves disjoint windows alone. -/
lemma load_write_of_disjoint (m : Store α) {a b n : ℕ} {xs : List α}
    (h : b + n ≤ a ∨ a + xs.length ≤ b) : (m.write a xs).load b n = m.load b n := by
  refine load_congr fun i hi hi' => ?_
  rcases h with h | h
  · exact write_apply_of_lt m xs (by omega)
  · exact write_apply_of_ge m xs (by omega)

end Store

end Defib
