import Mathlib.Data.List.Basic
import Mathlib.Tactic.Common
import Defib.Framework.Store

/-!
# Ranges cut into pieces

Device code never moves a long range at once: a loop takes as much of the rest as a buffer, a
page or a packet holds, handles that piece, and advances.  A `Cut` says how long the first piece
of a range is; `Cut.pieces` is the list of pieces `(start, length)` such a loop visits.

* `pieces_of_pos` unfolds one turn of the loop, and `pieces_induction` is the induction over its
  turns.
* `flatMap_pieces_load`: a loop that reads every piece of a store correctly reads the range.
* `mem_pieces_upTo`, `mem_pieces_within`: where the pieces of the two common rules lie, and
  `length_pieces_upTo`: how many there are.
-/

namespace Defib

/-- A rule for cutting ranges: the length of the first piece of the range of `n` cells at `a`.
Pieces are non-empty and stay in their range, so that the loop ends. -/
structure Cut where
  first : ℕ → ℕ → ℕ
  first_pos : ∀ a n, 0 < n → 0 < first a n
  first_le : ∀ a n, first a n ≤ n

namespace Cut

/-- Pieces of at most `limit` cells. -/
def upTo (limit : ℕ) (h : 0 < limit) : Cut where
  first _ n := if n > limit then limit else n
  first_pos a n hn := by split <;> omega
  first_le a n := by split <;> omega

/-- Pieces that do not cross a multiple of `block`. -/
def within (block : ℕ) (h : 0 < block) : Cut where
  first a n := if n < block - a % block then n else block - a % block
  first_pos a n hn := by
    have := Nat.mod_lt a h
    split <;> omega
  first_le a n := by split <;> omega

variable (c : Cut)

/-- The loop, with fuel. -/
def go : ℕ → ℕ → ℕ → List (ℕ × ℕ)
  | 0, _, _ => []
  | fuel + 1, a, n => if n = 0 then [] else (a, c.first a n) ::
      go fuel (a + c.first a n) (n - c.first a n)

/-- The pieces of the range of `n` cells at `a`, in order. -/
def pieces (a n : ℕ) : List (ℕ × ℕ) := c.go n a n

lemma go_eq_pieces {fuel a n : ℕ} (h : n ≤ fuel) : c.go fuel a n = c.pieces a n := by
  -- both fuels suffice, so the induction is on the larger one with `n` general
  induction fuel using Nat.strongRecOn generalizing a n with
  | ind fuel ih =>
      rcases Nat.eq_zero_or_pos n with rfl | hn
      · cases fuel <;> simp [pieces, go]
      · obtain ⟨f, rfl⟩ : ∃ f, fuel = f + 1 := ⟨fuel - 1, by omega⟩
        obtain ⟨k, rfl⟩ : ∃ k, n = k + 1 := ⟨n - 1, by omega⟩
        have hpos := c.first_pos a (k + 1) hn
        rw [pieces, go, go, if_neg (by omega), if_neg (by omega), ih f (by omega) (by omega),
          ih k (by omega) (by omega)]

@[simp] lemma pieces_zero (a : ℕ) : c.pieces a 0 = [] := rfl

/-- One turn of the loop. -/
lemma pieces_of_pos {n : ℕ} (a : ℕ) (hn : 0 < n) :
    c.pieces a n = (a, c.first a n) :: c.pieces (a + c.first a n) (n - c.first a n) := by
  obtain ⟨k, rfl⟩ : ∃ k, n = k + 1 := ⟨n - 1, by omega⟩
  have hpos := c.first_pos a (k + 1) hn
  rw [pieces, go, if_neg (by omega), go_eq_pieces _ (by omega)]

/-- Induction over the turns of the loop. -/
lemma pieces_induction {motive : ℕ → ℕ → Prop} (zero : ∀ a, motive a 0)
    (turn : ∀ a n, 0 < n → motive (a + c.first a n) (n - c.first a n) → motive a n)
    (a n : ℕ) : motive a n := by
  induction n using Nat.strongRecOn generalizing a with
  | ind n ih =>
      rcases Nat.eq_zero_or_pos n with rfl | hn
      · exact zero a
      · have hpos := c.first_pos a n hn
        exact turn a n hn (ih _ (by omega) _)

/-- Pieces are non-empty and lie in their range. -/
lemma mem_pieces {a n : ℕ} {p : ℕ × ℕ} (hp : p ∈ c.pieces a n) :
    a ≤ p.1 ∧ 0 < p.2 ∧ p.1 + p.2 ≤ a + n := by
  revert hp
  refine c.pieces_induction (motive := fun a n => p ∈ c.pieces a n →
    a ≤ p.1 ∧ 0 < p.2 ∧ p.1 + p.2 ≤ a + n) (fun a hp => ?_) (fun a n hn ih hp => ?_) a n
  · simp at hp
  · have hpos := c.first_pos a n hn
    have hle := c.first_le a n
    rw [pieces_of_pos c a hn, List.mem_cons] at hp
    rcases hp with rfl | hp
    · exact ⟨Nat.le_refl _, hpos, by simpa using hle⟩
    · obtain ⟨h₁, h₂, h₃⟩ := ih hp
      exact ⟨by omega, h₂, by omega⟩

/-- Pieces start at increasing addresses. -/
lemma pieces_pairwise (a n : ℕ) : (c.pieces a n).Pairwise fun p q => p.1 < q.1 := by
  refine c.pieces_induction (motive := fun a n => (c.pieces a n).Pairwise fun p q => p.1 < q.1)
    (fun a => ?_) (fun a n hn ih => ?_) a n
  · rw [pieces_zero]
    exact List.Pairwise.nil
  · have hpos := c.first_pos a n hn
    rw [pieces_of_pos c a hn, List.pairwise_cons]
    refine ⟨fun q hq => ?_, ih⟩
    have := (c.mem_pieces hq).1
    omega

/-- Pieces of a fixed limit start at its multiples. -/
lemma mem_pieces_upTo {limit : ℕ} (h : 0 < limit) {a n : ℕ} {p : ℕ × ℕ}
    (ha : a % limit = 0) (hp : p ∈ (upTo limit h).pieces a n) :
    p.1 % limit = 0 ∧ p.2 ≤ limit := by
  revert ha hp
  refine (upTo limit h).pieces_induction (motive := fun a n => a % limit = 0 →
    p ∈ (upTo limit h).pieces a n → p.1 % limit = 0 ∧ p.2 ≤ limit)
    (fun a _ hp => by simp at hp) (fun a n hn ih ha hp => ?_) a n
  rw [pieces_of_pos _ _ hn, List.mem_cons] at hp
  rcases hp with rfl | hp
  · refine ⟨ha, ?_⟩
    simp only [upTo]
    split <;> omega
  · by_cases hlt : n > limit
    · have hfirst : (upTo limit h).first a n = limit := if_pos hlt
      rw [hfirst] at ih hp
      exact ih (by rw [Nat.add_mod_right]; exact ha) hp
    · have hfirst : (upTo limit h).first a n = n := if_neg hlt
      rw [hfirst, Nat.sub_self, pieces_zero] at hp
      cases hp

/-- Pieces are no longer than their limit. -/
lemma length_le_of_mem_upTo {limit : ℕ} (h : 0 < limit) {a n : ℕ} {p : ℕ × ℕ}
    (hp : p ∈ (upTo limit h).pieces a n) : p.2 ≤ limit := by
  revert hp
  refine (upTo limit h).pieces_induction (motive := fun a n =>
    p ∈ (upTo limit h).pieces a n → p.2 ≤ limit)
    (fun a hp => by simp at hp) (fun a n hn ih hp => ?_) a n
  rw [pieces_of_pos _ _ hn, List.mem_cons] at hp
  rcases hp with rfl | hp
  · simp only [upTo]
    split <;> omega
  · exact ih hp

/-- The number of turns of a loop with a fixed limit. -/
lemma length_pieces_upTo {limit : ℕ} (h : 0 < limit) (a n : ℕ) :
    ((upTo limit h).pieces a n).length = (n + limit - 1) / limit := by
  refine (upTo limit h).pieces_induction (motive := fun a n =>
    ((upTo limit h).pieces a n).length = (n + limit - 1) / limit)
    (fun a => ?_) (fun a n hn ih => ?_) a n
  · rw [pieces_zero, List.length_nil, Nat.div_eq_of_lt (by omega)]
  · rw [pieces_of_pos _ _ hn, List.length_cons, ih]
    by_cases hlt : n > limit
    · have hfirst : (upTo limit h).first a n = limit := if_pos hlt
      rw [hfirst, show n + limit - 1 = n - limit + limit - 1 + limit by omega,
        Nat.add_div_right _ h]
    · have hfirst : (upTo limit h).first a n = n := if_neg hlt
      rw [hfirst, Nat.sub_self, show 0 + limit - 1 = limit - 1 by omega,
        Nat.div_eq_of_lt (by omega : limit - 1 < limit),
        show n + limit - 1 = n - 1 + limit by omega, Nat.add_div_right _ h,
        Nat.div_eq_of_lt (by omega : n - 1 < limit)]

/-- A piece cut at multiples of `block` lies between two of them. -/
lemma mem_pieces_within {block : ℕ} (hb : 0 < block) {a n : ℕ} {p : ℕ × ℕ}
    (hp : p ∈ (within block hb).pieces a n) : p.1 % block + p.2 ≤ block := by
  revert hp
  refine (within block hb).pieces_induction (motive := fun a n =>
    p ∈ (within block hb).pieces a n → p.1 % block + p.2 ≤ block)
    (fun a hp => by simp at hp) (fun a n hn ih hp => ?_) a n
  rw [pieces_of_pos _ _ hn, List.mem_cons] at hp
  rcases hp with rfl | hp
  · have := Nat.mod_lt a hb
    simp only [within]
    split <;> omega
  · exact ih hp

/-- **Reading piece by piece.**  If every piece is read as the store has it, so is the range. -/
lemma flatMap_pieces_load {α : Type*} (m : Store α) (read : ℕ → ℕ → List α) (a n : ℕ)
    (h : ∀ p ∈ c.pieces a n, read p.1 p.2 = m.load p.1 p.2) :
    (c.pieces a n).flatMap (fun p => read p.1 p.2) = m.load a n := by
  revert h
  refine c.pieces_induction (motive := fun a n =>
    (∀ p ∈ c.pieces a n, read p.1 p.2 = m.load p.1 p.2) →
    (c.pieces a n).flatMap (fun p => read p.1 p.2) = m.load a n)
    (fun a _ => rfl) (fun a n hn ih h => ?_) a n
  have hle := c.first_le a n
  rw [pieces_of_pos c a hn] at h ⊢
  rw [List.flatMap_cons, h _ (by simp), ih fun p hp => h p (by simp [hp])]
  conv_rhs => rw [show n = c.first a n + (n - c.first a n) by omega, Store.load_add]

end Cut

end Defib
