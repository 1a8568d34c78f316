import Mathlib.Data.List.Basic
import Mathlib.Data.List.Induction
import Mathlib.Tactic.Common

/-!
# Block stuffing

The combinatorics behind consistent-overhead stuffing, over an arbitrary alphabet `α` with a
distinguished symbol `z` and a block capacity `cap`.

A word is cut into *blocks* that contain no `z`: a block ends at the next `z`, which it
swallows, or after `cap` symbols, in which case it swallows nothing.  `split` performs the
cut and `join` undoes it, putting back one `z` after every block but the last unless the
block is full.  `join_split` is the round trip, `split_spec` says that blocks are free of `z`
and at most `cap` long, and `length_wire_split_le` bounds what a length-prefixed rendering of
the blocks costs.
-/

namespace Defib.Stuffing

variable {α : Type*} [DecidableEq α] (z : α) (cap : ℕ)

/-! ## Cutting a word into blocks -/

/-- One symbol: close the current block at `z` or at capacity, otherwise extend it. -/
def splitStep (st : List (List α) × List α) (x : α) : List (List α) × List α :=
  if x = z then (st.1 ++ [st.2], [])
  else if st.2.length + 1 = cap then (st.1 ++ [st.2 ++ [x]], [])
  else (st.1, st.2 ++ [x])

/-- Closed blocks and the open block after reading a word. -/
def splitFrom (st : List (List α) × List α) (xs : List α) : List (List α) × List α :=
  xs.foldl (splitStep z cap) st

/-- The blocks of a word; the open block is closed at the end of the word. -/
def split (xs : List α) : List (List α) :=
  (splitFrom z cap ([], []) xs).1 ++ [(splitFrom z cap ([], []) xs).2]

/-- What a closed block swallows. -/
def gap (b : List α) : List α := if b.length = cap then [] else [z]

/-- The word a sequence of closed blocks stands for. -/
def joinClosed (bs : List (List α)) : List α := bs.flatMap fun b => b ++ gap z cap b

/-- The word a sequence of blocks stands for when the last one ends with the word. -/
def join : List (List α) → List α
  | [] => []
  | [b] => b
  | b :: b' :: bs => b ++ gap z cap b ++ join (b' :: bs)

omit [DecidableEq α] in
lemma join_append_singleton (bs : List (List α)) (b : List α) :
    join z cap (bs ++ [b]) = joinClosed z cap bs ++ b := by
  induction bs with
  | nil => rfl
  | cons c bs ih =>
      obtain ⟨d, ds, hd⟩ : ∃ d ds, bs ++ [b] = d :: ds :=
        List.exists_cons_of_ne_nil (by simp)
      rw [List.cons_append, hd, join, ← hd, ih]
      simp [joinClosed, List.append_assoc]

/-! ## The invariant of the cut -/

/-- What holds of the blocks after any prefix `xs` of the word. -/
structure SplitInv (xs : List α) (st : List (List α) × List α) : Prop where
  /-- Nothing is lost. -/
  joins : joinClosed z cap st.1 ++ st.2 = xs
  /-- Closed blocks hold no `z`. -/
  closed_free : ∀ b ∈ st.1, z ∉ b
  /-- Closed blocks fit. -/
  closed_le : ∀ b ∈ st.1, b.length ≤ cap
  /-- The open block holds no `z`. -/
  open_free : z ∉ st.2
  /-- The open block is not yet full. -/
  open_lt : st.2.length < cap

omit [DecidableEq α] in
lemma splitInv_nil (hcap : 0 < cap) : SplitInv z cap [] ([], []) :=
  ⟨rfl, by simp, by simp, by simp, by simpa using hcap⟩

omit [DecidableEq α] in
/-- A block that ends swallows what it has to. -/
lemma SplitInv.close {xs : List α} {closed : List (List α)} {block : List α} (hcap : 0 < cap)
    (hfree : ∀ b ∈ closed, z ∉ b) (hle : ∀ b ∈ closed, b.length ≤ cap) (hblock : z ∉ block)
    (hlen : block.length ≤ cap)
    (hjoins : joinClosed z cap closed ++ (block ++ gap z cap block) = xs) :
    SplitInv z cap xs (closed ++ [block], []) := by
  refine ⟨?_, ?_, ?_, by simp, hcap⟩
  · rw [joinClosed, List.flatMap_append, List.flatMap_singleton, List.append_nil]
    exact hjoins
  · intro b hb
    rcases List.mem_append.mp hb with hb | hb
    · exact hfree b hb
    · rw [List.mem_singleton.mp hb]
      exact hblock
  · intro b hb
    rcases List.mem_append.mp hb with hb | hb
    · exact hle b hb
    · rw [List.mem_singleton.mp hb]
      exact hlen

lemma SplitInv.step {xs : List α} {st : List (List α) × List α}
    (h : SplitInv z cap xs st) (x : α) : SplitInv z cap (xs ++ [x]) (splitStep z cap st x) := by
  obtain ⟨hj, hf, hl, hof, hol⟩ := h
  have hcap : 0 < cap := by omega
  unfold splitStep
  by_cases hx : x = z
  · subst hx
    have hgap : gap x cap st.2 = [x] := by simp [gap, Nat.ne_of_lt hol]
    rw [if_pos rfl]
    apply SplitInv.close x cap hcap hf hl hof (Nat.le_of_lt hol)
    rw [hgap, ← List.append_assoc, hj]
  · have hfree : z ∉ st.2 ++ [x] := by
      simp only [List.mem_append, List.mem_singleton, not_or]
      exact ⟨hof, fun h => hx h.symm⟩
    rw [if_neg hx]
    by_cases hfull : st.2.length + 1 = cap
    · have hlen : (st.2 ++ [x]).length = cap := by rw [List.length_append]; exact hfull
      have hgap : gap z cap (st.2 ++ [x]) = [] := by rw [gap, if_pos hlen]
      rw [if_pos hfull]
      apply SplitInv.close z cap hcap hf hl hfree (Nat.le_of_eq hlen)
      rw [hgap, List.append_nil, ← List.append_assoc, hj]
    · rw [if_neg hfull]
      refine ⟨?_, hf, hl, hfree, ?_⟩
      · rw [← hj, List.append_assoc]
      · simp only [List.length_append, List.length_singleton]
        omega

lemma splitInv_splitFrom (hcap : 0 < cap) (xs : List α) :
    SplitInv z cap xs (splitFrom z cap ([], []) xs) := by
  induction xs using List.reverseRecOn with
  | nil => exact splitInv_nil z cap hcap
  | append_singleton xs x ih =>
      have h := ih.step z cap x
      rwa [show splitStep z cap (splitFrom z cap ([], []) xs) x
        = splitFrom z cap ([], []) (xs ++ [x]) by simp [splitFrom]] at h

/-! ## The round trip and the cost -/

/-- **Round trip.** -/
lemma join_split (hcap : 0 < cap) (xs : List α) : join z cap (split z cap xs) = xs := by
  rw [split, join_append_singleton]
  exact (splitInv_splitFrom z cap hcap xs).joins

/-- Blocks are free of `z` and fit the capacity. -/
lemma split_spec (hcap : 0 < cap) (xs : List α) :
    ∀ b ∈ split z cap xs, z ∉ b ∧ b.length ≤ cap := by
  have h := splitInv_splitFrom z cap hcap xs
  intro b hb
  rcases List.mem_append.mp hb with hb | hb
  · exact ⟨h.closed_free b hb, h.closed_le b hb⟩
  · rw [List.mem_singleton.mp hb]
    exact ⟨h.open_free, Nat.le_of_lt h.open_lt⟩

/-- Blocks written out one after the other, each behind a code for its length. -/
def wire (code : ℕ → α) (bs : List (List α)) : List α :=
  bs.flatMap fun b => code (b.length + 1) :: b

omit [DecidableEq α] in
lemma wire_append (code : ℕ → α) (bs cs : List (List α)) :
    wire code (bs ++ cs) = wire code bs ++ wire code cs := by
  simp [wire]

omit [DecidableEq α] in
/-- Each closed block costs its code and saves the `z` it swallows; a full block saves
nothing, but there is at most one of those per `cap` symbols. -/
lemma length_wire_le (hcap : 0 < cap) (code : ℕ → α) (bs : List (List α)) :
    (wire code bs).length ≤
      (joinClosed z cap bs).length + (joinClosed z cap bs).length / cap := by
  have key : ∃ full, (wire code bs).length = (joinClosed z cap bs).length + full ∧
      full * cap ≤ (joinClosed z cap bs).length := by
    induction bs with
    | nil => exact ⟨0, rfl, by simp⟩
    | cons b bs ih =>
        obtain ⟨full, hlen, hfull⟩ := ih
        simp only [wire, joinClosed, List.flatMap_cons, List.length_append,
          List.length_cons] at hlen hfull ⊢
        by_cases hb : b.length = cap
        · have hgap : (gap z cap b).length = 0 := by simp [gap, hb]
          refine ⟨full + 1, by omega, ?_⟩
          rw [Nat.add_mul]
          omega
        · have hgap : (gap z cap b).length = 1 := by simp [gap, hb]
          exact ⟨full, by omega, by omega⟩
  obtain ⟨full, hlen, hfull⟩ := key
  rw [hlen]
  exact Nat.add_le_add_left ((Nat.le_div_iff_mul_le hcap).mpr hfull) _

/-- **Consistent overhead.**  Stuffing a word costs one symbol, plus at most one per `cap`. -/
lemma length_wire_split_le (hcap : 0 < cap) (code : ℕ → α) (xs : List α) :
    (wire code (split z cap xs)).length ≤ xs.length + 1 + xs.length / cap := by
  have h := splitInv_splitFrom z cap hcap xs
  have hjoin := congrArg List.length h.joins
  have hclosed := length_wire_le z cap hcap code (splitFrom z cap ([], []) xs).1
  have hdiv : (joinClosed z cap (splitFrom z cap ([], []) xs).1).length / cap ≤
      xs.length / cap := Nat.div_le_div_right (by rw [← hjoin]; simp)
  rw [split, wire_append, List.length_append]
  simp only [wire, List.flatMap_cons, List.flatMap_nil, List.append_nil, List.length_append,
    List.length_cons] at hjoin hclosed ⊢
  omega

end Defib.Stuffing
