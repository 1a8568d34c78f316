import Mathlib.Data.List.Pairwise
import Mathlib.Data.List.Sort
import Defib.Framework.Store

/-!
# Buffers put together from pieces

Pieces of a store, each with the address it was read at, are copied into a buffer that begins at the
lowest of them.  Where no piece comes to lie the buffer keeps its filling, and nothing says so: the
buffer is a window of the store when the pieces are and leave no gap (`assemble_eq_load`).
-/

namespace Defib

variable {α : Type}

/-- `buf[off:off + len(xs)] = xs`. -/
def splice (buf : List α) (off : ℕ) (xs : List α) : List α :=
  buf.take off ++ (xs ++ buf.drop (off + xs.length))

lemma getElem?_splice {buf : List α} {off : ℕ} (xs : List α) (h : off ≤ buf.length) (j : ℕ) :
    (splice buf off xs)[j]? =
      if off ≤ j ∧ j < off + xs.length then xs[j - off]? else buf[j]? := by
  have hlen : (buf.take off).length = off := List.length_take_of_le h
  rw [splice]
  by_cases hbefore : j < off
  · rw [List.getElem?_append_left (by omega), List.getElem?_take_of_lt hbefore,
      if_neg (by omega)]
  · rw [List.getElem?_append_right (by omega), hlen]
    by_cases hin : j < off + xs.length
    · rw [List.getElem?_append_left (by omega), if_pos (by omega)]
    · rw [List.getElem?_append_right (by omega), List.getElem?_drop, if_neg (by omega)]
      exact congrArg (buf[·]?) (by omega)

lemma length_le_length_splice {buf : List α} {off : ℕ} (xs : List α) (h : off ≤ buf.length) :
    buf.length ≤ (splice buf off xs).length := by
  simp only [splice, List.length_append, List.length_take, List.length_drop]
  omega

/-- The buffer of pieces that are sorted by address. -/
def assemble (fill : α) : List (ℕ × List α) → List α
  | [] => []
  | p :: ps =>
      let last := (p :: ps).getLast (List.cons_ne_nil p ps)
      (p :: ps).foldl (fun buf q => splice buf (q.1 - p.1) q.2)
        (List.replicate (last.1 - p.1 + last.2.length) fill)

/-- Does the piece hold this address? -/
def Holds (p : ℕ × List α) (i : ℕ) : Prop := p.1 ≤ i ∧ i < p.1 + p.2.length

/-- Pieces from `base` on that hold every address up to their end. -/
structure Gapless (base : ℕ) (pieces : List (ℕ × List α)) : Prop where
  base_le : ∀ p ∈ pieces, base ≤ p.1
  holds : ∀ i, base ≤ i → (∃ p ∈ pieces, i < p.1 + p.2.length) → ∃ p ∈ pieces, Holds p i

variable (m : Store α)

/-- Pieces of a store: each shows what is there, and shows something. -/
def PiecesOf (pieces : List (ℕ × List α)) : Prop :=
  ∀ p ∈ pieces, p.2 ≠ [] ∧ m.load p.1 p.2.length = p.2

variable {m}

/-- What the buffer has at an index comes from the store, or it was there before and no piece came
to lie on it. -/
lemma getElem?_foldl_splice {base : ℕ} {pieces : List (ℕ × List α)} (hm : PiecesOf m pieces)
    {buf : List α} (hin : ∀ p ∈ pieces, base ≤ p.1 ∧ p.1 - base ≤ buf.length) {j : ℕ} {x : α}
    (hx : (pieces.foldl (fun buf q => splice buf (q.1 - base) q.2) buf)[j]? = some x) :
    x = m (base + j) ∨ buf[j]? = some x ∧ ∀ p ∈ pieces, ¬ Holds p (base + j) := by
  induction pieces generalizing buf with
  | nil => exact .inr ⟨hx, fun p hp => absurd hp List.not_mem_nil⟩
  | cons p ps ih =>
      obtain ⟨hbase, hoff⟩ := hin p List.mem_cons_self
      have hlen := length_le_length_splice p.2 hoff
      have hrest := ih (fun q hq => hm q (List.mem_cons_of_mem p hq))
        (fun q hq => ⟨(hin q (List.mem_cons_of_mem p hq)).1,
          (hin q (List.mem_cons_of_mem p hq)).2.trans hlen⟩) hx
      rcases hrest with hstore | ⟨hbefore, hnone⟩
      · exact .inl hstore
      · rw [getElem?_splice p.2 hoff] at hbefore
        by_cases hhere : p.1 - base ≤ j ∧ j < p.1 - base + p.2.length
        · rw [if_pos hhere] at hbefore
          have hcell := Store.getElem?_load m p.1 p.2.length (j - (p.1 - base)) (by omega)
          rw [(hm p List.mem_cons_self).2, hbefore,
            show p.1 + (j - (p.1 - base)) = base + j by omega] at hcell
          exact .inl (Option.some.inj hcell)
        · rw [if_neg hhere] at hbefore
          refine .inr ⟨hbefore, fun q hq => ?_⟩
          rcases List.mem_cons.mp hq with rfl | hq
          · rw [Holds]
            omega
          · exact hnone q hq

/-- The first of sorted pieces without a gap is the one at the base. -/
lemma Gapless.head_eq {base : ℕ} {p : ℕ × List α} {ps : List (ℕ × List α)}
    (h : Gapless base (p :: ps)) (hm : PiecesOf m (p :: ps))
    (hsorted : (p :: ps).Pairwise fun q r => q.1 ≤ r.1) : p.1 = base := by
  have hle := h.base_le p List.mem_cons_self
  have hpos := List.length_pos_iff.mpr (hm p List.mem_cons_self).1
  obtain ⟨q, hq, hqle, -⟩ := h.holds base le_rfl ⟨p, List.mem_cons_self, by omega⟩
  rcases List.mem_cons.mp hq with rfl | hq
  · omega
  · have := List.rel_of_pairwise_cons hsorted hq
    omega

/-- **Pieces without a gap** are put together to a window of the store. -/
lemma assemble_eq_load (fill : α) {base : ℕ} {pieces : List (ℕ × List α)} (hm : PiecesOf m pieces)
    (hsorted : pieces.Pairwise fun q r => q.1 ≤ r.1) (h : Gapless base pieces) :
    assemble fill pieces = m.load base (assemble fill pieces).length := by
  cases pieces with
  | nil => rfl
  | cons p ps =>
      refine (Store.load_eq_iff.mpr ⟨rfl, fun j hj => ?_⟩).symm
      have hhead := h.head_eq hm hsorted
      have hlast := List.getLast_mem (List.cons_ne_nil p ps)
      have hle : ∀ q ∈ p :: ps, q.1 ≤ ((p :: ps).getLast (List.cons_ne_nil p ps)).1 :=
        fun q hq => hsorted.rel_getLast_of_rel_getLast_getLast hq le_rfl
      have hin : ∀ q ∈ p :: ps, p.1 ≤ q.1 ∧ q.1 - p.1 ≤ (List.replicate
          (((p :: ps).getLast (List.cons_ne_nil p ps)).1 - p.1 +
            ((p :: ps).getLast (List.cons_ne_nil p ps)).2.length) fill).length := by
        intro q hq
        have := hle q hq
        have := h.base_le q hq
        rw [List.length_replicate]
        omega
      have hx := List.getElem?_eq_getElem hj
      rw [hx]
      refine congrArg some ?_
      rcases getElem?_foldl_splice hm hin hx with hstore | ⟨hfill, hnone⟩
      · rw [hstore, hhead]
      · -- an address that no piece holds is not below the end of the last piece
        rw [List.getElem?_replicate] at hfill
        have hj' := (Option.ite_none_right_eq_some.mp hfill).1
        obtain ⟨q, hq, hholds⟩ := h.holds (p.1 + j) (by omega) ⟨_, hlast, by
          have := hle p List.mem_cons_self
          omega⟩
        exact absurd hholds (hnone q hq)

/-! ## The length of the buffer -/

lemma length_splice_le {buf xs : List α} {off n : ℕ} (hbuf : buf.length ≤ n)
    (h : off + xs.length ≤ n) : (splice buf off xs).length ≤ n := by
  simp only [splice, List.length_append, List.length_take, List.length_drop]
  omega

lemma add_length_le_length_splice {buf : List α} {off : ℕ} (xs : List α) (h : off ≤ buf.length) :
    off + xs.length ≤ (splice buf off xs).length := by
  simp only [splice, List.length_append, List.length_take, List.length_drop]
  omega

lemma length_foldl_splice_le {base n : ℕ} {pieces : List (ℕ × List α)} {buf : List α}
    (hbuf : buf.length ≤ n) (h : ∀ p ∈ pieces, p.1 - base + p.2.length ≤ n) :
    (pieces.foldl (fun buf q => splice buf (q.1 - base) q.2) buf).length ≤ n := by
  induction pieces generalizing buf with
  | nil => exact hbuf
  | cons p ps ih =>
      obtain ⟨hp, hps⟩ := List.forall_mem_cons.mp h
      exact ih (length_splice_le hbuf hp) hps

lemma length_le_length_foldl_splice {base : ℕ} {pieces : List (ℕ × List α)} {buf : List α}
    (h : ∀ p ∈ pieces, p.1 - base ≤ buf.length) :
    buf.length ≤ (pieces.foldl (fun buf q => splice buf (q.1 - base) q.2) buf).length := by
  induction pieces generalizing buf with
  | nil => exact le_rfl
  | cons p ps ih =>
      obtain ⟨hp, hps⟩ := List.forall_mem_cons.mp h
      have hstep := length_le_length_splice p.2 hp
      exact hstep.trans (ih fun q hq => (hps q hq).trans hstep)

/-- A buffer that is long enough for the beginnings of the pieces is long enough for their ends. -/
lemma add_length_le_length_foldl_splice {base : ℕ} {pieces : List (ℕ × List α)} {buf : List α}
    (h : ∀ p ∈ pieces, p.1 - base ≤ buf.length) {p : ℕ × List α} (hp : p ∈ pieces) :
    p.1 - base + p.2.length ≤
      (pieces.foldl (fun buf q => splice buf (q.1 - base) q.2) buf).length := by
  induction pieces generalizing buf with
  | nil => exact absurd hp List.not_mem_nil
  | cons q qs ih =>
      obtain ⟨hq, hqs⟩ := List.forall_mem_cons.mp h
      have hrest : ∀ r ∈ qs, r.1 - base ≤ (splice buf (q.1 - base) q.2).length :=
        fun r hr => (hqs r hr).trans (length_le_length_splice q.2 hq)
      rcases List.mem_cons.mp hp with rfl | hp
      · exact (add_length_le_length_splice p.2 hq).trans (length_le_length_foldl_splice hrest)
      · exact ih hrest hp

/-- The buffer reaches no further than the pieces. -/
lemma length_assemble_le (fill : α) {base n : ℕ} {pieces : List (ℕ × List α)}
    (hbase : ∀ p ∈ pieces, base ≤ p.1) (hhead : ∀ p ∈ pieces.head?, p.1 = base)
    (h : ∀ p ∈ pieces, p.1 + p.2.length ≤ base + n) : (assemble fill pieces).length ≤ n := by
  cases pieces with
  | nil => exact Nat.zero_le n
  | cons p ps =>
      have hp : p.1 = base := hhead p rfl
      have hend : ∀ q ∈ p :: ps, q.1 - p.1 + q.2.length ≤ n := by
        intro q hq
        have := h q hq
        have := hbase q hq
        omega
      refine length_foldl_splice_le ?_ hend
      rw [List.length_replicate]
      exact hend _ (List.getLast_mem _)

/-- The buffer has room for each of the pieces. -/
lemma le_length_assemble (fill : α) {base : ℕ} {pieces : List (ℕ × List α)}
    (hsorted : pieces.Pairwise fun q r => q.1 ≤ r.1) (hhead : ∀ p ∈ pieces.head?, p.1 = base)
    {p : ℕ × List α} (hp : p ∈ pieces) :
    p.1 - base + p.2.length ≤ (assemble fill pieces).length := by
  cases pieces with
  | nil => exact absurd hp List.not_mem_nil
  | cons q qs =>
      rw [← hhead q rfl]
      refine add_length_le_length_foldl_splice (fun r hr => ?_) hp
      have hlast : r.1 ≤ ((q :: qs).getLast (List.cons_ne_nil q qs)).1 :=
        hsorted.rel_getLast_of_rel_getLast_getLast hr le_rfl
      rw [List.length_replicate]
      omega

end Defib
