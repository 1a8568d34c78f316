import Mathlib.Data.Option.Basic
import Mathlib.Tactic.Common

/-!
# Chains

A partial map leads from an element to the next one, or ends there.  `chain` follows it a number of
times, `chainEnd` follows it to its end, but no further than a bound.

`chainEnd_eq_none_iff` says that it gives up exactly on the chains that are as long as the bound,
and `isSome_chain_of_loop` that a chain with a loop has no end.
-/

namespace Defib

variable {α : Type*} (follow : α → Option α)

/-- Follow the map `n` times. -/
def chain : ℕ → α → Option α
  | 0, a => some a
  | n + 1, a => (follow a).bind (chain n)

/-- The end of a chain, if it is one of the first elements. -/
def chainEnd : ℕ → α → Option α
  | 0, _ => none
  | bound + 1, a =>
      match follow a with
      | none => some a
      | some b => chainEnd bound b

/-- The chain comes back to an element that it has passed. -/
def HasLoop (a : α) : Prop :=
  ∃ n k b, 0 < k ∧ chain follow n a = some b ∧ chain follow k b = some b

variable {follow}

lemma chain_add (m n : ℕ) (a : α) :
    chain follow (m + n) a = (chain follow m a).bind (chain follow n) := by
  induction m generalizing a with
  | zero => rw [Nat.zero_add, chain, Option.bind_some]
  | succ m ih =>
      rw [Nat.succ_add, chain, chain]
      cases follow a with
      | none => rfl
      | some b => exact ih b

lemma isSome_chain_of_le {m n : ℕ} (hmn : m ≤ n) {a : α} (h : (chain follow n a).isSome) :
    (chain follow m a).isSome := by
  obtain ⟨k, rfl⟩ := Nat.exists_eq_add_of_le hmn
  rw [chain_add] at h
  exact Option.isSome_of_isSome_bind h

/-- **The end is not found in chains that are too long.** -/
lemma chainEnd_eq_none_iff {bound : ℕ} {a : α} :
    chainEnd follow bound a = none ↔ (chain follow bound a).isSome := by
  induction bound generalizing a with
  | zero => simp [chainEnd, chain]
  | succ bound ih =>
      rw [chainEnd, chain]
      cases follow a with
      | none => simp
      | some b => exact ih

/-- Going round a loop any number of times. -/
lemma chain_loop {k : ℕ} {a : α} (h : chain follow k a = some a) (m : ℕ) :
    chain follow (m * k) a = some a := by
  induction m with
  | zero => rw [Nat.zero_mul, chain]
  | succ m ih => rw [Nat.succ_mul, chain_add, ih, Option.bind_some, h]

/-- **A chain with a loop has no end.** -/
lemma isSome_chain_of_loop {a : α} (h : HasLoop follow a) (bound : ℕ) :
    (chain follow bound a).isSome := by
  obtain ⟨n, k, b, hk, hn, hb⟩ := h
  have hround : chain follow (n + bound * k) a = some b := by
    rw [chain_add, hn, Option.bind_some, chain_loop hb]
  have hle : bound ≤ n + bound * k :=
    Nat.le_trans (Nat.le_mul_of_pos_right bound hk) (Nat.le_add_left _ _)
  exact isSome_chain_of_le hle (by rw [hround]; rfl)

end Defib
