import Mathlib.Data.List.Basic
import Mathlib.Tactic.Common

/-!
# Reading from a stream

A `StreamReader` takes items off the front of a stream, or raises.  `Reads p xs a` says that `p`
takes exactly `xs` and yields `a`, whatever stands behind `xs`.  Its rules follow the program: one
for each way to put readers together, and two for a loop, whose rounds go on or end it.
-/

namespace Defib

/-- A program that reads from a stream. -/
abbrev StreamReader (ι ε : Type) : Type → Type := StateT (List ι) (Except ε)

namespace StreamReader

variable {ι ε α β σ : Type}

/-- Take the next `n` items; a stream that has fewer of them raises. -/
def exactly (incomplete : ε) (n : ℕ) : StreamReader ι ε (List ι) := fun stream =>
  if stream.length < n then .error incomplete else .ok (stream.take n, stream.drop n)

/-- At most `n` rounds of a loop; a round says with what the next one begins, or ends the loop. -/
def rounds (incomplete : ε) (round : σ → StreamReader ι ε (σ ⊕ α)) :
    ℕ → σ → StreamReader ι ε α
  | 0, _ => fun _ => .error incomplete
  | n + 1, s => round s >>= Sum.elim (rounds incomplete round n) pure

/-- A loop without a bound of its own, each of whose rounds takes an item at least: a stream is
read to its end after as many rounds as it has items. -/
def forever (incomplete : ε) (round : σ → StreamReader ι ε (σ ⊕ α)) (s : σ) :
    StreamReader ι ε α := fun stream => rounds incomplete round stream.length s stream

/-- `p` takes exactly `xs` and yields `a`. -/
def Reads (p : StreamReader ι ε α) (xs : List ι) (a : α) : Prop :=
  ∀ rest, p (xs ++ rest) = .ok (a, rest)

lemma bind_of_ok {p : StreamReader ι ε α} {stream rest : List ι} {a : α}
    (h : p stream = .ok (a, rest)) (f : α → StreamReader ι ε β) :
    (p >>= f) stream = f a rest := by
  change (p stream >>= fun r => f r.1 r.2) = _
  rw [h]
  rfl

lemma exists_of_bind_eq_ok {p : StreamReader ι ε α} {f : α → StreamReader ι ε β}
    {stream : List ι} {r : β × List ι} (h : (p >>= f) stream = .ok r) :
    ∃ a rest, p stream = .ok (a, rest) ∧ f a rest = .ok r := by
  cases hp : p stream with
  | error e =>
      change (p stream >>= fun r => f r.1 r.2) = _ at h
      rw [hp] at h
      cases h
  | ok q =>
      rw [bind_of_ok hp] at h
      exact ⟨q.1, q.2, rfl, h⟩

lemma reads_pure (a : α) : Reads (pure a : StreamReader ι ε α) [] a := fun _ => rfl

lemma Reads.bind {p : StreamReader ι ε α} {f : α → StreamReader ι ε β} {xs ys : List ι} {a : α}
    {b : β} (hp : Reads p xs a) (hf : Reads (f a) ys b) : Reads (p >>= f) (xs ++ ys) b := by
  intro rest
  rw [List.append_assoc, bind_of_ok (hp (ys ++ rest))]
  exact hf rest

/-- What is left to do after the last item. -/
lemma Reads.bind_pure {p : StreamReader ι ε α} {f : α → StreamReader ι ε β} {xs : List ι} {a : α}
    {b : β} (hp : Reads p xs a) (hf : Reads (f a) [] b) : Reads (p >>= f) xs b := by
  have h := hp.bind hf
  rwa [List.append_nil] at h

lemma reads_exactly (incomplete : ε) {n : ℕ} {xs : List ι} (h : xs.length = n) :
    Reads (exactly incomplete n) xs xs := by
  intro rest
  rw [exactly, if_neg (by rw [List.length_append]; omega), List.take_left' h, List.drop_left' h]

section Loops

variable {incomplete : ε} {round : σ → StreamReader ι ε (σ ⊕ α)}

/-- More rounds than a loop needs do not change what it yields. -/
lemma rounds_mono {n m : ℕ} (hnm : n ≤ m) {s : σ} {stream : List ι} {r : α × List ι}
    (h : rounds incomplete round n s stream = .ok r) :
    rounds incomplete round m s stream = .ok r := by
  induction n generalizing m s stream with
  | zero => cases h
  | succ n ih =>
      obtain ⟨m, rfl⟩ := Nat.exists_eq_add_of_le' (Nat.le_trans (Nat.le_add_left 1 n) hnm)
      rw [rounds] at h ⊢
      obtain ⟨next, rest, hround, hnext⟩ := exists_of_bind_eq_ok h
      rw [bind_of_ok hround]
      cases next with
      | inl s' => exact ih (Nat.le_of_succ_le_succ hnm) hnext
      | inr a => exact hnext

/-- The loop ends in this round. -/
lemma Reads.forever_stop {s : σ} {xs : List ι} {a : α} (h : Reads (round s) xs (.inr a))
    (hne : xs ≠ []) : Reads (forever incomplete round s) xs a := by
  intro rest
  obtain ⟨n, hn⟩ : ∃ n, (xs ++ rest).length = n + 1 :=
    Nat.exists_eq_add_one.mpr (List.length_pos_iff.mpr (List.append_ne_nil_of_left_ne_nil hne rest))
  rw [forever, hn, rounds, bind_of_ok (h rest)]
  rfl

/-- The loop goes on after this round. -/
lemma Reads.forever_again {s s' : σ} {xs ys : List ι} {a : α} (h : Reads (round s) xs (.inl s'))
    (hne : xs ≠ []) (hrest : Reads (forever incomplete round s') ys a) :
    Reads (forever incomplete round s) (xs ++ ys) a := by
  intro rest
  have hpos : 0 < xs.length := List.length_pos_iff.mpr hne
  obtain ⟨n, hn⟩ : ∃ n, (xs ++ (ys ++ rest)).length = n + 1 :=
    Nat.exists_eq_add_one.mpr (List.length_pos_iff.mpr (List.append_ne_nil_of_left_ne_nil hne _))
  rw [List.append_assoc, forever, hn, rounds, bind_of_ok (h (ys ++ rest))]
  refine rounds_mono ?_ (hrest rest)
  rw [List.length_append] at hn
  omega

end Loops

end StreamReader

end Defib
