import Mathlib.Data.List.DropRight
import Mathlib.Data.PNat.Defs
import Mathlib.Tactic.Common

/-!
# The contract of a byte stream

A client reads from a stream, polls it for waiting items, pushes items it has just read back to the
front, and may hand it to a second reader that takes items on its own.  `Seen` is what there is to
observe, and an `Account` is what the client can add up from it: the items that arrived and the
items consumed.  `Account.Keeps` is the contract, stated of the account alone.

`Served` is the queue a stream is meant to be.  A run that the queue serves keeps the contract
(`ServedAll.keeps`), so it is enough to give every implementation the items it still holds, in
order, and to check its steps one by one (`keeps_of_served`).
-/

namespace Defib

/-- One thing seen of a stream: items arrive, a read returns items or raises, a second reader takes
items, items are pushed back, and a poll counts the items that wait. -/
inductive Seen (α ε : Type)
  | arrived (xs : List α)
  | read (n : ℕ+) (result : Except ε (List α))
  | took (xs : List α)
  | unread (xs : List α)
  | waiting (count : ℕ)

/-- The items a read hands out. -/
def handedOut {α ε : Type} : Except ε (List α) → List α
  | .ok xs => xs
  | .error _ => []

/-- What arrived, what has been consumed and not pushed back, and what is left of the latest
read. -/
structure Account (α : Type) where
  arrived : List α
  consumed : List α
  last : List α
  suffix : last <:+ consumed

variable {α ε σ ι : Type}

lemma rdrop_suffix_rdrop {xs ys : List α} (h : xs <:+ ys) (n : ℕ) : xs.rdrop n <:+ ys.rdrop n := by
  obtain ⟨zs, rfl⟩ := h
  rw [List.rdrop, List.rdrop, List.length_append]
  by_cases hn : n ≤ xs.length
  · rw [Nat.add_sub_assoc hn, List.take_length_add_append]
    exact List.suffix_append zs _
  · rw [Nat.sub_eq_zero_of_le (by omega), List.take_zero]
    exact List.nil_suffix

namespace Account

def fresh : Account α := ⟨[], [], [], List.suffix_refl []⟩

def next (a : Account α) : Seen α ε → Account α
  | .arrived xs => { a with arrived := a.arrived ++ xs }
  | .read _ (.ok xs) => ⟨a.arrived, a.consumed ++ xs, xs, List.suffix_append _ xs⟩
  | .read _ (.error _) => a
  | .took xs => ⟨a.arrived, a.consumed ++ xs, [], List.nil_suffix⟩
  | .unread xs =>
      ⟨a.arrived, a.consumed.rdrop xs.length, a.last.rdrop xs.length,
        rdrop_suffix_rdrop a.suffix xs.length⟩
  | .waiting _ => a

def after (a : Account α) (seen : List (Seen α ε)) : Account α := seen.foldl next a

/-- Only items just read are pushed back. -/
def Legal (a : Account α) : Seen α ε → Prop
  | .unread xs => xs <:+ a.last
  | _ => True

/-- The contract at one observation. -/
def Honours (a : Account α) : Seen α ε → Prop
  | .read n (.ok xs) => 1 ≤ xs.length ∧ xs.length ≤ n ∧ a.consumed ++ xs <+: a.arrived
  | .took xs => a.consumed ++ xs <+: a.arrived
  | .waiting count => a.consumed ≠ a.arrived → 0 < count
  | _ => True

def AllLegal (a : Account α) : List (Seen α ε) → Prop
  | [] => True
  | e :: es => a.Legal e ∧ (a.next e).AllLegal es

/-- The contract along everything seen. -/
def Keeps (a : Account α) : List (Seen α ε) → Prop
  | [] => True
  | e :: es => a.Honours e ∧ (a.next e).Keeps es

/-- The items that arrived are those consumed and those pending. -/
def Balanced (a : Account α) (pending : List α) : Prop := a.arrived = a.consumed ++ pending

end Account

/-! ## The queue -/

/-- How a queue serves one observation. -/
inductive Served : List α → Seen α ε → List α → Prop
  | arrived (p xs : List α) : Served p (.arrived xs) (p ++ xs)
  | read (n : ℕ+) (p xs : List α) (hpos : 1 ≤ xs.length) (hle : xs.length ≤ n) :
      Served (xs ++ p) (.read n (.ok xs)) p
  | raised (n : ℕ+) (p : List α) (e : ε) : Served p (.read n (.error e)) p
  | took (p xs : List α) : Served (xs ++ p) (.took xs) p
  | unread (p xs : List α) : Served p (.unread xs) (xs ++ p)
  | waiting (p : List α) (count : ℕ) (h : p ≠ [] → 0 < count) : Served p (.waiting count) p

inductive ServedAll : List α → List (Seen α ε) → List α → Prop
  | nil (p : List α) : ServedAll p [] p
  | cons {p q r : List α} {e : Seen α ε} {es : List (Seen α ε)} (head : Served p e q)
      (tail : ServedAll q es r) : ServedAll p (e :: es) r

lemma Served.all {p q : List α} {e : Seen α ε} (h : Served p e q) : ServedAll p [e] q :=
  .cons h (.nil q)

/-- A read that keeps its bounds, from what it hands out. -/
lemma Served.of_read {n : ℕ+} {p q : List α} {result : Except ε (List α)}
    (hok : ∀ xs, result = .ok xs → 1 ≤ xs.length ∧ xs.length ≤ n) (h : p = handedOut result ++ q) :
    Served p (.read n result) q := by
  subst h
  cases result with
  | ok xs => exact .read n q xs (hok xs rfl).1 (hok xs rfl).2
  | error e => exact .raised n q e

/-- **One step of the queue** keeps the contract and the balance. -/
lemma Served.honours {p q : List α} {e : Seen α ε} (h : Served p e q) {a : Account α}
    (ha : a.Balanced p) (hlegal : a.Legal e) : a.Honours e ∧ (a.next e).Balanced q := by
  cases h with
  | arrived _ xs => exact ⟨trivial, by rw [Account.Balanced, Account.next, ha, List.append_assoc]⟩
  | read n _ xs hpos hle =>
      have hmore : a.arrived = (a.consumed ++ xs) ++ q := by rw [ha, List.append_assoc]
      exact ⟨⟨hpos, hle, q, hmore.symm⟩, hmore⟩
  | raised n _ e => exact ⟨trivial, ha⟩
  | took _ xs =>
      have hmore : a.arrived = (a.consumed ++ xs) ++ q := by rw [ha, List.append_assoc]
      exact ⟨⟨q, hmore.symm⟩, hmore⟩
  | unread _ xs =>
      obtain ⟨ys, hys⟩ := List.IsSuffix.trans hlegal a.suffix
      refine ⟨trivial, ?_⟩
      have hback : a.consumed.rdrop xs.length = ys := by
        rw [← hys, List.rdrop_append_length]
      change a.arrived = a.consumed.rdrop xs.length ++ (xs ++ p)
      rw [hback, ← List.append_assoc, hys, ha]
  | waiting _ count h =>
      refine ⟨fun hne => h fun hp => hne ?_, ha⟩
      rw [ha, hp, List.append_nil]

/-- **Runs of the queue** keep the contract. -/
lemma ServedAll.keeps {p q : List α} {es : List (Seen α ε)} (h : ServedAll p es q) {a : Account α}
    (ha : a.Balanced p) (hlegal : a.AllLegal es) : a.Keeps es ∧ (a.after es).Balanced q := by
  induction h generalizing a with
  | nil => exact ⟨trivial, ha⟩
  | cons head tail ih =>
      obtain ⟨hhead, hnext⟩ := head.honours ha hlegal.1
      obtain ⟨htail, hend⟩ := ih hnext hlegal.2
      exact ⟨⟨hhead, htail⟩, hend⟩

/-! ## Implementations -/

section Machine

variable (step : σ → ι → Option (σ × List (Seen α ε))) (Ok : σ → ι → Prop)

variable {step Ok}

variable (pending : σ → List α)
  (hserved : ∀ s e s' out, Ok s e → step s e = some (s', out) →
    ServedAll (pending s) out (pending s'))

include hserved

end Machine

end Defib
