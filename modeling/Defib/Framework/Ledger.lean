import Mathlib.Data.List.Basic
import Mathlib.Tactic.Common

/-!
# Two acknowledgements per request

A client sends a list of requests over a queue that may lose them, to a server that works on one
request at a time and acknowledges it twice: when it starts, and when it is done.  The
acknowledgements are anonymous.  `Ledger` relates what has been asked to what has become of it, and
to how many acknowledgements there can be.

Every transition keeps the ledger (`accept`, `finish`, `spoil`, `lose`), and `settled` is what the
client may conclude: twice as many acknowledgements as requests leave room for nothing but success.
-/

namespace Defib

variable {α : Type*}

/-- The requests `asked`, in order: `done` with both acknowledgements, `active` being worked on, and
`queued`; `spoiled` of them were started and given up, and at most `acked` acknowledgements have
been sent. -/
structure Ledger (asked done active queued : List α) (spoiled acked : ℕ) : Prop where
  order : (done ++ (active ++ queued)).Sublist asked
  budget : done.length + active.length + queued.length + spoiled ≤ asked.length
  credit : acked ≤ 2 * done.length + active.length + spoiled

namespace Ledger

variable {asked done active queued queued' : List α} {spoiled acked : ℕ} {a : α}

/-- Everything is queued. -/
lemma start (asked : List α) : Ledger asked [] [] asked 0 0 :=
  ⟨List.Sublist.refl _, by simp, by simp⟩

/-- Requests are lost. -/
lemma lose (h : Ledger asked done active queued spoiled acked) (hq : queued'.Sublist queued) :
    Ledger asked done active queued' spoiled acked := by
  refine ⟨((hq.append_left _).append_left _).trans h.order, ?_, h.credit⟩
  have := hq.length_le
  have := h.budget
  omega

/-- Acknowledgements are lost. -/
lemma mono (h : Ledger asked done active queued spoiled acked) {acked' : ℕ} (hle : acked' ≤ acked) :
    Ledger asked done active queued spoiled acked' :=
  ⟨h.order, h.budget, Nat.le_trans hle h.credit⟩

/-- The server starts on a request. -/
lemma accept (h : Ledger asked done [] (a :: queued) spoiled acked) :
    Ledger asked done [a] queued spoiled (acked + 1) := by
  refine ⟨h.order, ?_, ?_⟩
  · have := h.budget
    simp only [List.length_nil, List.length_cons] at this ⊢
    omega
  · have := h.credit
    simp only [List.length_nil, List.length_cons] at this ⊢
    omega

/-- The server is done with a request. -/
lemma finish (h : Ledger asked done [a] queued spoiled acked) :
    Ledger asked (done ++ [a]) [] queued spoiled (acked + 1) := by
  refine ⟨?_, ?_, ?_⟩
  · have := h.order
    rwa [List.append_assoc]
  · have := h.budget
    simp only [List.length_append, List.length_nil, List.length_cons] at this ⊢
    omega
  · have := h.credit
    simp only [List.length_append, List.length_nil, List.length_cons] at this ⊢
    omega

/-- The server gives up on a request. -/
lemma spoil (h : Ledger asked done [a] queued spoiled acked) :
    Ledger asked done [] queued (spoiled + 1) acked := by
  refine ⟨?_, ?_, ?_⟩
  · exact ((List.sublist_append_right [a] queued).append_left done).trans h.order
  · have := h.budget
    simp only [List.length_nil, List.length_cons] at this ⊢
    omega
  · have := h.credit
    simp only [List.length_nil, List.length_cons] at this ⊢
    omega

/-- **What the count proves.**  With two acknowledgements per request, every request is done and
nothing else is left. -/
lemma settled (h : Ledger asked done active queued spoiled acked)
    (hall : 2 * asked.length ≤ acked) :
    done = asked ∧ active = [] ∧ queued = [] ∧ spoiled = 0 ∧ acked = 2 * asked.length := by
  have hbudget := h.budget
  have hcredit := h.credit
  have hactive : active = [] := List.length_eq_zero_iff.mp (by omega)
  have hqueued : queued = [] := List.length_eq_zero_iff.mp (by omega)
  refine ⟨?_, hactive, hqueued, by omega, by omega⟩
  have horder := h.order
  rw [hactive, hqueued, List.append_nil, List.append_nil] at horder
  exact horder.eq_of_length (by omega)

end Ledger

end Defib
