import Mathlib.Data.List.Basic
import Mathlib.Tactic.Common

/-!
# Runs

Three notions of a run, and the rules the rest of the development proves things about them with.

* `outputs`: one party that reads inputs one at a time and may stop.  `forall_mem_outputs` is its
  invariant rule.
* `Run`: `n` steps of a transition relation.  `Reaches.invariant` is the invariant rule,
  `Reaches.project` and `Reaches.lift` relate the runs of a fine and a coarse relation, and
  `Run.ranked` the rule for invariants that carry a bound on the steps that are left: it bounds
  every run, and `exists_stuck` finds a run that ends.
* `Pair.Step`: two parties joined by a queue in each direction, in any order of deliveries.
-/

namespace Defib

/-! ## One party -/

section Outputs

variable {σ ι ο : Type*} (recv : σ → ι → Option σ × List ο)

/-- Everything a party emits while it reads a list of inputs; `none` is a party that stopped. -/
def outputs : Option σ → List ι → List ο
  | none, _ => []
  | some _, [] => []
  | some s, i :: is => (recv s i).2 ++ outputs (recv s i).1 is

/-- **Invariant rule for one party.**  If every state keeps the invariant and emits good outputs,
a run emits good outputs only. -/
lemma forall_mem_outputs (Inv : σ → Prop) {P : ο → Prop}
    (hout : ∀ s i, Inv s → ∀ o ∈ (recv s i).2, P o)
    (hinv : ∀ s i, Inv s → ∀ s' ∈ (recv s i).1, Inv s')
    (st : Option σ) (h : ∀ s ∈ st, Inv s) (is : List ι) : ∀ o ∈ outputs recv st is, P o := by
  induction is generalizing st with
  | nil => cases st <;> simp [outputs]
  | cons i is ih =>
      cases st with
      | none => simp [outputs]
      | some s =>
          have hs : Inv s := h s rfl
          intro o ho
          rw [outputs, List.mem_append] at ho
          rcases ho with ho | ho
          · exact hout s i hs o ho
          · exact ih _ (hinv s i hs) o ho

/-- What a run emits, one of its steps emits. -/
lemma exists_of_mem_outputs {recv : σ → ι → Option σ × List ο} {st : Option σ} {is : List ι} {o : ο}
    (h : o ∈ outputs recv st is) : ∃ s i, o ∈ (recv s i).2 := by
  have hstep : ∀ s i, True → ∀ o ∈ (recv s i).2, ∃ s i, o ∈ (recv s i).2 :=
    fun s i _ o ho => ⟨s, i, ho⟩
  exact forall_mem_outputs recv (fun _ => True) hstep (fun _ _ _ _ _ => trivial) st
    (fun _ _ => trivial) is o h

end Outputs

/-! ## Transition systems -/

/-- `n` steps of a transition relation. -/
inductive Run {γ : Type*} (step : γ → γ → Prop) : ℕ → γ → γ → Prop
  | refl (c : γ) : Run step 0 c c
  | tail {n : ℕ} {c d e : γ} (h : Run step n c d) (hstep : step d e) : Run step (n + 1) c e

section Run

variable {γ : Type*} {step : γ → γ → Prop}

/-- Some run leads from one state to the other. -/
def Reaches (step : γ → γ → Prop) (c d : γ) : Prop := ∃ n, Run step n c d

lemma Run.head {n : ℕ} {c d e : γ} (hstep : step c d) (h : Run step n d e) :
    Run step (n + 1) c e := by
  induction h with
  | refl d => exact .tail (.refl c) hstep
  | tail _ hlast ih => exact .tail (ih hstep) hlast

lemma Reaches.refl (c : γ) : Reaches step c c := ⟨0, .refl c⟩

lemma Reaches.tail {c d e : γ} (h : Reaches step c d) (hstep : step d e) : Reaches step c e := by
  obtain ⟨n, hrun⟩ := h
  exact ⟨n + 1, .tail hrun hstep⟩

lemma Reaches.trans {c d e : γ} (h : Reaches step c d) (h' : Reaches step d e) :
    Reaches step c e := by
  obtain ⟨n, h'⟩ := h'
  induction h' with
  | refl => exact h
  | tail _ hlast ih => exact (ih h).tail hlast

/-- **Projection rule.**  A map that sends every step to a step, or to none, sends runs to runs. -/
lemma Reaches.project {δ : Type*} {step' : δ → δ → Prop} {f : γ → δ}
    (hf : ∀ c d, step c d → f c = f d ∨ step' (f c) (f d)) {c d : γ} (h : Reaches step c d) :
    Reaches step' (f c) (f d) := by
  obtain ⟨n, h⟩ := h
  induction h with
  | refl => exact .refl _
  | tail _ hlast ih =>
      rcases hf _ _ hlast with heq | hstep
      · rwa [heq] at ih
      · exact ih.tail hstep

/-- **Lifting rule.**  A map that sends every step to a run sends runs to runs. -/
lemma Reaches.lift {δ : Type*} {step' : δ → δ → Prop} {f : γ → δ}
    (hf : ∀ c d, step c d → Reaches step' (f c) (f d)) {c d : γ} (h : Reaches step c d) :
    Reaches step' (f c) (f d) := by
  obtain ⟨n, h⟩ := h
  induction h with
  | refl => exact .refl _
  | tail _ hlast ih => exact ih.trans (hf _ _ hlast)

/-- **Invariant rule.** -/
lemma Reaches.invariant {Inv : γ → Prop} (hinv : ∀ c d, Inv c → step c d → Inv d) {c d : γ}
    (h : Reaches step c d) (hc : Inv c) : Inv d := by
  obtain ⟨n, h⟩ := h
  induction h with
  | refl => exact hc
  | tail _ hstep ih => exact hinv _ _ (ih hc) hstep

/-- An invariant whose index goes down with every step that does not end in a bad state. -/
def Ranked (step : γ → γ → Prop) (J : ℕ → γ → Prop) (bad : γ → Prop) : Prop :=
  ∀ n c d, J n c → step c d → (∃ m < n, J m d) ∨ bad d

/-- **Ranked invariants bound every run** that avoids the bad states. -/
lemma Run.ranked {J : ℕ → γ → Prop} {bad : γ → Prop} (hJ : Ranked step J bad)
    (hbad : ∀ c d, bad c → step c d → bad d) {k : ℕ} {c d : γ} (h : Run step k c d) {n : ℕ}
    (hc : J n c) : (∃ m, J m d ∧ m + k ≤ n) ∨ bad d := by
  induction h with
  | refl => exact .inl ⟨n, hc, by omega⟩
  | tail _ hstep ih =>
      rcases ih hc with ⟨m, hm, hle⟩ | hb
      · rcases hJ m _ _ hm hstep with ⟨m', hlt, hm'⟩ | hb
        · exact .inl ⟨m', hm', by omega⟩
        · exact .inr hb
      · exact .inr (hbad _ _ hb hstep)

/-- **Some run ends.**  From a ranked state a bad state or one without successor is reached. -/
lemma exists_stuck {J : ℕ → γ → Prop} {bad : γ → Prop} (hJ : Ranked step J bad) (n : ℕ) {c : γ}
    (hc : J n c) :
    ∃ d, Reaches step c d ∧ (bad d ∨ (∃ m, J m d) ∧ ∀ e, ¬ step d e) := by
  induction n using Nat.strongRecOn generalizing c with
  | ind n ih =>
      by_cases hstuck : ∀ e, ¬ step c e
      · exact ⟨c, .refl c, .inr ⟨⟨n, hc⟩, hstuck⟩⟩
      · obtain ⟨e, hstep⟩ : ∃ e, step c e := by
          simpa only [not_forall, not_not] using hstuck
        rcases hJ n c e hc hstep with ⟨m, hlt, hm⟩ | hb
        · obtain ⟨d, ⟨k, hrun⟩, hd⟩ := ih m hlt hm
          exact ⟨d, ⟨k + 1, hrun.head hstep⟩, hd⟩
        · exact ⟨e, (Reaches.refl c).tail hstep, .inl hb⟩

end Run

/-! ## Two parties and two queues -/

/-- Two parties and what is in flight between them. -/
structure Pair (σ τ α β : Type*) where
  fst : σ
  snd : τ
  toFst : List β
  toSnd : List α

namespace Pair

variable {σ τ α β : Type*} (recvFst : σ → β → σ × List α) (recvSnd : τ → α → τ × List β)

/-- One delivery, to either party; what the party emits is queued for the other. -/
inductive Step : Pair σ τ α β → Pair σ τ α β → Prop
  | fst (s : σ) (t : τ) (x : β) (xs : List β) (ys : List α) :
      Step ⟨s, t, x :: xs, ys⟩ ⟨(recvFst s x).1, t, xs, ys ++ (recvFst s x).2⟩
  | snd (s : σ) (t : τ) (xs : List β) (y : α) (ys : List α) :
      Step ⟨s, t, xs, y :: ys⟩ ⟨s, (recvSnd t y).1, xs ++ (recvSnd t y).2, ys⟩

variable {recvFst recvSnd}

/-- Only empty queues stop a pair. -/
lemma queues_nil_of_stuck {c : Pair σ τ α β} (h : ∀ d, ¬ Step recvFst recvSnd c d) :
    c.toFst = [] ∧ c.toSnd = [] := by
  obtain ⟨s, t, xs, ys⟩ := c
  constructor
  · cases xs with
    | nil => rfl
    | cons x xs => exact absurd (Step.fst s t x xs ys) (h _)
  · cases ys with
    | nil => rfl
    | cons y ys => exact absurd (Step.snd s t xs y ys) (h _)

end Pair

end Defib
