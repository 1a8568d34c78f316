import Mathlib.Data.List.Basic
import Mathlib.Tactic.Common

/-!
# Programs against memory-mapped registers

A driver reads and writes registers, and what it reads is up to the device.  `Mmio` is such a
program as a tree: it goes on with whatever a load answers.  A polling loop with a bound is a
recursion over the bound.

A `Bus` says what a load may answer in each of its states.  `Mmio.Runs` are the runs of a program
against a device, with the `trace` of their accesses, and `Mmio.wp` is the weakest precondition of
a postcondition: `wp_iff_runs` says that the two agree.  What a program does on the bus whatever it
reads is `Mmio.Always`, one access at a time, or `wp` of the `recorder`, the device that answers
anything and remembers its history.
-/

namespace Defib

/-- An access to a register. -/
inductive Access
  | load (addr : ℕ) (value : BitVec 32)
  | store (addr : ℕ) (value : BitVec 32)
  deriving DecidableEq, Repr

/-- A program, as a tree over the answers of its loads. -/
inductive Mmio (α : Type) : Type
  | ret (a : α)
  | read (addr : ℕ) (k : BitVec 32 → Mmio α)
  | write (addr : ℕ) (value : BitVec 32) (k : Mmio α)

/-- What loads may answer, and what loads and stores change. -/
structure Bus (σ : Type) where
  load : σ → ℕ → BitVec 32 → σ → Prop
  store : σ → ℕ → BitVec 32 → σ

/-- The device that answers anything and remembers its history. -/
def recorder : Bus (List Access) where
  load h addr v h' := h' = h ++ [.load addr v]
  store h addr v := h ++ [.store addr v]

namespace Mmio

variable {α β γ σ : Type}

protected def bind : Mmio α → (α → Mmio β) → Mmio β
  | ret a, f => f a
  | read addr k, f => read addr fun v => (k v).bind f
  | write addr v k, f => write addr v (k.bind f)

instance : Monad Mmio where
  pure := ret
  bind := Mmio.bind

/-- Load a register. -/
def load (addr : ℕ) : Mmio (BitVec 32) := read addr ret

/-- Store to a register. -/
def store (addr : ℕ) (v : BitVec 32) : Mmio Unit := write addr v (ret ())

/-! ## Laws -/

private lemma id_map_mmio (p : Mmio α) : id <$> p = p := by
  change Mmio.bind p ret = p
  induction p with
  | ret a => rfl
  | read addr k ih => exact congrArg (read addr) (funext ih)
  | write addr v k ih => exact congrArg (write addr v) ih

private lemma bind_assoc_mmio (p : Mmio α) (f : α → Mmio β) (g : β → Mmio γ) :
    p >>= f >>= g = p >>= fun a => f a >>= g := by
  change Mmio.bind (Mmio.bind p f) g = Mmio.bind p fun a => Mmio.bind (f a) g
  induction p with
  | ret a => rfl
  | read addr k ih => exact congrArg (read addr) (funext ih)
  | write addr v k ih => exact congrArg (write addr v) ih

instance : LawfulMonad Mmio :=
  LawfulMonad.mk' _ id_map_mmio (fun _ _ => rfl) bind_assoc_mmio

/-! ## Runs -/

/-- A run from a state of the device to another, the accesses it makes and its result. -/
inductive Runs (d : Bus σ) : Mmio α → σ → List Access → α → σ → Prop
  | ret (a : α) (s : σ) : Runs d (ret a) s [] a s
  | read {addr : ℕ} {k : BitVec 32 → Mmio α} {v : BitVec 32} {s s' s'' : σ} {t : List Access}
      {a : α} (hload : d.load s addr v s') (hrun : Runs d (k v) s' t a s'') :
      Runs d (read addr k) s (.load addr v :: t) a s''
  | write {addr : ℕ} {v : BitVec 32} {k : Mmio α} {s s' : σ} {t : List Access} {a : α}
      (hrun : Runs d k (d.store s addr v) t a s') :
      Runs d (write addr v k) s (.store addr v :: t) a s'

variable {d : Bus σ}

/-- A device that answers every load lets every program run to its end. -/
lemma exists_runs {Inv : σ → Prop}
    (hload : ∀ s addr, Inv s → ∃ v s', d.load s addr v s' ∧ Inv s')
    (hstore : ∀ s addr v, Inv s → Inv (d.store s addr v)) (p : Mmio α) {s : σ} (h : Inv s) :
    ∃ t a s', Runs d p s t a s' := by
  induction p generalizing s with
  | ret a => exact ⟨[], a, s, .ret a s⟩
  | read addr k ih =>
      obtain ⟨v, s', hv, hinv⟩ := hload s addr h
      obtain ⟨t, a, s'', hrun⟩ := ih v hinv
      exact ⟨_, a, s'', .read hv hrun⟩
  | write addr v k ih =>
      obtain ⟨t, a, s', hrun⟩ := ih (hstore s addr v h)
      exact ⟨_, a, s', .write hrun⟩

/-- What happens against some device happens against the recorder. -/
lemma Runs.recorded {p : Mmio α} {s s' : σ} {t : List Access} {a : α} (h : Runs d p s t a s')
    (history : List Access) : Runs recorder p history t a (history ++ t) := by
  induction h generalizing history with
  | ret a s =>
      rw [List.append_nil]
      exact .ret a history
  | @read addr k v _ _ _ t a _ _ ih =>
      have hload : recorder.load history addr v (history ++ [.load addr v]) := rfl
      rw [List.append_cons]
      exact .read hload (ih _)
  | @write addr v k _ _ t a _ ih =>
      rw [List.append_cons]
      exact .write (ih (history ++ [.store addr v]))

/-! ## Weakest preconditions -/

/-- Every run from this state ends with the postcondition. -/
def wp (d : Bus σ) : Mmio α → σ → (α → σ → Prop) → Prop
  | .ret a, s, Q => Q a s
  | .read addr k, s, Q => ∀ v s', d.load s addr v s' → wp d (k v) s' Q
  | .write addr v k, s, Q => wp d k (d.store s addr v) Q

variable {Q : α → σ → Prop} {s : σ}

lemma wp_iff_runs {p : Mmio α} :
    wp d p s Q ↔ ∀ t a s', Runs d p s t a s' → Q a s' := by
  induction p generalizing s with
  | ret a =>
      constructor
      · intro h t b s' hrun
        cases hrun
        exact h
      · intro h
        exact h _ _ _ (.ret a s)
  | read addr k ih =>
      constructor
      · intro h t a s' hrun
        cases hrun with
        | read hload hrun => exact (ih _).mp (h _ _ hload) _ _ _ hrun
      · intro h v s' hload
        exact (ih v).mpr fun t a s'' hrun => h _ _ _ (.read hload hrun)
  | write addr v k ih =>
      constructor
      · intro h t a s' hrun
        cases hrun with
        | write hrun => exact ih.mp h _ _ _ hrun
      · intro h
        exact ih.mpr fun t a s' hrun => h _ _ _ (.write hrun)

@[simp] lemma wp_load {Q : BitVec 32 → σ → Prop} (addr : ℕ) :
    wp d (load addr) s Q ↔ ∀ v s', d.load s addr v s' → Q v s' := Iff.rfl

/-- The rule of sequence. -/
@[simp] lemma wp_bind (p : Mmio β) (f : β → Mmio α) :
    wp d (p >>= f) s Q ↔ wp d p s fun b s' => wp d (f b) s' Q := by
  change wp d (Mmio.bind p f) s Q ↔ _
  induction p generalizing s with
  | ret b => exact Iff.rfl
  | read addr k ih =>
      constructor
      · exact fun h v s' hload => (ih v).mp (h v s' hload)
      · exact fun h v s' hload => (ih v).mpr (h v s' hload)
  | write addr v k ih => exact ih

/-- The rule of consequence. -/
lemma wp.mono {p : Mmio α} {Q' : α → σ → Prop} (h : wp d p s Q) (hQ : ∀ a s', Q a s' → Q' a s') :
    wp d p s Q' :=
  wp_iff_runs.mpr fun t a s' hrun => hQ a s' (wp_iff_runs.mp h t a s' hrun)

lemma wp_ite {c : Prop} [Decidable c] {p q : Mmio α} (hp : c → wp d p s Q) (hq : ¬ c → wp d q s Q) :
    wp d (if c then p else q) s Q := by
  split_ifs with hc
  · exact hp hc
  · exact hq hc

/-! ## Every access -/

/-- Every access that the program may make has a property. -/
def Always (A : Access → Prop) : Mmio α → Prop
  | .ret _ => True
  | .read addr k => ∀ v, A (.load addr v) ∧ Always A (k v)
  | .write addr v k => A (.store addr v) ∧ Always A k

variable {A : Access → Prop}

lemma Always.pure (a : α) : Always A (pure a : Mmio α) := trivial

lemma Always.load {addr : ℕ} (h : ∀ v, A (.load addr v)) : Always A (load addr) :=
  fun v => ⟨h v, trivial⟩

lemma Always.store {addr : ℕ} {v : BitVec 32} (h : A (.store addr v)) : Always A (store addr v) :=
  ⟨h, trivial⟩

/-- The rule of sequence. -/
lemma Always.bind {p : Mmio α} {f : α → Mmio β} (hp : Always A p) (hf : ∀ a, Always A (f a)) :
    Always A (p >>= f) := by
  change Always A (Mmio.bind p f)
  induction p with
  | ret a => exact hf a
  | read addr k ih => exact fun v => ⟨(hp v).1, ih v (hp v).2⟩
  | write addr v k ih => exact ⟨hp.1, ih hp.2⟩

lemma Always.ite {c : Prop} [Decidable c] {p q : Mmio α} (hp : Always A p) (hq : Always A q) :
    Always A (if c then p else q) := by
  split_ifs
  · exact hp
  · exact hq

end Mmio

end Defib
