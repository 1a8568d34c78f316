import Mathlib.Data.List.Basic
import Mathlib.Tactic.Common

/-!
# Programs against a script of readings

A program that writes to a line and polls it does not choose what it reads, and what it reads may
be anything.  `Scripted` is such a program as a function of the *script*: the list of readings its
polls will get, in order.  A polling loop consumes one reading a turn, so that loops without a
bound of their own are recursions over the script; a script that has run out reads as a deadline
that has passed.

A `Scripted.Outcome` is what is left of the script, the result or the error raised, and the `trace`
of everything that happened on the line.  `Scripted` is a lawful monad, and `bind_of_ok` says that
sequencing appends traces.
-/

namespace Defib

/-- What one poll yields: an item, nothing within its timeout, or nothing because the deadline of
the loop around it has passed. -/
inductive Reading (ι : Type)
  | item (x : ι)
  | timeout
  | expired
  deriving DecidableEq, Repr

/-- What happens on a line: items are written and read, pending input is discarded, and a program
may leave a note of where it is. -/
inductive Event (ω ι ν : Type)
  | write (x : ω)
  | flush
  | read (r : Reading ι)
  | note (n : ν)
  deriving DecidableEq, Repr

/-- How a run ends. -/
structure Scripted.Outcome (ω ι ν ε α : Type) where
  result : Except ε α
  rest : List (Reading ι)
  trace : List (Event ω ι ν)

/-- The outcome after an earlier event. -/
def Scripted.Outcome.cons {ω ι ν ε α : Type} (e : Event ω ι ν)
    (o : Scripted.Outcome ω ι ν ε α) : Scripted.Outcome ω ι ν ε α :=
  { o with trace := e :: o.trace }

/-- The outcome after earlier events. -/
def Scripted.Outcome.prepend {ω ι ν ε α : Type} (es : List (Event ω ι ν))
    (o : Scripted.Outcome ω ι ν ε α) : Scripted.Outcome ω ι ν ε α :=
  { o with trace := es ++ o.trace }

/-- A program, as a function of the readings it will get. -/
def Scripted (ω ι ν ε α : Type) : Type := List (Reading ι) → Scripted.Outcome ω ι ν ε α

namespace Scripted

variable {ω ι ν ε α β γ : Type}

protected def pure (a : α) : Scripted ω ι ν ε α := fun script => ⟨.ok a, script, []⟩

protected def bind (p : Scripted ω ι ν ε α) (f : α → Scripted ω ι ν ε β) :
    Scripted ω ι ν ε β := fun script =>
  match (p script).result with
  | .error e => ⟨.error e, (p script).rest, (p script).trace⟩
  | .ok a =>
      let o := f a (p script).rest
      ⟨o.result, o.rest, (p script).trace ++ o.trace⟩

instance : Monad (Scripted ω ι ν ε) where
  pure := Scripted.pure
  bind := Scripted.bind

/-- Write an item. -/
def write (x : ω) : Scripted ω ι ν ε Unit := fun script => ⟨.ok (), script, [.write x]⟩

/-- Discard pending input. -/
def flush : Scripted ω ι ν ε Unit := fun script => ⟨.ok (), script, [.flush]⟩

/-- Leave a note. -/
def note (n : ν) : Scripted ω ι ν ε Unit := fun script => ⟨.ok (), script, [.note n]⟩

/-- Raise an error. -/
def raise (e : ε) : Scripted ω ι ν ε α := fun script => ⟨.error e, script, []⟩

/-- A computation that does not touch the line. -/
def lift : Except ε α → Scripted ω ι ν ε α
  | .ok a => pure a
  | .error e => raise e

/-! ## Laws -/

@[simp] lemma Outcome.cons_trace (e : Event ω ι ν) (o : Outcome ω ι ν ε α) :
    (o.cons e).trace = e :: o.trace := rfl

@[simp] lemma Outcome.cons_result (e : Event ω ι ν) (o : Outcome ω ι ν ε α) :
    (o.cons e).result = o.result := rfl

@[simp] lemma Outcome.prepend_trace (es : List (Event ω ι ν)) (o : Outcome ω ι ν ε α) :
    (o.prepend es).trace = es ++ o.trace := rfl

@[simp] lemma Outcome.prepend_result (es : List (Event ω ι ν)) (o : Outcome ω ι ν ε α) :
    (o.prepend es).result = o.result := rfl

lemma pure_apply (a : α) (script : List (Reading ι)) :
    (pure a : Scripted ω ι ν ε α) script = ⟨.ok a, script, []⟩ := rfl

lemma bind_apply (p : Scripted ω ι ν ε α) (f : α → Scripted ω ι ν ε β)
    (script : List (Reading ι)) :
    (p >>= f) script = match (p script).result with
      | .error e => ⟨.error e, (p script).rest, (p script).trace⟩
      | .ok a =>
          let o := f a (p script).rest
          ⟨o.result, o.rest, (p script).trace ++ o.trace⟩ := rfl

/-- Sequencing after a result. -/
lemma bind_of_ok {p : Scripted ω ι ν ε α} {script : List (Reading ι)} {a : α}
    (h : (p script).result = .ok a) (f : α → Scripted ω ι ν ε β) :
    (p >>= f) script = (f a (p script).rest).prepend (p script).trace := by
  rw [bind_apply, h]
  rfl

/-- Sequencing after an error. -/
lemma bind_of_error {p : Scripted ω ι ν ε α} {script : List (Reading ι)} {e : ε}
    (h : (p script).result = .error e) (f : α → Scripted ω ι ν ε β) :
    (p >>= f) script = ⟨.error e, (p script).rest, (p script).trace⟩ := by
  rw [bind_apply, h]

/-- The trace of a sequence starts with that of its first program. -/
lemma trace_bind (p : Scripted ω ι ν ε α) (f : α → Scripted ω ι ν ε β)
    (script : List (Reading ι)) :
    ∃ es, ((p >>= f) script).trace = (p script).trace ++ es := by
  cases h : (p script).result with
  | error e => exact ⟨[], by rw [bind_of_error h, List.append_nil]⟩
  | ok a => exact ⟨_, by rw [bind_of_ok h, Outcome.prepend_trace]⟩

@[simp] lemma write_bind_apply (x : ω) (f : Unit → Scripted ω ι ν ε β)
    (script : List (Reading ι)) :
    (write x >>= f) script = (f () script).cons (.write x) := rfl

@[simp] lemma flush_bind_apply (f : Unit → Scripted ω ι ν ε β) (script : List (Reading ι)) :
    (flush >>= f) script = (f () script).cons .flush := rfl

@[simp] lemma note_bind_apply (n : ν) (f : Unit → Scripted ω ι ν ε β)
    (script : List (Reading ι)) :
    (note n >>= f) script = (f () script).cons (.note n) := rfl

private lemma id_map_scripted (x : Scripted ω ι ν ε α) : id <$> x = x := by
  funext script
  change Scripted.bind x (fun a => Scripted.pure a) script = _
  unfold Scripted.bind Scripted.pure
  cases h : (x script).result with
  | error e => simp [← h]
  | ok a => simp [← h]

private lemma bind_assoc_scripted (x : Scripted ω ι ν ε α) (f : α → Scripted ω ι ν ε β)
    (g : β → Scripted ω ι ν ε γ) : x >>= f >>= g = x >>= fun a => f a >>= g := by
  funext script
  change Scripted.bind (Scripted.bind x f) g script =
    Scripted.bind x (fun a => Scripted.bind (f a) g) script
  unfold Scripted.bind
  cases (x script).result with
  | error e => rfl
  | ok a =>
      simp only
      cases (f a (x script).rest).result with
      | error e => rfl
      | ok b => simp [List.append_assoc]

instance : LawfulMonad (Scripted ω ι ν ε) :=
  LawfulMonad.mk' _ id_map_scripted (fun _ _ => rfl) bind_assoc_scripted

@[simp] lemma raise_bind (e : ε) (f : α → Scripted ω ι ν ε β) : (raise e >>= f) = raise e := rfl

@[simp] lemma lift_ok (a : α) : (lift (.ok a) : Scripted ω ι ν ε α) = pure a := rfl

/-! ## Runs that end with a result

For what holds of the trace of every run, whatever the script, `Yields` forgets the script. -/

/-- Some run of the program ends with this result and this trace. -/
def Yields (p : Scripted ω ι ν ε α) (a : α) (trace : List (Event ω ι ν)) : Prop :=
  ∃ script rest, p script = ⟨.ok a, rest, trace⟩

lemma yields_of_result {p : Scripted ω ι ν ε α} {script : List (Reading ι)} {a : α}
    (h : (p script).result = .ok a) : Yields p a (p script).trace :=
  ⟨script, (p script).rest, by rw [← h]⟩

lemma Yields.pure_iff {a b : α} {trace : List (Event ω ι ν)} :
    Yields (pure a : Scripted ω ι ν ε α) b trace ↔ b = a ∧ trace = [] := by
  constructor
  · rintro ⟨script, rest, h⟩
    rw [pure_apply] at h
    injection h with h₁ h₂ h₃
    exact ⟨(Except.ok.inj h₁).symm, h₃.symm⟩
  · rintro ⟨rfl, rfl⟩
    exact ⟨[], [], rfl⟩

/-- A run of a sequence is a run of its first program and one of the second. -/
lemma Yields.of_bind {p : Scripted ω ι ν ε α} {f : α → Scripted ω ι ν ε β} {b : β}
    {trace : List (Event ω ι ν)} (h : Yields (p >>= f) b trace) :
    ∃ a t t', Yields p a t ∧ Yields (f a) b t' ∧ trace = t ++ t' := by
  obtain ⟨script, rest, h⟩ := h
  cases hp : (p script).result with
  | error e =>
      rw [bind_of_error hp] at h
      injection h with h₁ h₂ h₃
      cases h₁
  | ok a =>
      rw [bind_of_ok hp] at h
      injection h with h₁ h₂ h₃
      exact ⟨a, _, _, yields_of_result hp, yields_of_result h₁, h₃.symm⟩

lemma Yields.not_raise {e : ε} {a : α} {trace : List (Event ω ι ν)} :
    ¬ Yields (raise e : Scripted ω ι ν ε α) a trace := by
  rintro ⟨script, rest, h⟩
  injection h with h₁ h₂ h₃
  cases h₁

lemma Yields.of_lift {x : Except ε α} {a : α} {trace : List (Event ω ι ν)}
    (h : Yields (lift x : Scripted ω ι ν ε α) a trace) : x = .ok a ∧ trace = [] := by
  cases x with
  | error e => exact absurd h Yields.not_raise
  | ok b =>
      obtain ⟨rfl, rfl⟩ := Yields.pure_iff.mp h
      exact ⟨rfl, rfl⟩

lemma Yields.of_note {n : ν} {a : Unit} {trace : List (Event ω ι ν)}
    (h : Yields (note n : Scripted ω ι ν ε Unit) a trace) : trace = [.note n] := by
  obtain ⟨script, rest, h⟩ := h
  injection h with h₁ h₂ h₃
  exact h₃.symm

/-! ## What a program writes -/

/-- Every item that a program writes has a property, whatever it reads. -/
def Writing (P : ω → Prop) (p : Scripted ω ι ν ε α) : Prop :=
  ∀ script x, .write x ∈ (p script).trace → P x

variable {P : ω → Prop}

lemma Writing.pure (a : α) : Writing P (pure a : Scripted ω ι ν ε α) :=
  fun _ _ hx => absurd hx List.not_mem_nil

lemma Writing.raise (e : ε) : Writing P (raise e : Scripted ω ι ν ε α) :=
  fun _ _ hx => absurd hx List.not_mem_nil

/-- A value that was computed is the one that the program goes on with. -/
lemma Writing.lift_bind {x : Except ε α} {f : α → Scripted ω ι ν ε β}
    (hf : ∀ a, x = .ok a → Writing P (f a)) :
    Writing P ((lift x : Scripted ω ι ν ε α) >>= f) := by
  cases x with
  | error e => exact Writing.raise e
  | ok a => exact hf a rfl

lemma Writing.flush : Writing P (flush : Scripted ω ι ν ε Unit) :=
  fun _ _ hx => by cases List.mem_singleton.mp hx

lemma Writing.note (n : ν) : Writing P (note n : Scripted ω ι ν ε Unit) :=
  fun _ _ hx => by cases List.mem_singleton.mp hx

lemma Writing.write {x : ω} (h : P x) : Writing P (write x : Scripted ω ι ν ε Unit) := by
  intro script y hy
  obtain rfl : y = x := Event.write.inj (List.mem_singleton.mp hy)
  exact h

/-- The rule of sequence. -/
lemma Writing.bind {p : Scripted ω ι ν ε α} {f : α → Scripted ω ι ν ε β} (hp : Writing P p)
    (hf : ∀ a, Writing P (f a)) : Writing P (p >>= f) := by
  intro script x hx
  cases hresult : (p script).result with
  | error e =>
      rw [bind_of_error hresult] at hx
      exact hp script x hx
  | ok a =>
      rw [bind_of_ok hresult] at hx
      rcases List.mem_append.mp hx with hx | hx
      · exact hp script x hx
      · exact hf a _ x hx

lemma Writing.ite {c : Prop} [Decidable c] {p q : Scripted ω ι ν ε α} (hp : Writing P p)
    (hq : Writing P q) : Writing P (if c then p else q) := by
  split_ifs
  · exact hp
  · exact hq

/-! ## Programs that do not raise -/

/-- A program ends with a result, whatever it reads. -/
def Returning (p : Scripted ω ι ν ε α) : Prop := ∀ script, ∃ a, (p script).result = .ok a

lemma Returning.pure (a : α) : Returning (pure a : Scripted ω ι ν ε α) := fun _ => ⟨a, rfl⟩

lemma Returning.flush : Returning (flush : Scripted ω ι ν ε Unit) := fun _ => ⟨(), rfl⟩

lemma Returning.write (x : ω) : Returning (write x : Scripted ω ι ν ε Unit) := fun _ => ⟨(), rfl⟩

lemma Returning.lift_bind {x : Except ε α} {a : α} (hx : x = .ok a)
    {f : α → Scripted ω ι ν ε β} (hf : Returning (f a)) :
    Returning ((lift x : Scripted ω ι ν ε α) >>= f) := by
  rw [hx]
  exact hf

/-- The rule of sequence. -/
lemma Returning.bind {p : Scripted ω ι ν ε α} {f : α → Scripted ω ι ν ε β} (hp : Returning p)
    (hf : ∀ a, Returning (f a)) : Returning (p >>= f) := by
  intro script
  obtain ⟨a, ha⟩ := hp script
  rw [bind_of_ok ha]
  exact hf a _

lemma Returning.ite {c : Prop} [Decidable c] {p q : Scripted ω ι ν ε α} (hp : Returning p)
    (hq : Returning q) : Returning (if c then p else q) := by
  split_ifs
  · exact hp
  · exact hq

end Scripted

end Defib
