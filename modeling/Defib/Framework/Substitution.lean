import Defib.Framework.Scripted

/-!
# Programs on a script that was changed

A line may change the items that are read from it.  For a program on such a line, `Alike` says of
two outcomes that they differ by no more than this: the traces are equal but for what is read, the
same readings are left, and the results are related.

`Alike.cons` is the rule for the turns of a loop, and `Alike.bind` the one for sequences: a program
that runs alike on both scripts goes on alike, if what follows does not tell related results apart.
-/

namespace Defib

variable {ω ι ν ε α β : Type}

/-- Change the item of a reading. -/
def Reading.map (f : ι → ι) : Reading ι → Reading ι
  | .item x => .item (f x)
  | .timeout => .timeout
  | .expired => .expired

/-- Change the item that is read. -/
def Event.mapRead (f : ι → ι) : Event ω ι ν → Event ω ι ν
  | .read r => .read (r.map f)
  | e => e

namespace Scripted

/-- Related results, or the same error. -/
inductive SameResult (r : α → α → Prop) : Except ε α → Except ε α → Prop
  | ok {a b : α} (h : r a b) : SameResult r (.ok a) (.ok b)
  | error (e : ε) : SameResult r (.error e) (.error e)

/-- The outcome on a script, and the one on the script that was changed. -/
structure Alike (f : ι → ι) (r : α → α → Prop) (o o' : Outcome ω ι ν ε α) : Prop where
  result : SameResult r o.result o'.result
  rest : o'.rest = o.rest.map (Reading.map f)
  trace : o'.trace = o.trace.map (Event.mapRead f)

namespace Alike

variable {f : ι → ι} {r : α → α → Prop}

/-- One event before. -/
lemma cons {o o' : Outcome ω ι ν ε α} (h : Alike f r o o') (e : Event ω ι ν) :
    Alike f r (o.cons e) (o'.cons (e.mapRead f)) := by
  refine ⟨h.result, h.rest, ?_⟩
  rw [Outcome.cons_trace, Outcome.cons_trace, h.trace, List.map_cons]

/-- **What follows a program that runs alike.** -/
lemma bind {p : Scripted ω ι ν ε α} {k : α → Scripted ω ι ν ε β} {script : List (Reading ι)}
    (h : Alike f r (p script) (p (script.map (Reading.map f))))
    (hk : ∀ a b, r a b → k a = k b) :
    (∃ e, (p >>= k) script = ⟨.error e, (p script).rest, (p script).trace⟩ ∧
      (p >>= k) (script.map (Reading.map f)) =
        ⟨.error e, (p script).rest.map (Reading.map f),
          (p script).trace.map (Event.mapRead f)⟩) ∨
    ∃ a, (p script).result = .ok a ∧
      (p >>= k) script = (k a (p script).rest).prepend (p script).trace ∧
      (p >>= k) (script.map (Reading.map f)) =
        (k a ((p script).rest.map (Reading.map f))).prepend
          ((p script).trace.map (Event.mapRead f)) := by
  obtain ⟨hresult, hrest, htrace⟩ := h
  generalize ho : (p script).result = res at hresult
  generalize ho' : (p (script.map (Reading.map f))).result = res' at hresult
  cases hresult with
  | error e =>
      refine .inl ⟨e, bind_of_error ho k, ?_⟩
      rw [bind_of_error ho', hrest, htrace]
  | ok hab =>
      rename_i a b
      refine .inr ⟨a, rfl, bind_of_ok ho k, ?_⟩
      rw [bind_of_ok ho', hrest, htrace, hk a b hab]

end Alike

end Scripted

end Defib
