import Defib.Framework.Scripted

/-!
# Programs that drive a device

What a program writes is done by a device, which may have more than one way to do it: `step d x d'`
says that `x` can take it from `d` to `d'`.  A `Path` is a list of items that are done one after the
other.

`Triple` is partial correctness over every script and every path: a run that starts in a state with
`P` and ends with a result ends in a state with `Q`.  For what holds of every run, whether it ends
with a result or with an error, `Path.invariant` is the rule: nothing that a program writes changes
it.
-/

namespace Defib

namespace Scripted

variable {ω ι ν ε α β δ : Type}

/-- The items that a run writes. -/
def written (t : List (Event ω ι ν)) : List ω :=
  t.filterMap fun
    | .write x => some x
    | _ => none

lemma written_append (t t' : List (Event ω ι ν)) : written (t ++ t') = written t ++ written t' :=
  List.filterMap_append

lemma mem_written {t : List (Event ω ι ν)} {x : ω} : x ∈ written t ↔ Event.write x ∈ t := by
  rw [written, List.mem_filterMap]
  constructor
  · rintro ⟨e, he, hx⟩
    cases e with
    | write y =>
        obtain rfl : y = x := Option.some.inj hx
        exact he
    | flush => cases hx
    | read r => cases hx
    | note n => cases hx
  · exact fun h => ⟨_, h, rfl⟩

variable (step : δ → ω → δ → Prop)

/-- Items that are done one after the other. -/
def Path (d : δ) : List ω → δ → Prop
  | [], d' => d' = d
  | x :: xs, d' => ∃ d₁, step d x d₁ ∧ Path d₁ xs d'

variable {step}

lemma Path.of_append {d d' : δ} {xs ys : List ω} (h : Path step d (xs ++ ys) d') :
    ∃ d₁, Path step d xs d₁ ∧ Path step d₁ ys d' := by
  induction xs generalizing d with
  | nil => exact ⟨d, rfl, h⟩
  | cons x xs ih =>
      obtain ⟨d₁, hstep, hrest⟩ := h
      obtain ⟨d₂, hxs, hys⟩ := ih hrest
      exact ⟨d₂, ⟨d₁, hstep, hxs⟩, hys⟩

lemma Path.append {d d₁ d' : δ} {xs ys : List ω} (hxs : Path step d xs d₁)
    (hys : Path step d₁ ys d') : Path step d (xs ++ ys) d' := by
  induction xs generalizing d with
  | nil =>
      obtain rfl : d₁ = d := hxs
      exact hys
  | cons x xs ih =>
      obtain ⟨d₂, hstep, hrest⟩ := hxs
      exact ⟨d₂, hstep, ih hrest⟩

/-- Every item of a path was done. -/
lemma Path.exists_step {d d' : δ} {xs : List ω} (h : Path step d xs d') :
    ∀ x ∈ xs, ∃ d₁ d₂, step d₁ x d₂ := by
  induction xs generalizing d with
  | nil => exact fun x hx => absurd hx List.not_mem_nil
  | cons x xs ih =>
      obtain ⟨d₁, hstep, hrest⟩ := h
      intro y hy
      rcases List.mem_cons.mp hy with rfl | hy
      · exact ⟨d, d₁, hstep⟩
      · exact ih hrest y hy

/-- **Simulation rule**: what is done to states with an invariant `I` is done to their images. -/
lemma Path.map {γ : Type} {step' : γ → ω → γ → Prop} (f : δ → γ) {I : δ → Prop} {xs : List ω}
    (hI : ∀ x ∈ xs, ∀ d d', I d → step d x d' → I d')
    (hxs : ∀ x ∈ xs, ∀ d d', I d → step d x d' → step' (f d) x (f d')) {d d' : δ}
    (h : Path step d xs d') (hd : I d) : Path step' (f d) xs (f d') := by
  induction xs generalizing d with
  | nil =>
      obtain rfl : d' = d := h
      exact rfl
  | cons x xs ih =>
      obtain ⟨d₁, hstep, hrest⟩ := h
      exact ⟨f d₁, hxs x List.mem_cons_self d d₁ hd hstep,
        ih (fun y hy => hI y (List.mem_cons_of_mem x hy))
          (fun y hy => hxs y (List.mem_cons_of_mem x hy)) hrest
          (hI x List.mem_cons_self d d₁ hd hstep)⟩

/-- The same items, done in a way that is more liberal. -/
lemma Path.imp {step' : δ → ω → δ → Prop} {xs : List ω}
    (hxs : ∀ x ∈ xs, ∀ d d', step d x d' → step' d x d') {d d' : δ} (h : Path step d xs d') :
    Path step' d xs d' :=
  h.map id (I := fun _ => True) (fun _ _ _ _ _ _ => trivial)
    (fun x hx d d' _ hstep => hxs x hx d d' hstep) trivial

/-- **Invariant rule.** -/
lemma Path.invariant {P : δ → Prop} {xs : List ω}
    (hxs : ∀ x ∈ xs, ∀ d d', step d x d' → P d → P d') {d d' : δ} (h : Path step d xs d')
    (hd : P d) : P d' := by
  induction xs generalizing d with
  | nil =>
      obtain rfl : d' = d := h
      exact hd
  | cons x xs ih =>
      obtain ⟨d₁, hstep, hrest⟩ := h
      exact ih (fun y hy => hxs y (List.mem_cons_of_mem x hy)) hrest
        (hxs x List.mem_cons_self d d₁ hstep hd)

/-! ## Triples -/

variable (step)

/-- A run from `P` that ends with a result ends in `Q`. -/
def Triple (P : δ → Prop) (p : Scripted ω ι ν ε α) (Q : α → δ → Prop) : Prop :=
  ∀ a t d d', Yields p a t → P d → Path step d (written t) d' → Q a d'

namespace Triple

variable {step} {P P' : δ → Prop} {Q Q' : α → δ → Prop}

lemma pure {a : α} (h : ∀ d, P d → Q a d) :
    Triple step P (pure a : Scripted ω ι ν ε α) Q := by
  intro b t d d' hrun hd hpath
  obtain ⟨rfl, rfl⟩ := Yields.pure_iff.mp hrun
  obtain rfl : d' = d := hpath
  exact h _ hd

lemma raise (e : ε) : Triple step P (raise e : Scripted ω ι ν ε α) Q :=
  fun _ _ _ _ hrun => absurd hrun Yields.not_raise

/-- The rule of consequence. -/
lemma mono {p : Scripted ω ι ν ε α} (h : Triple step P p Q) (hP : ∀ d, P' d → P d)
    (hQ : ∀ a d, Q a d → Q' a d) : Triple step P' p Q' :=
  fun a t d d' hrun hd hpath => hQ a d' (h a t d d' hrun (hP d hd) hpath)

lemma true {p : Scripted ω ι ν ε α} : Triple step P p fun _ _ => True :=
  fun _ _ _ _ _ _ _ => trivial

lemma and {p : Scripted ω ι ν ε α} (h : Triple step P p Q) (h' : Triple step P p Q') :
    Triple step P p fun a d => Q a d ∧ Q' a d :=
  fun a t d d' hrun hd hpath => ⟨h a t d d' hrun hd hpath, h' a t d d' hrun hd hpath⟩

lemma inter {p : Scripted ω ι ν ε α} (h : Triple step P p Q) (h' : Triple step P' p Q') :
    Triple step (fun d => P d ∧ P' d) p fun a d => Q a d ∧ Q' a d :=
  fun a t d d' hrun hd hpath => ⟨h a t d d' hrun hd.1 hpath, h' a t d d' hrun hd.2 hpath⟩

/-- What is known before the run need not be about the state. -/
lemma of_and {φ : Prop} {p : Scripted ω ι ν ε α} (h : φ → Triple step P p Q) :
    Triple step (fun d => P d ∧ φ) p Q :=
  fun a t d d' hrun hd hpath => h hd.2 a t d d' hrun hd.1 hpath

/-- The rule of sequence. -/
lemma bind {p : Scripted ω ι ν ε β} {f : β → Scripted ω ι ν ε α} {R : β → δ → Prop}
    (hp : Triple step P p R) (hf : ∀ b, Triple step (R b) (f b) Q) :
    Triple step P (p >>= f) Q := by
  intro a t d d' hrun hd hpath
  obtain ⟨b, t₁, t₂, h₁, h₂, rfl⟩ := hrun.of_bind
  rw [written_append] at hpath
  obtain ⟨d₁, hpath₁, hpath₂⟩ := hpath.of_append
  exact hf b a t₂ d₁ d' h₂ (hp b t₁ d d₁ h₁ hd hpath₁) hpath₂

/-- A value that was computed is the one that the program goes on with. -/
lemma lift_bind {x : Except ε β} {f : β → Scripted ω ι ν ε α}
    (hf : ∀ b, x = .ok b → Triple step P (f b) Q) :
    Triple step P ((lift x : Scripted ω ι ν ε β) >>= f) Q := by
  cases x with
  | error e => exact raise e
  | ok b => exact hf b rfl

lemma ite {c : Prop} [Decidable c] {p q : Scripted ω ι ν ε α} (hp : c → Triple step P p Q)
    (hq : ¬ c → Triple step P q Q) : Triple step P (if c then p else q) Q := by
  split_ifs with hc
  · exact hp hc
  · exact hq hc

/-- What no item of the program changes stays as it is. -/
lemma of_writing {p : Scripted ω ι ν ε α}
    (h : Writing (fun x => ∀ d d', step d x d' → P d → P d') p) :
    Triple step P p fun _ d => P d := by
  rintro a t d d' ⟨script, rest, hrun⟩ hd hpath
  refine hpath.invariant (fun x hx => h script x ?_) hd
  rw [hrun]
  exact mem_written.mp hx

end Triple

/-! ## Total correctness -/

/-- Every run from `P` ends with a result, in `Q`. -/
def Surely (P : δ → Prop) (p : Scripted ω ι ν ε α) (Q : α → δ → Prop) : Prop :=
  ∀ script d d', P d → Path step d (written (p script).trace) d' →
    ∃ a, (p script).result = .ok a ∧ Q a d'

namespace Surely

variable {step} {P P' : δ → Prop} {Q Q' : α → δ → Prop}

lemma pure {a : α} (h : ∀ d, P d → Q a d) : Surely step P (pure a : Scripted ω ι ν ε α) Q := by
  intro script d d' hd hpath
  obtain rfl : d' = d := hpath
  exact ⟨a, rfl, h _ hd⟩

/-- The rule of consequence. -/
lemma mono {p : Scripted ω ι ν ε α} (h : Surely step P p Q) (hP : ∀ d, P' d → P d)
    (hQ : ∀ a d, Q a d → Q' a d) : Surely step P' p Q' := by
  intro script d d' hd hpath
  obtain ⟨a, ha, hQa⟩ := h script d d' (hP d hd) hpath
  exact ⟨a, ha, hQ a d' hQa⟩

/-- The rule of sequence. -/
lemma bind {p : Scripted ω ι ν ε β} {f : β → Scripted ω ι ν ε α} {R : β → δ → Prop}
    (hp : Surely step P p R) (hf : ∀ b, Surely step (R b) (f b) Q) :
    Surely step P (p >>= f) Q := by
  intro script d d' hd hpath
  cases hresult : (p script).result with
  | error e =>
      rw [bind_of_error hresult] at hpath
      obtain ⟨b, hb, -⟩ := hp script d d' hd hpath
      rw [hresult] at hb
      cases hb
  | ok b =>
      rw [bind_of_ok hresult, Outcome.prepend_trace, written_append] at hpath
      obtain ⟨d₁, hpath₁, hpath₂⟩ := hpath.of_append
      obtain ⟨b', hb', hR⟩ := hp script d d₁ hd hpath₁
      rw [hresult] at hb'
      obtain rfl := Except.ok.inj hb'
      obtain ⟨a, ha, hQ⟩ := hf b _ d₁ d' hR hpath₂
      refine ⟨a, ?_, hQ⟩
      rw [bind_of_ok hresult, Outcome.prepend_result, ha]

lemma lift_bind {x : Except ε β} {b : β} (hx : x = .ok b) {f : β → Scripted ω ι ν ε α}
    (hf : Surely step P (f b) Q) : Surely step P ((lift x : Scripted ω ι ν ε β) >>= f) Q := by
  rw [hx]
  exact hf

lemma ite {c : Prop} [Decidable c] {p q : Scripted ω ι ν ε α} (hp : c → Surely step P p Q)
    (hq : ¬ c → Surely step P q Q) : Surely step P (if c then p else q) Q := by
  split_ifs with hc
  · exact hp hc
  · exact hq hc

/-- What is known before the run need not be about the state. -/
lemma of_and {φ : Prop} {p : Scripted ω ι ν ε α} (h : φ → Surely step P p Q) :
    Surely step (fun d => P d ∧ φ) p Q :=
  fun script d d' hd hpath => h hd.2 script d d' hd.1 hpath

/-- What no item of the program changes stays as it is. -/
lemma keep {R : δ → Prop} {p : Scripted ω ι ν ε α} (h : Surely step P p Q)
    (hR : Writing (fun x => ∀ d d', step d x d' → R d → R d') p) :
    Surely step (fun d => P d ∧ R d) p fun a d => Q a d ∧ R d := by
  intro script d d' hd hpath
  obtain ⟨a, ha, hQ⟩ := h script d d' hd.1 hpath
  exact ⟨a, ha, hQ, hpath.invariant (fun x hx => hR script x (mem_written.mp hx)) hd.2⟩

lemma of_returning {p : Scripted ω ι ν ε α} (h : Returning p) :
    Surely step P p fun _ _ => True := by
  intro script d d' _ _
  obtain ⟨a, ha⟩ := h script
  exact ⟨a, ha, trivial⟩

end Surely

/-! ## Devices that answer

An item is a command and what the device answers to it.  Against a device that has an answer to every
command there is a run, since a program does not look at answers before it has written. -/

section Answers

variable {κ : Type} (react : δ → κ → ι × δ)

/-- The device answers the command, and goes on from the state that it has then. -/
def Reacts (d : δ) (e : κ × ι) (d' : δ) : Prop := react d e.1 = (e.2, d')

/-- The program has a run against the device, from each of its states. -/
def Answerable (p : Scripted (κ × ι) ι ν ε α) : Prop :=
  ∀ d, ∃ used result t d', (∀ rest, p (used ++ rest) = ⟨result, rest, t⟩) ∧
    Path (Reacts react) d (written t) d'

namespace Answerable

variable {react}

lemma exists_run {p : Scripted (κ × ι) ι ν ε α} (h : Answerable react p) (d : δ) :
    ∃ script d', Path (Reacts react) d (written (p script).trace) d' := by
  obtain ⟨used, result, t, d', hrun, hpath⟩ := h d
  refine ⟨used ++ [], d', ?_⟩
  rw [hrun]
  exact hpath

lemma pure (a : α) : Answerable react (pure a : Scripted (κ × ι) ι ν ε α) :=
  fun d => ⟨[], .ok a, [], d, fun _ => rfl, rfl⟩

lemma raise (e : ε) : Answerable react (raise e : Scripted (κ × ι) ι ν ε α) :=
  fun d => ⟨[], .error e, [], d, fun _ => rfl, rfl⟩

/-- The rule of sequence. -/
lemma bind {p : Scripted (κ × ι) ι ν ε β} {f : β → Scripted (κ × ι) ι ν ε α}
    (hp : Answerable react p) (hf : ∀ b, Answerable react (f b)) :
    Answerable react (p >>= f) := by
  intro d
  obtain ⟨used, result, t, d₁, hrun, hpath⟩ := hp d
  cases result with
  | error e =>
      refine ⟨used, .error e, t, d₁, fun rest => ?_, hpath⟩
      have herr : (p (used ++ rest)).result = .error e := by rw [hrun]
      rw [bind_of_error herr, hrun]
  | ok b =>
      obtain ⟨used', result', t', d', hrun', hpath'⟩ := hf b d₁
      refine ⟨used ++ used', result', t ++ t', d', fun rest => ?_, ?_⟩
      · have hok : (p (used ++ (used' ++ rest))).result = .ok b := by rw [hrun]
        rw [List.append_assoc, bind_of_ok hok, hrun, hrun']
        rfl
      · rw [written_append]
        exact hpath.append hpath'

lemma lift_bind {x : Except ε β} {f : β → Scripted (κ × ι) ι ν ε α}
    (hf : ∀ b, Answerable react (f b)) :
    Answerable react ((lift x : Scripted (κ × ι) ι ν ε β) >>= f) := by
  cases x with
  | error e => exact raise e
  | ok b => exact hf b

lemma ite {c : Prop} [Decidable c] {p q : Scripted (κ × ι) ι ν ε α} (hp : Answerable react p)
    (hq : Answerable react q) : Answerable react (if c then p else q) := by
  split_ifs
  · exact hp
  · exact hq

end Answerable

end Answers

end Scripted

end Defib
