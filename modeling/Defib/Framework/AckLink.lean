import Mathlib.Data.List.Basic
import Mathlib.Data.List.Infix
import Mathlib.Tactic.Common

/-!
# Frames and unnumbered ACKs over a line that loses them

A host sends frames to a device that accepts some of them, answers an ACK to every frame it accepts
and to a repetition of the last one it accepted, and ignores the others.  The line keeps the order,
may lose frames and ACKs, and may hold an ACK back for as long as it likes.  ACKs carry no number,
so that the host cannot see what an ACK answers.

`Timely` is the assumption under which this does not matter: whenever the host sends a frame other
than the one before, nothing of the old exchange is under way.  Then an ACK answers the frame that
was sent last (`Settled`), and a host that has read one knows that the device accepted it
(`Passes.confirmed`).
-/

namespace Defib

/-- The line: frames under way, frames the device has accepted, ACKs under way, ACKs that have
arrived at the host, and the frame the host sent last. -/
structure AckLink (φ : Type*) where
  toDevice : List φ
  accepted : List φ
  acks : ℕ
  arrived : ℕ
  last : Option φ
  deriving DecidableEq, Repr

/-- What the line does by itself. -/
inductive LinkMove
  | deliver
  | loseFrame
  | loseAck
  | arrive
  deriving DecidableEq, Repr

/-- What the host does: `hear` is to read a byte that is no ACK, `quiet` to find nothing to read,
`idle` to do something else. -/
inductive HostMove (φ : Type*)
  | send (f : φ)
  | flush
  | takeAck
  | hear
  | quiet
  | idle
  deriving DecidableEq, Repr

inductive LinkStep (φ : Type*)
  | link (m : LinkMove)
  | host (m : HostMove φ)
  deriving DecidableEq, Repr

namespace AckLink

variable {φ : Type*} [DecidableEq φ]

def empty : AckLink φ := ⟨[], [], 0, 0, none⟩

variable (accepts : List φ → φ → Bool)

/-- The device gets a frame. -/
def receive (l : AckLink φ) (f : φ) : AckLink φ :=
  if accepts l.accepted f then { l with accepted := l.accepted ++ [f], acks := l.acks + 1 }
  else if l.accepted.getLast? = some f then { l with acks := l.acks + 1 }
  else l

/-- One step; `none` if it is not possible.  The device sends nothing but ACKs. -/
def step (l : AckLink φ) : LinkStep φ → Option (AckLink φ)
  | .link .deliver =>
      match l.toDevice with
      | [] => none
      | f :: fs => some (({ l with toDevice := fs } : AckLink φ).receive accepts f)
  | .link .loseFrame =>
      match l.toDevice with
      | [] => none
      | _ :: fs => some { l with toDevice := fs }
  | .link .loseAck => if 0 < l.acks then some { l with acks := l.acks - 1 } else none
  | .link .arrive =>
      if 0 < l.acks then some { l with acks := l.acks - 1, arrived := l.arrived + 1 } else none
  | .host (.send f) => some { l with toDevice := l.toDevice ++ [f], last := some f }
  | .host .flush => some { l with arrived := 0 }
  | .host .takeAck => if 0 < l.arrived then some { l with arrived := l.arrived - 1 } else none
  | .host .hear => none
  | .host .quiet => if l.arrived = 0 then some l else none
  | .host .idle => some l

def exec : AckLink φ → List (LinkStep φ) → Option (AckLink φ)
  | l, [] => some l
  | l, s :: ss =>
      match l.step accepts s with
      | none => none
      | some l' => exec l' ss

/-- The moves of the host in a run. -/
def hostMoves (ss : List (LinkStep φ)) : List (HostMove φ) :=
  ss.filterMap fun
    | .host m => some m
    | .link _ => none

/-- A new frame is sent only when nothing of the one before is under way. -/
def TimelyStep (l : AckLink φ) : LinkStep φ → Prop
  | .host (.send f) => l.last = some f ∨ (l.toDevice = [] ∧ l.acks = 0 ∧ l.arrived = 0)
  | _ => True

instance (l : AckLink φ) : (s : LinkStep φ) → Decidable (l.TimelyStep s)
  | .host (.send f) =>
      inferInstanceAs (Decidable (l.last = some f ∨ (l.toDevice = [] ∧ l.acks = 0 ∧ l.arrived = 0)))
  | .host .flush => .isTrue trivial
  | .host .takeAck => .isTrue trivial
  | .host .hear => .isTrue trivial
  | .host .quiet => .isTrue trivial
  | .host .idle => .isTrue trivial
  | .link _ => .isTrue trivial

/-- Every step of a run is timely. -/
def Timely : AckLink φ → List (LinkStep φ) → Prop
  | _, [] => True
  | l, s :: ss => l.TimelyStep s ∧
      match l.step accepts s with
      | none => True
      | some l' => Timely l' ss

def Timely.decide : (l : AckLink φ) → (ss : List (LinkStep φ)) → Decidable (l.Timely accepts ss)
  | _, [] => .isTrue trivial
  | l, s :: ss =>
      match h : l.step accepts s with
      | none => decidable_of_iff (l.TimelyStep s) (by simp [Timely, h])
      | some l' =>
          have := Timely.decide l' ss
          decidable_of_iff (l.TimelyStep s ∧ l'.Timely accepts ss) (by simp [Timely, h])

instance (l : AckLink φ) (ss : List (LinkStep φ)) : Decidable (l.Timely accepts ss) :=
  Timely.decide accepts l ss

variable {accepts}

/-! ## What a step can do -/

/-- A step delivers a frame, or sends one, or else it only takes frames and ACKs away. -/
lemma step_cases {l l' : AckLink φ} {s : LinkStep φ} (h : l.step accepts s = some l') :
    (∃ f fs, s = .link .deliver ∧ l.toDevice = f :: fs ∧
      l' = ({ l with toDevice := fs } : AckLink φ).receive accepts f) ∨
    (∃ f, s = .host (.send f) ∧ l' = { l with toDevice := l.toDevice ++ [f], last := some f }) ∨
    ((∀ f, s ≠ .host (.send f)) ∧ (∀ f ∈ l'.toDevice, f ∈ l.toDevice) ∧
      l'.accepted = l.accepted ∧ l'.last = l.last ∧
      l'.acks + l'.arrived ≤ l.acks + l.arrived ∧ (s = .host .takeAck → 0 < l.arrived)) := by
  rcases s with (_ | _ | _ | _) | (f | _ | _ | _ | _ | _)
  · -- deliver
    simp only [step] at h
    split at h
    · cases h
    · rename_i f fs hto
      cases h
      exact .inl ⟨f, fs, rfl, hto, rfl⟩
  · -- loseFrame
    simp only [step] at h
    split at h
    · cases h
    · rename_i f fs hto
      cases h
      exact .inr (.inr ⟨by simp, fun g hg => by simp [hto, hg], rfl, rfl, le_rfl, by simp⟩)
  · -- loseAck
    simp only [step] at h
    split at h
    · cases h
      exact .inr (.inr ⟨by simp, fun _ hg => hg, rfl, rfl, by simp only; omega, by simp⟩)
    · cases h
  · -- arrive
    simp only [step] at h
    split at h
    · cases h
      exact .inr (.inr ⟨by simp, fun _ hg => hg, rfl, rfl, by simp only; omega, by simp⟩)
    · cases h
  · exact .inr (.inl ⟨f, rfl, (Option.some.inj h).symm⟩)
  · -- flush
    cases h
    exact .inr (.inr ⟨by simp, fun _ hg => hg, rfl, rfl, by simp only; omega, by simp⟩)
  · -- takeAck
    simp only [step] at h
    split at h
    · rename_i hpos
      cases h
      exact .inr (.inr ⟨by simp, fun _ hg => hg, rfl, rfl, by simp only; omega, fun _ => hpos⟩)
    · cases h
  · cases h
  · -- quiet
    simp only [step] at h
    split at h
    · cases h
      exact .inr (.inr ⟨by simp, fun _ hg => hg, rfl, rfl, le_rfl, by simp⟩)
    · cases h
  · cases h
    exact .inr (.inr ⟨by simp, fun _ hg => hg, rfl, rfl, le_rfl, by simp⟩)

variable (accepts) in
/-- What the device does with a frame. -/
lemma receive_cases (l : AckLink φ) (f : φ) :
    (l.receive accepts f).toDevice = l.toDevice ∧ (l.receive accepts f).last = l.last ∧
      (l.receive accepts f).arrived = l.arrived ∧ l.accepted <+: (l.receive accepts f).accepted ∧
      ((l.receive accepts f).accepted.getLast? = some f ∨
        (l.receive accepts f).acks = l.acks ∧ (l.receive accepts f).accepted = l.accepted) := by
  rw [receive]
  split
  · exact ⟨rfl, rfl, rfl, List.prefix_append _ _, .inl (by simp)⟩
  · split
    · rename_i h
      exact ⟨rfl, rfl, rfl, List.prefix_rfl, .inl h⟩
    · exact ⟨rfl, rfl, rfl, List.prefix_rfl, .inr ⟨rfl, rfl⟩⟩

/-! ## What is under way belongs to the last frame -/

/-- What is under way are copies of the last frame and answers to it. -/
structure Settled (l : AckLink φ) : Prop where
  copies : ∀ f ∈ l.toDevice, l.last = some f
  answers : 0 < l.acks + l.arrived → l.accepted.getLast? = l.last ∧ l.last ≠ none

/-- The last frame is the last one accepted. -/
structure Confirmed (f : φ) (l : AckLink φ) : Prop where
  last : l.last = some f
  accepted : l.accepted.getLast? = some f

omit [DecidableEq φ] in
lemma settled_empty : (empty : AckLink φ).Settled := ⟨by simp [empty], by simp [empty]⟩

section Step

variable {l l' : AckLink φ} {s : LinkStep φ}

/-- **A timely step keeps the line settled.** -/
lemma step_settled (ht : l.TimelyStep s) (hl : l.Settled) (h : l.step accepts s = some l') :
    l'.Settled ∧ l.accepted <+: l'.accepted := by
  rcases step_cases h with ⟨f, fs, rfl, hto, rfl⟩ | ⟨f, rfl, rfl⟩ |
    ⟨-, hto, haccepted, hlast, hcount, -⟩
  · obtain ⟨hto', hlast', harrived, hinit, hor⟩ :=
      receive_cases accepts { l with toDevice := fs } f
    have hlast : l.last = some f := hl.copies f (by simp [hto])
    refine ⟨⟨?_, fun hpos => ?_⟩, hinit⟩
    · rw [hto', hlast']
      exact fun g hg => hl.copies g (by simp [hto, hg])
    · rw [hlast']
      rcases hor with hgot | ⟨hacks, haccepted⟩
      · rw [hgot]
        exact ⟨hlast.symm, by simp [hlast]⟩
      · rw [haccepted]
        exact hl.answers (by simpa [hacks, harrived] using hpos)
  · refine ⟨?_, List.prefix_rfl⟩
    rcases ht with hsame | ⟨hto, hacks, harrived⟩
    · refine ⟨fun g hg => ?_, fun hpos => ?_⟩
      · rw [List.mem_append, List.mem_singleton] at hg
        rcases hg with hg | rfl
        · rw [← hsame]
          exact hl.copies g hg
        · rfl
      · rw [← hsame]
        exact hl.answers hpos
    · refine ⟨fun g hg => ?_, fun hpos => ?_⟩
      · simp only [hto, List.nil_append, List.mem_singleton] at hg
        rw [hg]
      · simp only [hacks, harrived] at hpos
        omega
  · refine ⟨⟨fun g hg => ?_, fun hpos => ?_⟩, by rw [haccepted]⟩
    · rw [hlast]
      exact hl.copies g (hto g hg)
    · rw [haccepted, hlast]
      exact hl.answers (by omega)

lemma step_last {f : φ} (hsend : ∀ g, s = .host (.send g) → g = f) (hlast : l.last = some f)
    (h : l.step accepts s = some l') : l'.last = some f := by
  rcases step_cases h with ⟨g, fs, rfl, -, rfl⟩ | ⟨g, rfl, rfl⟩ | ⟨-, -, -, hlast', -, -⟩
  · rw [(receive_cases accepts _ g).2.1]
    exact hlast
  · rw [hsend g rfl]
  · rw [hlast', hlast]

/-- A confirmed frame stays confirmed as long as no other is sent. -/
lemma step_confirmed {f : φ} (hl : l.Settled) (hsend : ∀ g, s = .host (.send g) → g = f)
    (hf : l.Confirmed f) (h : l.step accepts s = some l') : l'.Confirmed f := by
  refine ⟨step_last hsend hf.last h, ?_⟩
  rcases step_cases h with ⟨g, fs, rfl, hto, rfl⟩ | ⟨g, rfl, rfl⟩ | ⟨-, -, haccepted, -, -, -⟩
  · have hg : g = f := by
      have := hl.copies g (by simp [hto])
      rw [hf.last] at this
      exact (Option.some.inj this).symm
    rcases (receive_cases accepts { l with toDevice := fs } g).2.2.2.2 with hgot | ⟨-, hsame⟩
    · rw [hgot, hg]
    · rw [hsame]
      exact hf.accepted
  · exact hf.accepted
  · rw [haccepted]
    exact hf.accepted

end Step

/-! ## Runs -/

section Run

variable {l l' : AckLink φ} {ss : List (LinkStep φ)}

/-- A run that gets somewhere makes its first step. -/
lemma exec_cons {s : LinkStep φ} (h : l.exec accepts (s :: ss) = some l') :
    ∃ m : AckLink φ, l.step accepts s = some m ∧ m.exec accepts ss = some l' := by
  rw [exec] at h
  cases hnext : l.step accepts s with
  | none =>
      rw [hnext] at h
      cases h
  | some m =>
      rw [hnext] at h
      exact ⟨m, rfl, h⟩

lemma timely_cons {m : AckLink φ} {s : LinkStep φ} (hnext : l.step accepts s = some m) :
    l.Timely accepts (s :: ss) ↔ l.TimelyStep s ∧ m.Timely accepts ss := by
  change (_ ∧ match l.step accepts s with | none => True | some l' => _) ↔ _
  rw [hnext]

lemma exec_settled (ht : l.Timely accepts ss) (hl : l.Settled) (h : l.exec accepts ss = some l') :
    l'.Settled ∧ l.accepted <+: l'.accepted := by
  induction ss generalizing l with
  | nil =>
      cases h
      exact ⟨hl, List.prefix_rfl⟩
  | cons s ss ih =>
      obtain ⟨m, hnext, h⟩ := exec_cons h
      obtain ⟨hstep, hrest⟩ := (timely_cons hnext).mp ht
      obtain ⟨hm, hinit⟩ := step_settled hstep hl hnext
      obtain ⟨hl', hinit'⟩ := ih hrest hm h
      exact ⟨hl', hinit.trans hinit'⟩

lemma exec_confirmed {f : φ} (ht : l.Timely accepts ss) (hl : l.Settled)
    (hsend : ∀ g, .host (.send g) ∈ ss → g = f) (hf : l.Confirmed f)
    (h : l.exec accepts ss = some l') : l'.Confirmed f := by
  induction ss generalizing l with
  | nil =>
      cases h
      exact hf
  | cons s ss ih =>
      obtain ⟨m, hnext, h⟩ := exec_cons h
      obtain ⟨hstep, hrest⟩ := (timely_cons hnext).mp ht
      exact ih hrest (step_settled hstep hl hnext).1 (fun g hg => hsend g (by simp [hg]))
        (step_confirmed hl (fun g hg => hsend g (by simp [hg])) hf hnext) h

/-- **An ACK that is read confirms the last frame.** -/
lemma exec_takeAck {f : φ} (ht : l.Timely accepts ss) (hl : l.Settled)
    (hsend : ∀ g, .host (.send g) ∈ ss → g = f) (hlast : l.last = some f)
    (hack : .host .takeAck ∈ ss) (h : l.exec accepts ss = some l') : l'.Confirmed f := by
  induction ss generalizing l with
  | nil => simp at hack
  | cons s ss ih =>
      obtain ⟨m, hnext, hexec⟩ := exec_cons h
      obtain ⟨hstep, hrest⟩ := (timely_cons hnext).mp ht
      have hm := (step_settled hstep hl hnext).1
      have hsend' : ∀ g, .host (.send g) ∈ ss → g = f := fun g hg => hsend g (by simp [hg])
      have hlast' := step_last (fun g hg => hsend g (by simp [hg])) hlast hnext
      rw [List.mem_cons] at hack
      rcases hack with rfl | hack
      · -- there was an ACK to read, and it answers the last frame
        rcases step_cases hnext with ⟨g, fs, heq, -⟩ | ⟨g, heq, -⟩ | ⟨-, -, haccepted, -, -, hpos⟩
        · cases heq
        · cases heq
        · have harrived := hpos rfl
          obtain ⟨hgot, -⟩ := hl.answers (by omega)
          exact exec_confirmed hrest hm hsend' ⟨hlast', by rw [haccepted, hgot, hlast]⟩ hexec
      · exact ih hrest hm hsend' hlast' hack hexec

lemma exec_last {f : φ} (hsend : ∀ g, .host (.send g) ∈ ss → g = f)
    (hlast : l.last = some f ∨ .host (.send f) ∈ ss) (h : l.exec accepts ss = some l') :
    l'.last = some f := by
  induction ss generalizing l with
  | nil =>
      cases h
      simpa using hlast
  | cons s ss ih =>
      obtain ⟨m, hnext, h⟩ := exec_cons h
      refine ih (fun g hg => hsend g (by simp [hg])) ?_ h
      rw [List.mem_cons] at hlast
      rcases hlast with hlast | rfl | hmem
      · exact .inl (step_last (fun g hg => hsend g (by simp [hg])) hlast hnext)
      · cases hnext
        exact .inl rfl
      · exact .inr hmem

lemma exec_append {ss' : List (LinkStep φ)} (h : l.exec accepts (ss ++ ss') = some l')
    (ht : l.Timely accepts (ss ++ ss')) :
    ∃ m : AckLink φ, l.exec accepts ss = some m ∧ l.Timely accepts ss ∧
      m.exec accepts ss' = some l' ∧ m.Timely accepts ss' := by
  induction ss generalizing l with
  | nil => exact ⟨l, rfl, trivial, h, ht⟩
  | cons s ss ih =>
      obtain ⟨k, hnext, h⟩ := exec_cons h
      obtain ⟨hstep, hrest⟩ := (timely_cons hnext).mp ht
      obtain ⟨m, hm, htm, hm', htm'⟩ := ih h hrest
      refine ⟨m, ?_, (timely_cons hnext).mpr ⟨hstep, htm⟩, hm', htm'⟩
      rw [exec, hnext]
      exact hm

end Run

/-! ## The host's side of a run -/

variable (accepts) in
/-- The line gets from one state to the other in a timely run in which the host makes the moves
`ms`. -/
def Passes (ms : List (HostMove φ)) (l l' : AckLink φ) : Prop :=
  ∃ ss, hostMoves ss = ms ∧ l.exec accepts ss = some l' ∧ l.Timely accepts ss

section Passes

variable {l l' : AckLink φ} {ms : List (HostMove φ)}

omit [DecidableEq φ] in
lemma mem_hostMoves {ss : List (LinkStep φ)} {m : HostMove φ} :
    m ∈ hostMoves ss ↔ .host m ∈ ss := by
  rw [hostMoves, List.mem_filterMap]
  constructor
  · rintro ⟨s, hs, heq⟩
    cases s with
    | link _ => cases heq
    | host m' =>
        cases heq
        exact hs
  · intro h
    exact ⟨.host m, h, rfl⟩

lemma Passes.split {ns : List (HostMove φ)} (h : Passes accepts (ms ++ ns) l l') :
    ∃ m, Passes accepts ms l m ∧ Passes accepts ns m l' := by
  obtain ⟨ss, hmoves, hexec, htimely⟩ := h
  obtain ⟨ss₁, ss₂, rfl, h₁, h₂⟩ := List.filterMap_eq_append_iff.mp hmoves
  obtain ⟨m, he₁, ht₁, he₂, ht₂⟩ := exec_append hexec htimely
  exact ⟨m, ⟨ss₁, h₁, he₁, ht₁⟩, ⟨ss₂, h₂, he₂, ht₂⟩⟩

lemma Passes.settled (h : Passes accepts ms l l') (hl : l.Settled) :
    l'.Settled ∧ l.accepted <+: l'.accepted := by
  obtain ⟨ss, -, hexec, htimely⟩ := h
  exact exec_settled htimely hl hexec

/-- **A frame whose ACK was read was accepted.** -/
lemma Passes.confirmed {f : φ} (h : Passes accepts (.flush :: .send f :: ms) l l')
    (hl : l.Settled) (hsend : ∀ g, .send g ∈ ms → g = f) (hack : .takeAck ∈ ms) :
    l'.Confirmed f := by
  have happend : Passes accepts ([.flush, .send f] ++ ms) l l' := h
  obtain ⟨m, hfirst, hrest⟩ := happend.split
  obtain ⟨hm, -⟩ := hfirst.settled hl
  have hlast : m.last = some f := by
    obtain ⟨ss, hmoves, hexec, -⟩ := hfirst
    refine exec_last (fun g hg => ?_) (.inr ?_) hexec
    · have hmem := mem_hostMoves.mpr hg
      rw [hmoves] at hmem
      simpa using hmem
    · rw [← mem_hostMoves, hmoves]
      simp
  obtain ⟨ss, hmoves, hexec, htimely⟩ := hrest
  refine exec_takeAck htimely hm (fun g hg => ?_) hlast ?_ hexec
  · exact hsend g (hmoves ▸ mem_hostMoves.mpr hg)
  · rw [← mem_hostMoves, hmoves]
    exact hack

end Passes

end AckLink

end Defib
