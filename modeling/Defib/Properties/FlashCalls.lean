import Defib.Properties.FlashSession

/-!
# A flash write, one driver call at a time

In `WriteJob.Step` the agent does all that a packet makes it do in one step.  Here it makes one
driver call, or sends one packet, per step, and the host goes on meanwhile: `FineStep`.

* `FineStep.settle`: what a fine session comes to, once the agent has done what it has begun, is a
  session of `WriteJob.Step`.
* `Reaches.fine`: every such session is a fine one too.
* `fine_returned`: when the host returns `True`, the agent has nothing left to do.
-/

namespace Defib

/-- An agent with the driver calls and packets it has yet to make. -/
structure BusyAgent where
  agent : StreamAgent
  todo : List FlashEvent

namespace WriteJob

/-- Host and agent, with what is in flight between them. -/
abbrev FineSession := Pair WriteHost BusyAgent Packet Packet

/-- A session whose agent has nothing to do. -/
def Session.idle (c : Session) : FineSession := ⟨c.fst, ⟨c.snd, []⟩, c.toFst, c.toSnd⟩

variable (w : WriteJob)

/-- One step of a fine session. -/
inductive FineStep : FineSession → FineSession → Prop
  /-- The host reads a packet. -/
  | host (s : WriteHost) (t : BusyAgent) (x : Packet) (xs ys : List Packet) :
      FineStep ⟨s, t, x :: xs, ys⟩ ⟨(WriteHost.recv w.job s x).1, t, xs,
        ys ++ (WriteHost.recv w.job s x).2⟩
  /-- The agent reads a packet when it has nothing to do. -/
  | agent (s : WriteHost) (a : StreamAgent) (xs : List Packet) (y : Packet) (ys : List Packet) :
      FineStep ⟨s, ⟨a, []⟩, xs, y :: ys⟩
        ⟨s, ⟨⟨a.flash, (StreamAgent.react w.b w.info a.phase y).1⟩,
          (StreamAgent.react w.b w.info a.phase y).2⟩, xs, ys⟩
  /-- The agent makes its next driver call, or sends its next packet. -/
  | event (s : WriteHost) (a : StreamAgent) (e : FlashEvent) (es : List FlashEvent)
      (xs ys : List Packet) :
      FineStep ⟨s, ⟨a, e :: es⟩, xs, ys⟩
        ⟨s, ⟨⟨w.b.applyEvents a.flash [e], a.phase⟩, es⟩, xs ++ packetsOf [e], ys⟩

/-- The session once the agent has done what it has begun. -/
def settle (c : FineSession) : Session :=
  ⟨c.fst, ⟨w.b.applyEvents c.snd.agent.flash c.snd.todo, c.snd.agent.phase⟩,
    c.toFst ++ packetsOf c.snd.todo, c.toSnd⟩

variable {w}

lemma applyEvents_none (flash : Store UInt8) : w.b.applyEvents flash [] = flash := by
  rw [Board.applyEvents_eq w.geometry_eq]
  rfl

lemma settle_idle (c : Session) : w.settle c.idle = c := by
  rw [settle]
  simp only [Session.idle, applyEvents_none, packetsOf_nil, List.append_nil]

/-- A driver call does not change what the session comes to. -/
lemma settle_event (s : WriteHost) (a : StreamAgent) (e : FlashEvent) (es : List FlashEvent)
    (xs ys : List Packet) : w.settle ⟨s, ⟨a, e :: es⟩, xs, ys⟩ =
      w.settle ⟨s, ⟨⟨w.b.applyEvents a.flash [e], a.phase⟩, es⟩, xs ++ packetsOf [e], ys⟩ := by
  have hflash := w.b.applyEvents_append a.flash [e] es
  have hpackets := packetsOf_append [e] es
  rw [List.singleton_append] at hflash hpackets
  simp only [settle, hflash, hpackets, List.append_assoc]

/-- **A fine step is a delivery, or none.** -/
lemma FineStep.settle {c d : FineSession} (h : w.FineStep c d) :
    w.settle c = w.settle d ∨ w.Step (w.settle c) (w.settle d) := by
  cases h with
  | host s t x xs ys =>
      refine .inr ?_
      simp only [WriteJob.settle, List.cons_append]
      exact .fst s _ x _ ys
  | agent s a xs y ys =>
      refine .inr ?_
      simp only [WriteJob.settle, applyEvents_none, packetsOf_nil, List.append_nil]
      exact .snd s a xs y ys
  | event s a e es xs ys => exact .inl (settle_event s a e es xs ys)

/-- The agent does all it has to do. -/
lemma reaches_settle (s : WriteHost) (a : StreamAgent) (es : List FlashEvent)
    (xs ys : List Packet) : Reaches w.FineStep ⟨s, ⟨a, es⟩, xs, ys⟩
      (w.settle ⟨s, ⟨a, es⟩, xs, ys⟩).idle := by
  induction es generalizing a xs with
  | nil =>
      simp only [settle, Session.idle, applyEvents_none, packetsOf_nil, List.append_nil]
      exact .refl _
  | cons e es ih =>
      have hstep := FineStep.event (w := w) s a e es xs ys
      rw [settle_event]
      exact ((Reaches.refl _).tail hstep).trans (ih _ _)

/-- **Every delivery is a fine run.** -/
lemma fine_of_step (c d : Session) (h : w.Step c d) : Reaches w.FineStep c.idle d.idle := by
  cases h with
  | fst s a x xs ys => exact (Reaches.refl _).tail (.host s ⟨a, []⟩ x xs ys)
  | snd s a xs y ys =>
      have hstep := FineStep.agent (w := w) s a xs y ys
      exact ((Reaches.refl _).tail hstep).trans (reaches_settle _ _ _ _ _)

/-! ## How a fine session ends -/

/-- An agent that is done with its stream has the last reply to send, or nothing. -/
def LastIsSend (c : FineSession) : Prop :=
  c.snd.agent.phase = .finished → c.snd.todo = [] ∨ StreamAgent.EndsWithSend c.snd.todo

lemma lastIsSend_step (c d : FineSession) (hc : LastIsSend c) (h : w.FineStep c d) :
    LastIsSend d := by
  cases h with
  | host s t x xs ys => exact hc
  | agent s a xs y ys => exact fun hfinished => .inr (StreamAgent.react_ends hfinished)
  | event s a e es xs ys =>
      intro hfinished
      rcases hc hfinished with hnil | hends
      · cases hnil
      · exact hends.tail

/-- **The end of a fine session** is the end of a session, with nothing left to do. -/
lemma fine_returned (hfollow : w.CanFollow) {init ram : Store UInt8} {stale : ℕ} {c : FineSession}
    (hreach : Reaches w.FineStep (w.start init ram stale).idle c)
    (hret : c.fst.phase = .returned true) : w.Done init (w.settle c) ∧ c.snd.todo = [] := by
  have hdone : w.Done init (w.settle c) := by
    have hproj : Reaches w.Step _ _ := hreach.project fun _ _ h => FineStep.settle h
    rw [settle_idle] at hproj
    obtain ⟨n, hrun⟩ := hproj
    obtain ⟨bound, hstart⟩ := conforms_start hfollow init ram stale
    rcases hrun.ranked (conforms_ranked init) overrun_absorbing hstart with ⟨m, hm, -⟩ | hover
    · exact conforms_returned hm hret
    · exact absurd (hret.symm.trans hover.1) (by simp)
  refine ⟨hdone, ?_⟩
  have hlast : LastIsSend c := hreach.invariant lastIsSend_step (fun _ => .inl rfl)
  rcases hlast hdone.finished with hnil | hends
  · exact hnil
  · exact absurd (List.append_eq_nil_iff.mp hdone.read).2 hends.packetsOf_ne_nil

end WriteJob

end Defib
