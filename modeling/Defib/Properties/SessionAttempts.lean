import Mathlib.Data.Set.Basic
import Defib.Boot.Attempts

/-!
# What a session keeps

A session is to return a report, to make no more attempts than it may, with one power cycle each,
and none after the DDR memory is up.  `session_keeps_iff` says when it does.  There are two slips
(`SlipsAt`): if the handshake of the last attempt fails, the result is a variable that was never
assigned, and a session asks for `DDR_INIT` whatever its protocol, so that a CV6xx that has passed
its DDR training is tried again.

One attempt is one step: `keeps_stop` and `keeps_again` say what it does to the contract, and
`slips_succ` what it does to the slips.
-/

namespace Defib

namespace SessionSetup

variable (s : SessionSetup)

/-! ## The contract -/

/-- The last upload of a run succeeded. -/
def LastSendSucceeded (turns : ℕ → Turn) (calls : List (List SessionCall)) : Prop :=
  ∃ i, (∃ c, calls[i]? = some c ∧ .sendFirmware ∈ c) ∧
    (∀ j c, i < j → calls[j]? = some c → .sendFirmware ∉ c) ∧ (turns i).sent.success = true

/-- The DDR memory is up after an upload. -/
def DdrUp (report : RecoveryReport) : Prop :=
  ∃ stage ∈ s.protocol.ddrStage, stage ∈ report.stagesCompleted

/-- What a run with `allowed` attempts is to keep. -/
structure Keeps (turns : ℕ → Turn) (allowed : ℕ) (o : SessionOutcome) : Prop where
  /-- It returns a report, which says what the last upload did. -/
  returns : ∃ report, o.result = .ok report ∧
    (report.success = true ↔ LastSendSucceeded turns o.calls)
  attempts_le : o.calls.length ≤ allowed
  one_power_cycle : s.automatic = true → ∀ c ∈ o.calls, c.count .powerCycle = 1
  /-- An attempt that has brought up the DDR memory is the last one. -/
  none_after_ddr : ∀ i c, o.calls[i]? = some c → .sendFirmware ∈ c → s.DdrUp (turns i).sent →
    i + 1 = o.calls.length

/-! ## The slips -/

/-- The handshake of an attempt comes to its end. -/
def Shaken (turn : Turn) : Prop := s.automatic = true → ∃ u, turn.powerCycle = .ok u

/-- The handshake of an attempt succeeds, or is left to the upload. -/
def Answered (turn : Turn) : Prop :=
  (s.frameBlast = true ∧ s.automatic = false) ∨ turn.handshake.success = true

/-- An upload failed, and `DDR_INIT` is not among its stages. -/
def FailedEarly (report : RecoveryReport) : Prop :=
  report.success = false ∧ .ddrInit ∉ report.stagesCompleted

/-- An attempt after which there is another one, if one is left. -/
def Retried (turn : Turn) : Prop :=
  s.Shaken turn ∧ (s.Answered turn → FailedEarly turn.sent)

/-- An attempt at which a run goes wrong, with `left` attempts behind it. -/
def SlipsAt (turn : Turn) (left : ℕ) : Prop :=
  s.Shaken turn ∧
    (¬ s.Answered turn ∧ left = 0 ∨
      s.Answered turn ∧ FailedEarly turn.sent ∧ s.DdrUp turn.sent ∧ 0 < left)

/-- A run comes to an attempt at which it goes wrong. -/
def Slips (turns : ℕ → Turn) (allowed : ℕ) : Prop :=
  ∃ i < allowed, (∀ j < i, s.Retried (turns j)) ∧ s.SlipsAt (turns i) (allowed - (i + 1))

variable {s}

lemma not_slips_zero (turns : ℕ → Turn) : ¬ s.Slips turns 0 := by
  rintro ⟨i, hi, -⟩
  exact absurd hi (Nat.not_lt_zero i)

/-- A run goes wrong at its first attempt or later. -/
lemma slips_succ (turns : ℕ → Turn) (left : ℕ) :
    s.Slips turns (left + 1) ↔ s.SlipsAt (turns 0) left ∨
      s.Retried (turns 0) ∧ s.Slips (fun k => turns (k + 1)) left := by
  constructor
  · rintro ⟨i, hi, hretried, hslips⟩
    cases i with
    | zero => exact .inl hslips
    | succ i =>
        rw [Nat.add_sub_add_right] at hslips
        exact .inr ⟨hretried 0 (Nat.succ_pos i), i, Nat.lt_of_succ_lt_succ hi,
          fun j hj => hretried (j + 1) (Nat.succ_lt_succ hj), hslips⟩
  · rintro (hslips | ⟨hfirst, i, hi, hretried, hslips⟩)
    · exact ⟨0, Nat.succ_pos left, fun j hj => absurd hj (Nat.not_lt_zero j), hslips⟩
    · refine ⟨i + 1, Nat.succ_lt_succ hi, fun j hj => ?_, ?_⟩
      · cases j with
        | zero => exact hfirst
        | succ j => exact hretried j (Nat.lt_of_succ_lt_succ hj)
      · rw [Nat.add_sub_add_right]
        exact hslips

/-! ## One attempt -/

/-- What an attempt comes to. -/
inductive Ends (s : SessionSetup) (turn : Turn) (left : ℕ) (calls : List SessionCall) :
    TurnEnd → Prop
  | powerFailed (e : String) (hshaken : ¬ s.Shaken turn) (hsend : .sendFirmware ∉ calls) :
      Ends s turn left calls (.stop (.ok (.failed e)))
  | unanswered (e : String) (hshaken : s.Shaken turn) (hanswered : ¬ s.Answered turn)
      (hsend : .sendFirmware ∉ calls) (hleft : 0 < left) : Ends s turn left calls (.again e)
  | unassigned (hshaken : s.Shaken turn) (hanswered : ¬ s.Answered turn) (hleft : left = 0) :
      Ends s turn left calls (.stop (.error "UnboundLocalError"))
  | failedEarly (e : String) (hshaken : s.Shaken turn) (hanswered : s.Answered turn)
      (hsend : .sendFirmware ∈ calls) (hfailed : FailedEarly turn.sent) (hleft : 0 < left) :
      Ends s turn left calls (.again e)
  | sent (hshaken : s.Shaken turn) (hanswered : s.Answered turn) (hsend : .sendFirmware ∈ calls)
      (hlast : FailedEarly turn.sent → left = 0) : Ends s turn left calls (.stop (.ok turn.sent))

/-- What the handshake of an attempt comes to. -/
lemma shake_spec (turn : Turn) :
    (s.automatic = true → (s.shake turn).1.count .powerCycle = 1) ∧
    .sendFirmware ∉ (s.shake turn).1 ∧
    ((∃ e, (s.shake turn).2 = .error e ∧ ¬ s.Shaken turn) ∨
      ∃ handshake, (s.shake turn).2 = .ok handshake ∧ s.Shaken turn ∧
        (handshake.success = true ↔ s.Answered turn)) := by
  rw [shake]
  cases hautomatic : s.automatic with
  | false =>
      have hshaken : s.Shaken turn := fun h => absurd (hautomatic.symm.trans h) (by decide)
      cases hblast : s.frameBlast with
      | false =>
          refine ⟨fun h => absurd h (by decide), by simp, .inr ⟨_, rfl, hshaken, ?_⟩⟩
          rw [Answered, hblast, or_iff_right (by rintro ⟨⟨⟩, -⟩)]
      | true =>
          refine ⟨fun h => absurd h (by decide), by simp, .inr ⟨_, rfl, hshaken, ?_⟩⟩
          exact iff_of_true rfl (.inl ⟨hblast, hautomatic⟩)
  | true =>
      have hanswered : turn.handshake.success = true ↔ s.Answered turn := by
        rw [Answered, hautomatic, or_iff_right (by rintro ⟨-, ⟨⟩⟩)]
      cases hpower : turn.powerCycle with
      | error e =>
          have hshaken : ¬ s.Shaken turn := fun h => by
            obtain ⟨u, hu⟩ := h hautomatic
            rw [hpower] at hu
            cases hu
          cases s.frameBlast with
          | false => exact ⟨fun _ => rfl, by simp, .inl ⟨e, rfl, hshaken⟩⟩
          | true => exact ⟨fun _ => rfl, by simp, .inl ⟨e, rfl, hshaken⟩⟩
      | ok u =>
          have hshaken : s.Shaken turn := fun _ => ⟨u, hpower⟩
          cases s.frameBlast with
          | false => exact ⟨fun _ => rfl, by simp, .inr ⟨_, rfl, hshaken, hanswered⟩⟩
          | true => exact ⟨fun _ => rfl, by simp, .inr ⟨_, rfl, hshaken, hanswered⟩⟩

/-- **What an attempt comes to.** -/
lemma turnEnd_spec (turn : Turn) (left : ℕ) :
    (s.automatic = true → (s.turnEnd turn left).1.count .powerCycle = 1) ∧
      Ends s turn left (s.turnEnd turn left).1 (s.turnEnd turn left).2 := by
  obtain ⟨hcount, hsend, hshake⟩ := shake_spec (s := s) turn
  rw [turnEnd]
  generalize s.shake turn = shaken at hcount hsend hshake
  obtain ⟨calls, result⟩ := shaken
  simp only at hcount hsend hshake
  rcases hshake with ⟨e, rfl, hshaken⟩ | ⟨handshake, rfl, hshaken, hsuccess⟩
  · exact ⟨hcount, .powerFailed _ hshaken hsend⟩
  · rw [afterShake]
    by_cases hanswered : handshake.success = true
    · have hsent : .sendFirmware ∈ calls ++ [SessionCall.sendFirmware] :=
        List.mem_append_right _ List.mem_cons_self
      have hcount' : s.automatic = true →
          (calls ++ [SessionCall.sendFirmware]).count .powerCycle = 1 := by
        intro h
        rw [List.count_append, hcount h]
        rfl
      rw [if_pos hanswered]
      have hanswered := hsuccess.mp hanswered
      dsimp only
      cases hdone : turn.sent.success with
      | true =>
          refine ⟨hcount', .sent hshaken hanswered hsent fun h => ?_⟩
          rw [h.1] at hdone
          cases hdone
      | false =>
          by_cases hearly : .ddrInit ∉ turn.sent.stagesCompleted ∧ 0 < left
          · rw [if_neg Bool.false_ne_true, if_pos hearly]
            exact ⟨hcount', .failedEarly _ hshaken hanswered hsent ⟨hdone, hearly.1⟩ hearly.2⟩
          · rw [if_neg Bool.false_ne_true, if_neg hearly]
            refine ⟨hcount', .sent hshaken hanswered hsent fun h => ?_⟩
            exact Nat.eq_zero_of_not_pos fun hleft => hearly ⟨h.2, hleft⟩
    · rw [if_neg hanswered]
      have hanswered := fun h => hanswered (hsuccess.mpr h)
      by_cases hleft : 0 < left
      · rw [if_pos hleft]
        exact ⟨hcount, .unanswered _ hshaken hanswered hsend hleft⟩
      · rw [if_neg hleft]
        exact ⟨hcount, .unassigned hshaken hanswered (Nat.eq_zero_of_not_pos hleft)⟩

/-! ## One step of the loop -/

section Step

variable {turns : ℕ → Turn} {left : ℕ} {c : List SessionCall}

/-- An attempt without a successful upload does not count. -/
lemma lastSendSucceeded_cons {calls : List (List SessionCall)}
    (hfirst : .sendFirmware ∈ c → (turns 0).sent.success = false) :
    LastSendSucceeded turns (c :: calls) ↔
      LastSendSucceeded (fun k => turns (k + 1)) calls := by
  constructor
  · rintro ⟨i, ⟨d, hd, hsend⟩, hlast, hsuccess⟩
    cases i with
    | zero =>
        obtain rfl := Option.some.inj hd
        rw [hfirst hsend] at hsuccess
        cases hsuccess
    | succ i =>
        exact ⟨i, ⟨d, hd, hsend⟩, fun j d' hj hd' => hlast (j + 1) d' (Nat.succ_lt_succ hj) hd',
          hsuccess⟩
  · rintro ⟨i, hi, hlast, hsuccess⟩
    refine ⟨i + 1, hi, fun j d' hj hd' => ?_, hsuccess⟩
    cases j with
    | zero => exact absurd hj (Nat.not_lt_zero _)
    | succ j => exact hlast j d' (Nat.lt_of_succ_lt_succ hj) hd'

/-- A run of one attempt. -/
lemma keeps_singleton {report : RecoveryReport}
    (hcount : s.automatic = true → c.count .powerCycle = 1)
    (hreport : report.success = true ↔ LastSendSucceeded turns [c]) :
    s.Keeps turns (left + 1) ⟨.ok report, [c]⟩ := by
  refine ⟨⟨report, rfl, hreport⟩, Nat.succ_le_succ (Nat.zero_le _), ?_, ?_⟩
  · intro hautomatic d hd
    rw [List.mem_singleton.mp hd]
    exact hcount hautomatic
  · intro i d hd hsend hup
    cases i with
    | zero => rfl
    | succ i => cases hd

lemma not_lastSendSucceeded_nil (turns : ℕ → Turn) : ¬ LastSendSucceeded turns [] := by
  rintro ⟨i, ⟨c, hc, -⟩, -⟩
  cases hc

/-- The run is over. -/
lemma keeps_stop {result : Except String RecoveryReport}
    (hcount : s.automatic = true → c.count .powerCycle = 1)
    (h : Ends s (turns 0) left c (.stop result)) :
    s.Keeps turns (left + 1) ⟨result, [c]⟩ ↔ ¬ s.Slips turns (left + 1) := by
  rw [slips_succ]
  cases h with
  | powerFailed e hshaken hsend =>
      refine iff_of_true (keeps_singleton hcount ?_) ?_
      · rw [lastSendSucceeded_cons fun h => absurd h hsend]
        exact iff_of_false Bool.false_ne_true (not_lastSendSucceeded_nil _)
      · rintro (h | ⟨h, -⟩)
        · exact hshaken h.1
        · exact hshaken h.1
  | unassigned hshaken hanswered hleft =>
      refine iff_of_false (fun h => ?_) (not_not_intro (.inl ⟨hshaken, .inl ⟨hanswered, hleft⟩⟩))
      obtain ⟨report, hreport, -⟩ := h.returns
      cases hreport
  | sent hshaken hanswered hsend hlast =>
      refine iff_of_true (keeps_singleton hcount ?_) ?_
      · constructor
        · intro hsuccess
          refine ⟨0, ⟨c, rfl, hsend⟩, fun j d hj hd => ?_, hsuccess⟩
          cases j with
          | zero => exact absurd hj (Nat.lt_irrefl 0)
          | succ j => cases hd
        · rintro ⟨i, ⟨d, hd, -⟩, -, hsuccess⟩
          cases i with
          | zero => exact hsuccess
          | succ i => cases hd
      · rintro (⟨-, ⟨hnot, -⟩ | ⟨-, hfailed, -, hleft⟩⟩ | ⟨hretried, hslips⟩)
        · exact hnot hanswered
        · exact Nat.ne_of_gt hleft (hlast hfailed)
        · rw [hlast (hretried.2 hanswered)] at hslips
          exact not_slips_zero _ hslips

/-- There is another attempt. -/
lemma keeps_again {e : String} {o : SessionOutcome}
    (hcount : s.automatic = true → c.count .powerCycle = 1)
    (h : Ends s (turns 0) left c (.again e)) (hmore : o.calls ≠ []) :
    s.Keeps turns (left + 1) ⟨o.result, c :: o.calls⟩ ↔
      ¬ s.SlipsAt (turns 0) left ∧ s.Keeps (fun k => turns (k + 1)) left o := by
  -- the first attempt has no successful upload, and it slips exactly when it brings the DDR up
  obtain ⟨hfirst, hslips⟩ : (.sendFirmware ∈ c → (turns 0).sent.success = false) ∧
      (s.SlipsAt (turns 0) left ↔ .sendFirmware ∈ c ∧ s.DdrUp (turns 0).sent) := by
    cases h with
    | unanswered e hshaken hanswered hsend hleft =>
        refine ⟨fun h => absurd h hsend, iff_of_false ?_ fun h => hsend h.1⟩
        rintro ⟨-, ⟨-, h⟩ | ⟨h, -⟩⟩
        · exact Nat.ne_of_gt hleft h
        · exact hanswered h
    | failedEarly e hshaken hanswered hsend hfailed hleft =>
        refine ⟨fun _ => hfailed.1, ?_, ?_⟩
        · rintro ⟨-, ⟨h, -⟩ | ⟨-, -, h, -⟩⟩
          · exact absurd hanswered h
          · exact ⟨hsend, h⟩
        · exact fun h => ⟨hshaken, .inr ⟨hanswered, hfailed, h.2, hleft⟩⟩
  rw [hslips]
  constructor
  · intro h
    refine ⟨fun hup => ?_, ?_, Nat.le_of_succ_le_succ h.attempts_le,
      fun ha d hd => h.one_power_cycle ha d (List.mem_cons_of_mem _ hd), fun i d hd hsend hup => ?_⟩
    · have hlength := h.none_after_ddr 0 c rfl hup.1 hup.2
      exact hmore (List.length_eq_zero_iff.mp (Nat.succ.inj hlength).symm)
    · obtain ⟨report, hreport, hsuccess⟩ := h.returns
      exact ⟨report, hreport, hsuccess.trans (lastSendSucceeded_cons hfirst)⟩
    · exact Nat.succ.inj (h.none_after_ddr (i + 1) d hd hsend hup)
  · rintro ⟨hup, h⟩
    refine ⟨?_, Nat.succ_le_succ h.attempts_le, fun ha d hd => ?_, fun i d hd hsend hup' => ?_⟩
    · obtain ⟨report, hreport, hsuccess⟩ := h.returns
      exact ⟨report, hreport, hsuccess.trans (lastSendSucceeded_cons hfirst).symm⟩
    · rcases List.mem_cons.mp hd with rfl | hd
      · exact hcount ha
      · exact h.one_power_cycle ha d hd
    · cases i with
      | zero =>
          obtain rfl := Option.some.inj hd
          exact absurd ⟨hsend, hup'⟩ hup
      | succ i => exact congrArg Nat.succ (h.none_after_ddr i d hd hsend hup')

end Step

/-! ## A run -/

lemma retried_of_again {turn : Turn} {left : ℕ} {c : List SessionCall} {e : String}
    (h : Ends s turn left c (.again e)) : s.Retried turn ∧ 0 < left := by
  cases h with
  | unanswered e hshaken hanswered hsend hleft =>
      exact ⟨⟨hshaken, fun h => absurd h hanswered⟩, hleft⟩
  | failedEarly e hshaken hanswered hsend hfailed hleft =>
      exact ⟨⟨hshaken, fun _ => hfailed⟩, hleft⟩

lemma calls_attempts_ne_nil (turns : ℕ → Turn) (lastError : Option String) {left : ℕ}
    (hleft : 0 < left) : (s.attempts turns lastError left).calls ≠ [] := by
  obtain ⟨left, rfl⟩ := Nat.exists_eq_add_one.mpr hleft
  rw [attempts]
  split
  · exact List.cons_ne_nil _ _
  · exact List.cons_ne_nil _ _

/-- **The loop over attempts** keeps its contract when it does not come to a slip. -/
lemma attempts_keeps_iff (turns : ℕ → Turn) (lastError : Option String) (left : ℕ)
    (hleft : 0 < left) :
    s.Keeps turns left (s.attempts turns lastError left) ↔ ¬ s.Slips turns left := by
  induction left generalizing turns lastError with
  | zero => exact absurd hleft (Nat.lt_irrefl 0)
  | succ left ih =>
      obtain ⟨hcount, hends⟩ := turnEnd_spec (s := s) (turns 0) left
      rw [attempts]
      generalize s.turnEnd (turns 0) left = attempt at hcount hends
      obtain ⟨c, turnEnd⟩ := attempt
      simp only at hcount hends
      cases turnEnd with
      | stop result => exact keeps_stop hcount hends
      | again e =>
          obtain ⟨hretried, hpos⟩ := retried_of_again hends
          dsimp only
          rw [keeps_again hcount hends (calls_attempts_ne_nil _ _ hpos), ih _ _ hpos, slips_succ,
            not_or, not_and, imp_iff_right hretried]

end SessionSetup

/-- **A session keeps its contract exactly when it does not come to one of two slips**: the
handshake of its last attempt fails, or an attempt fails behind the DDR memory without `DDR_INIT`
and there is another one. -/
theorem session_keeps_iff (s : SessionSetup) (turns : ℕ → Turn) :
    s.Keeps turns s.allowed (s.run turns) ↔ ¬ s.Slips turns s.allowed := by
  refine SessionSetup.attempts_keeps_iff turns none s.allowed ?_
  rw [SessionSetup.allowed]
  split
  · exact s.attempts_pos
  · exact Nat.one_pos

/-- A session without a power controller. -/
def manualSession : SessionSetup := ⟨.v500, false, 2, by decide⟩

/-- The device does not answer the handshake. -/
def silentTurn : Turn := ⟨.ok (), ⟨false, none, "no answer"⟩, ⟨true, [.complete], none⟩⟩

/-- The only handshake fails, and nothing is returned. -/
theorem session_raises_unbound :
    (manualSession.run fun _ => silentTurn).result = .error "UnboundLocalError" ∧
      ¬ manualSession.Keeps (fun _ => silentTurn) manualSession.allowed
        (manualSession.run fun _ => silentTurn) := by
  refine ⟨rfl, fun h => ?_⟩
  obtain ⟨report, hreport, -⟩ := h.returns
  cases hreport

end Defib
