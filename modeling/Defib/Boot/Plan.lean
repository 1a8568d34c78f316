import Defib.Boot.Observe

/-!
# The plan of an upload

Which frames the parts of an upload would send if nothing stopped it, `planOf`, and what a
listener records of a run that carries the parts out.

A run sends the frames of the plan in order and stops at the first one that matters and is not
ACKed.  So what is recorded is a prefix of the plan (`performUpload_observed`), all of it when the
upload succeeds, and the stages of the result are those of which every frame that matters was
ACKed.
-/

namespace Defib
namespace HiSiliconStandard

/-! ## Frames of a part -/

/-- The frames that are sent, up to an exception. -/
def sentFrames : List Sending → List (List UInt8)
  | [] => []
  | .frame bytes _ _ :: ss => bytes :: sentFrames ss
  | .raise _ :: _ => []

def Opener.raises : Opener → Bool
  | .raise _ => true
  | _ => false

def Sending.raises : Sending → Bool
  | .raise _ => true
  | _ => false

/-- Carrying the part out would end in an exception. -/
def Part.raises (part : Part) : Bool :=
  part.openers.any Opener.raises || part.sendings.any Sending.raises

def Part.frames (part : Part) : List (List UInt8) :=
  if part.openers.any Opener.raises then [] else sentFrames part.sendings

def Part.plan (part : Part) : List (Stage × List UInt8) := part.frames.map (part.stage, ·)

/-- The frames of an upload with their stages, up to an exception. -/
def planOf : List Part → List (Stage × List UInt8)
  | [] => []
  | part :: parts => part.plan ++ if part.raises then [] else planOf parts

/-! ## What was ACKed -/

/-- The frames of a plan that belong to a stage and matter. -/
def wanted (must : Stage → List UInt8 → Bool) (plan : List (Stage × List UInt8)) (stage : Stage) :
    List (List UInt8) :=
  (plan.filter fun k => k.1 = stage ∧ must k.1 k.2).map Prod.snd

/-- The frames of a stage that matter and were ACKed. -/
def confirmed (must : Stage → List UInt8 → Bool) (entries : List Entry) (stage : Stage) :
    List (List UInt8) :=
  (entries.filter fun e => e.stage = stage ∧ must e.stage e.frame ∧ e.acked).map Entry.frame

/-- Every frame of a stage that matters was ACKed, and there is one. -/
def Credited (must : Stage → List UInt8 → Bool) (plan : List (Stage × List UInt8))
    (entries : List Entry) (stage : Stage) : Prop :=
  wanted must plan stage ≠ [] ∧ confirmed must entries stage = wanted must plan stage

instance (must : Stage → List UInt8 → Bool) (plan : List (Stage × List UInt8))
    (entries : List Entry) : DecidablePred (Credited must plan entries) :=
  fun _ => inferInstanceAs (Decidable (_ ∧ _))

variable {must : Stage → List UInt8 → Bool}

lemma wanted_append (plan plan' : List (Stage × List UInt8)) (stage : Stage) :
    wanted must (plan ++ plan') stage = wanted must plan stage ++ wanted must plan' stage := by
  simp [wanted]

lemma confirmed_append (es es' : List Entry) (stage : Stage) :
    confirmed must (es ++ es') stage = confirmed must es stage ++ confirmed must es' stage := by
  simp [confirmed]

lemma wanted_eq_nil {plan : List (Stage × List UInt8)} {stage : Stage}
    (h : ∀ k ∈ plan, k.1 ≠ stage) : wanted must plan stage = [] := by
  rw [wanted, List.map_eq_nil_iff, List.filter_eq_nil_iff]
  intro k hk
  simp [h k hk]

lemma confirmed_eq_nil {es : List Entry} {stage : Stage} (h : ∀ e ∈ es, e.stage ≠ stage) :
    confirmed must es stage = [] := by
  rw [confirmed, List.map_eq_nil_iff, List.filter_eq_nil_iff]
  intro e he
  simp [h e he]

lemma wanted_cons_of_must {stage : Stage} {bytes : List UInt8} (h : must stage bytes = true)
    (plan : List (Stage × List UInt8)) :
    wanted must ((stage, bytes) :: plan) stage = bytes :: wanted must plan stage := by
  simp [wanted, h]

lemma wanted_cons_of_not_must {stage : Stage} {bytes : List UInt8} (h : must stage bytes = false)
    (plan : List (Stage × List UInt8)) :
    wanted must ((stage, bytes) :: plan) stage = wanted must plan stage := by
  simp [wanted, h]

lemma confirmed_cons (stage : Stage) (bytes : List UInt8) (acked : Bool) (es : List Entry) :
    confirmed must (⟨stage, bytes, acked⟩ :: es) stage =
      if must stage bytes ∧ acked then bytes :: confirmed must es stage
      else confirmed must es stage := by
  by_cases h : must stage bytes = true ∧ acked = true
  · simp [confirmed, h]
  · rw [if_neg h, confirmed, confirmed, List.filter_cons_of_neg (by simpa using h)]

/-! ## Carrying a part out -/

/-- A list of frames as the parts of an upload have them: they are tried at least once, they are
frames, none is the one before it, and an ACK is insisted on where it matters.  They end with a
TAIL. -/
def WellFormed (must : Stage → List UInt8 → Bool) (stage : Stage) :
    Option (List UInt8) → List Sending → Prop
  | prev, [] => ∀ f ∈ prev, frameLabel f = .tail
  | prev, .frame bytes retries fatal :: ss =>
      0 < retries ∧ frameLabel bytes ≠ .unknown ∧ prev ≠ some bytes ∧
        fatal.isSome = must stage bytes ∧ WellFormed must stage (some bytes) ss
  | _, .raise _ :: _ => True

/-- What holds of the entries `new` that carrying out a plan has left, given how it ended. -/
def Tally (must : Stage → List UInt8 → Bool) (stage : Stage) (plan : List (Stage × List UInt8))
    (new : List Entry) : Except String (Option String) → Prop
  | .ok (some _) => confirmed must new stage ≠ wanted must plan stage
  | _ => new.map Entry.key = plan ∧ confirmed must new stage = wanted must plan stage

/-- A frame that was ACKed if it matters adds the same to both sides. -/
lemma confirmed_eq_wanted_cons {stage : Stage} {bytes : List UInt8} {acked : Bool}
    (hack : must stage bytes = true → acked = true) (plan : List (Stage × List UInt8))
    (new : List Entry) :
    confirmed must (⟨stage, bytes, acked⟩ :: new) stage =
        wanted must ((stage, bytes) :: plan) stage ↔
      confirmed must new stage = wanted must plan stage := by
  rw [confirmed_cons]
  cases hmust : must stage bytes with
  | true => simp [hack hmust, wanted_cons_of_must hmust]
  | false => simp [wanted_cons_of_not_must hmust]

lemma Tally.cons {stage : Stage} {bytes : List UInt8} {acked : Bool}
    (hack : must stage bytes = true → acked = true) {plan : List (Stage × List UInt8)}
    {new : List Entry} {r : Except String (Option String)} (h : Tally must stage plan new r) :
    Tally must stage ((stage, bytes) :: plan) (⟨stage, bytes, acked⟩ :: new) r := by
  have hiff := confirmed_eq_wanted_cons hack plan new
  match r, h with
  | .ok (some _), h => exact fun heq => h (hiff.mp heq)
  | .ok none, h => exact ⟨by simp [Entry.key, h.1], hiff.mpr h.2⟩
  | .error _, h => exact ⟨by simp [Entry.key, h.1], hiff.mpr h.2⟩

/-- **The frames of a part.**  What is recorded is a prefix of the plan, and the run has passed
exactly when all the frames that matter were ACKed. -/
lemma performSendings_observed (ss : List Sending) {l : Log}
    (hwf : WellFormed must l.stage l.lastFrame ss) (hwaiting : l.waiting = false)
    (script : List (Reading UInt8)) :
    ∃ new : List Entry,
      (performSendings ss script).trace.foldl Log.observe l =
        ⟨l.stage, new.reverse ++ l.entries, false⟩ ∧
      new.map Entry.key <+: (sentFrames ss).map (l.stage, ·) ∧
      Tally must l.stage ((sentFrames ss).map (l.stage, ·)) new
        (performSendings ss script).result ∧
      ((performSendings ss script).result = .ok none →
        ss.any Sending.raises = false ∧
        ∀ f ∈ Log.lastFrame ⟨l.stage, new.reverse ++ l.entries, false⟩, frameLabel f = .tail) ∧
      (∀ e, (performSendings ss script).result = .error e → ss.any Sending.raises = true) := by
  induction ss generalizing l script with
  | nil =>
      refine ⟨[], ?_, by simp, ⟨rfl, rfl⟩, fun _ => ⟨rfl, hwf⟩, by rintro e ⟨⟩⟩
      obtain ⟨stage, entries, waiting⟩ := l
      simp only at hwaiting
      subst hwaiting
      rfl
  | cons s ss ih =>
      cases s with
      | raise e =>
          refine ⟨[], ?_, by simp, ⟨rfl, rfl⟩, by rintro ⟨⟩, fun _ _ => rfl⟩
          obtain ⟨stage, entries, waiting⟩ := l
          simp only at hwaiting
          subst hwaiting
          rfl
      | frame bytes retries fatal =>
          obtain ⟨hpos, hlabel, hprev, hfatal, hrest⟩ := hwf
          obtain ⟨acked, hresult, hlog⟩ := foldl_sendFrameWithRetry hpos hlabel script hprev
          -- the run goes on unless the frame matters and was not ACKed
          by_cases hgo : acked = true ∨ fatal = none
          · rw [performSendings_frame_passed hresult hgo]
            obtain ⟨new, hfold, hinit, htally, hok, herr⟩ :=
              ih (l := ⟨l.stage, ⟨l.stage, bytes, acked⟩ :: l.entries, false⟩) hrest rfl
                (sendFrameWithRetry bytes retries script).rest
            have hack : must l.stage bytes = true → acked = true := by
              intro hmust
              rcases hgo with h | h
              · exact h
              · rw [h, hmust] at hfatal
                cases hfatal
            refine ⟨⟨l.stage, bytes, acked⟩ :: new, ?_, ?_, ?_, ?_, ?_⟩
            · rw [Scripted.Outcome.prepend_trace, List.foldl_append, hlog, hfold]
              simp
            · exact List.cons_prefix_cons.mpr ⟨rfl, hinit⟩
            · exact htally.cons hack
            · intro hnone
              obtain ⟨hraises, htail⟩ := hok hnone
              refine ⟨by simpa [Sending.raises] using hraises, ?_⟩
              simpa using htail
            · intro e he
              simpa [Sending.raises] using herr e he
          · push Not at hgo
            obtain ⟨err, rfl⟩ := Option.ne_none_iff_exists'.mp hgo.2
            have hacked : acked = false := by simpa using hgo.1
            subst hacked
            rw [performSendings_frame_failed hresult]
            refine ⟨[⟨l.stage, bytes, false⟩], hlog, ?_, ?_, by rintro ⟨⟩, by rintro e ⟨⟩⟩
            · exact List.cons_prefix_cons.mpr ⟨rfl, List.nil_prefix⟩
            · change confirmed must [⟨l.stage, bytes, false⟩] l.stage ≠ _
              rw [sentFrames, List.map_cons, wanted_cons_of_must hfatal.symm, confirmed_cons]
              simp [confirmed]

/-- The stage after the notes of a list. -/
def stageAfter : Stage → List Opener → Stage
  | stage, [] => stage
  | _, .note stage :: os => stageAfter stage os
  | stage, _ :: os => stageAfter stage os

/-- Before the frames of a part, only the stage changes. -/
lemma performOpeners_observed (os : List Opener) {l : Log} (hwaiting : l.waiting = false)
    (script : List (Reading UInt8)) :
    ∃ stage, (performOpeners os script).trace.foldl Log.observe l = ⟨stage, l.entries, false⟩ ∧
      ((performOpeners os script).result = .ok none →
        stage = stageAfter l.stage os ∧ os.any Opener.raises = false) ∧
      (∀ e, (performOpeners os script).result = .error e → os.any Opener.raises = true) := by
  have hself : l = ⟨l.stage, l.entries, false⟩ := by rw [← hwaiting]
  induction os generalizing l script with
  | nil => exact ⟨l.stage, hself, fun _ => ⟨rfl, rfl⟩, by rintro e ⟨⟩⟩
  | cons o os ih =>
      cases o with
      | raise e => exact ⟨l.stage, hself, by rintro ⟨⟩, fun _ _ => rfl⟩
      | note stage =>
          obtain ⟨stage', hfold, hok, herr⟩ :=
            ih (l := { l with stage := stage }) hwaiting script (by rw [← hwaiting])
          exact ⟨stage', hfold, hok, herr⟩
      | rehandshake =>
          obtain ⟨ok, hresult, hlog⟩ := foldl_rehandshake script hwaiting
          obtain ⟨stage', hfold, hok, herr⟩ := ih hwaiting (rehandshake script).rest hself
          rw [performOpeners_rehandshake hresult]
          refine ⟨stage', ?_, hok, herr⟩
          rw [Scripted.Outcome.prepend_trace, List.foldl_append, hlog, hfold]
      | blast head err =>
          obtain ⟨started, hresult, hlog⟩ := foldl_blast head script hwaiting
          rw [performOpeners_blast hresult]
          cases started with
          | true =>
              obtain ⟨stage', hfold, hok, herr⟩ := ih hwaiting (blast head script).rest hself
              refine ⟨stage', ?_, hok, herr⟩
              rw [Scripted.Outcome.prepend_trace, List.foldl_append, hlog]
              exact hfold
          | false =>
              refine ⟨l.stage, ?_, by rintro ⟨⟩, by rintro e ⟨⟩⟩
              rw [Scripted.Outcome.prepend_trace, List.foldl_append, hlog]
              exact hself

/-- A part as uploads have it. -/
structure Part.WellFormed (must : Stage → List UInt8 → Bool) (part : Part) : Prop where
  opens : part.openers.any Opener.raises = false → ∀ s, stageAfter s part.openers = part.stage
  sends : ∀ prev : Option (List UInt8), (∀ f ∈ prev, frameLabel f = .tail) →
    HiSiliconStandard.WellFormed must part.stage prev part.sendings
  matters : part.raises = false → wanted must part.plan part.stage ≠ []

lemma Part.plan_stage {part : Part} {k : Stage × List UInt8} (h : k ∈ part.plan) :
    k.1 = part.stage := by
  rw [Part.plan, List.mem_map] at h
  obtain ⟨f, -, rfl⟩ := h
  rfl

/-- **A part.** -/
lemma performPart_observed {part : Part} (hpart : part.WellFormed must) {l : Log}
    (hlast : ∀ f ∈ l.lastFrame, frameLabel f = .tail) (hwaiting : l.waiting = false)
    (script : List (Reading UInt8)) :
    ∃ stage, ∃ new : List Entry,
      (performPart part script).trace.foldl Log.observe l =
        ⟨stage, new.reverse ++ l.entries, false⟩ ∧
      new.map Entry.key <+: part.plan ∧
      ((performPart part script).result = .ok none →
        new.map Entry.key = part.plan ∧
        confirmed must new part.stage = wanted must part.plan part.stage ∧
        part.raises = false ∧
        ∀ f ∈ Log.lastFrame ⟨stage, new.reverse ++ l.entries, false⟩, frameLabel f = .tail) ∧
      (∀ err, (performPart part script).result = .ok (some err) →
        wanted must part.plan part.stage = [] ∨
          confirmed must new part.stage ≠ wanted must part.plan part.stage) ∧
      (∀ e, (performPart part script).result = .error e →
        new.map Entry.key = part.plan ∧ part.raises = true) := by
  obtain ⟨stage, hfold, hok, herr⟩ := performOpeners_observed part.openers hwaiting script
  cases hresult : (performOpeners part.openers script).result with
  | error e =>
      have hraises := herr e hresult
      have hplan : part.plan = [] := by rw [Part.plan, Part.frames, if_pos hraises, List.map_nil]
      rw [performPart_of_error hresult]
      refine ⟨stage, [], hfold, by simp, by rintro ⟨⟩, by rintro err ⟨⟩, fun _ _ => ?_⟩
      exact ⟨by simp [hplan], by simp [Part.raises, hraises]⟩
  | ok opened =>
      cases opened with
      | some err =>
          rw [performPart_of_some hresult]
          refine ⟨stage, [], hfold, by simp, by rintro ⟨⟩, fun _ _ => ?_, by rintro e ⟨⟩⟩
          rcases hwanted : wanted must part.plan part.stage with _ | ⟨f, fs⟩
          · exact .inl rfl
          · exact .inr (by simp [confirmed])
      | none =>
          obtain ⟨hstage, hopeners⟩ := hok hresult
          rw [hpart.opens hopeners] at hstage
          subst hstage
          have hplan : part.plan = (sentFrames part.sendings).map (part.stage, ·) := by
            rw [Part.plan, Part.frames, if_neg (by simp [hopeners])]
          obtain ⟨new, hfold', hinit, htally, hpassed, hraised⟩ :=
            performSendings_observed part.sendings (l := ⟨part.stage, l.entries, false⟩)
              (hpart.sends _ hlast) rfl (performOpeners part.openers script).rest
          rw [performPart_of_none hresult, hplan]
          refine ⟨part.stage, new, ?_, hinit, ?_, ?_, ?_⟩
          · rw [Scripted.Outcome.prepend_trace, List.foldl_append, hfold, hfold']
          · intro hnone
            rw [Scripted.Outcome.prepend_result] at hnone
            rw [hnone] at htally
            obtain ⟨hraises, htail⟩ := hpassed hnone
            exact ⟨htally.1, htally.2, by rw [Part.raises, hopeners, hraises]; rfl, htail⟩
          · intro err hsome
            rw [Scripted.Outcome.prepend_result] at hsome
            rw [hsome] at htally
            exact .inr htally
          · intro e herror
            rw [Scripted.Outcome.prepend_result] at herror
            rw [herror] at htally
            exact ⟨htally.1, by rw [Part.raises, hraised e herror, Bool.or_true]⟩

/-! ## Carrying an upload out -/

lemma planOf_stage {parts : List Part} {k : Stage × List UInt8} (h : k ∈ planOf parts) :
    k.1 ∈ parts.map Part.stage := by
  induction parts with
  | nil => simp [planOf] at h
  | cons part parts ih =>
      rw [planOf, List.mem_append] at h
      rcases h with h | h
      · simp [Part.plan_stage h]
      · split at h
        · simp at h
        · exact List.mem_cons_of_mem _ (ih h)

lemma key_mem_plan {new : List Entry} {plan : List (Stage × List UInt8)}
    (h : new.map Entry.key <+: plan) {e : Entry} (he : e ∈ new) : e.key ∈ plan :=
  h.subset (List.mem_map_of_mem he)

section

variable {plan plan' : List (Stage × List UInt8)} {new new' : List Entry} {stage : Stage}

/-- A stage that the second half has nothing of. -/
lemma credited_append_left (hplan : ∀ k ∈ plan', k.1 ≠ stage) (hnew : ∀ e ∈ new', e.stage ≠ stage) :
    Credited must (plan ++ plan') (new ++ new') stage ↔ Credited must plan new stage := by
  rw [Credited, wanted_append, confirmed_append, wanted_eq_nil hplan, confirmed_eq_nil hnew,
    List.append_nil, List.append_nil, Credited]

/-- A stage that the first half has nothing of. -/
lemma credited_append_right (hplan : ∀ k ∈ plan, k.1 ≠ stage) (hnew : ∀ e ∈ new, e.stage ≠ stage) :
    Credited must (plan ++ plan') (new ++ new') stage ↔ Credited must plan' new' stage := by
  rw [Credited, wanted_append, confirmed_append, wanted_eq_nil hplan, confirmed_eq_nil hnew,
    List.nil_append, List.nil_append, Credited]

/-- A stage of which nothing was sent. -/
lemma not_credited_of_not_sent (hnew : ∀ e ∈ new, e.stage ≠ stage) :
    ¬ Credited must plan new stage := by
  rintro ⟨hne, heq⟩
  rw [confirmed_eq_nil hnew] at heq
  exact hne heq.symm

end

/-- What holds of the entries of an upload, given how it ended. -/
structure UploadTally (must : Stage → List UInt8 → Bool) (parts : List Part) (stages : List Stage)
    (new : List Entry) (r : RecoveryResult) : Prop where
  stages_eq : r.stagesCompleted = stages ++
    (parts.map Part.stage).filter (fun s => Credited must (planOf parts) new s) ++
      if r.success then [.complete] else []
  success : r.success = true → new.map Entry.key = planOf parts ∧
    ∀ part ∈ parts, part.raises = false ∧ Credited must (planOf parts) new part.stage
  failure : r.success = false →
    ∀ part ∈ parts.getLast?, ¬ Credited must (planOf parts) new part.stage

section

variable {part : Part} {parts : List Part} {stages : List Stage} {new new' : List Entry}

/-- An upload that has failed, with no stage completed since `stages`. -/
lemma UploadTally.of_not_credited
    (h : ∀ s ∈ parts.map Part.stage, ¬ Credited must (planOf parts) new s) (err : Option String) :
    UploadTally must parts stages new ⟨false, stages, err⟩ := by
  refine ⟨?_, by rintro ⟨⟩, fun _ q hq => h _ (List.mem_map_of_mem (List.mem_of_getLast? hq))⟩
  have hfilter : (parts.map Part.stage).filter (fun s => Credited must (planOf parts) new s) =
      [] := by
    rw [List.filter_eq_nil_iff]
    intro s hs
    simpa using h s hs
  rw [hfilter]
  simp

/-- One more part in front, which has passed. -/
lemma UploadTally.cons {r : RecoveryResult}
    (h : UploadTally must parts (stages ++ [part.stage]) new' r) (hraises : part.raises = false)
    (hkeys : new.map Entry.key = part.plan)
    (hpart : Credited must (planOf (part :: parts)) (new ++ new') part.stage)
    (hothers : ∀ s ∈ parts.map Part.stage,
      (Credited must (planOf (part :: parts)) (new ++ new') s ↔
        Credited must (planOf parts) new' s))
    (hnil : parts = [] → r.success = true) :
    UploadTally must (part :: parts) stages (new ++ new') r := by
  refine ⟨?_, fun hsuccess => ?_, fun hfailed q hq => ?_⟩
  · have hfilter : (parts.map Part.stage).filter
          (fun s => Credited must (planOf (part :: parts)) (new ++ new') s) =
        (parts.map Part.stage).filter (fun s => Credited must (planOf parts) new' s) :=
      List.filter_congr fun s hs => by simp [hothers s hs]
    rw [h.stages_eq, List.map_cons, List.filter_cons_of_pos (by simpa using hpart), hfilter]
    simp
  · obtain ⟨hkeys', hall⟩ := h.success hsuccess
    refine ⟨by rw [planOf, if_neg (by simp [hraises]), List.map_append, hkeys, hkeys'], ?_⟩
    intro q hq
    rcases List.mem_cons.mp hq with rfl | hq
    · exact ⟨hraises, hpart⟩
    · obtain ⟨hq', hcredited⟩ := hall q hq
      exact ⟨hq', (hothers _ (List.mem_map_of_mem hq)).mpr hcredited⟩
  · rcases parts with _ | ⟨q', parts⟩
    · rw [hnil rfl] at hfailed
      cases hfailed
    · rw [List.getLast?_cons_cons] at hq
      rw [hothers _ (List.mem_map_of_mem (List.mem_of_getLast? hq))]
      exact h.failure hfailed q hq

end

section

variable {part : Part} {parts : List Part} {new new' : List Entry}

/-- What a part sends is of none of the stages behind it. -/
lemma stage_ne_of_sent (hfresh : part.stage ∉ parts.map Part.stage)
    (hinit : new.map Entry.key <+: part.plan) {s : Stage} (hs : s ∈ parts.map Part.stage) :
    ∀ e ∈ new, e.stage ≠ s := by
  intro e he heq
  have hkey : e.stage = part.stage := Part.plan_stage (key_mem_plan hinit he)
  rw [← hkey, heq] at hfresh
  exact hfresh hs

/-- What is planned behind a part is of other stages. -/
lemma stage_ne_of_planned (hfresh : part.stage ∉ parts.map Part.stage) :
    ∀ k ∈ (if part.raises then [] else planOf parts), k.1 ≠ part.stage := by
  intro k hk heq
  split at hk
  · simp at hk
  · exact hfresh (heq ▸ planOf_stage hk)

/-- A part that failed leaves no stage completed, its own and those behind it. -/
lemma not_credited_of_failed (hfresh : part.stage ∉ parts.map Part.stage)
    (hinit : new.map Entry.key <+: part.plan)
    (hfailed : wanted must part.plan part.stage = [] ∨
      confirmed must new part.stage ≠ wanted must part.plan part.stage) :
    ∀ s ∈ (part :: parts).map Part.stage, ¬ Credited must (planOf (part :: parts)) new s := by
  intro s hs
  rw [List.map_cons, List.mem_cons] at hs
  rcases hs with rfl | hs
  · have hleft : Credited must (part.plan ++ _) (new ++ []) part.stage ↔ _ :=
      credited_append_left (stage_ne_of_planned hfresh) (by simp)
    rw [List.append_nil] at hleft
    rw [planOf, hleft]
    rintro ⟨hne, heq⟩
    rcases hfailed with h | h
    · exact hne h
    · exact h heq
  · exact not_credited_of_not_sent (stage_ne_of_sent hfresh hinit hs)

/-- A part that passed has completed its stage, and the stages behind it are a matter of the
rest. -/
lemma credited_of_passed (hfresh : part.stage ∉ parts.map Part.stage)
    (hraises : part.raises = false) (hinit : new.map Entry.key <+: part.plan)
    (hinit' : new'.map Entry.key <+: planOf parts)
    (hcredited : Credited must part.plan new part.stage) :
    Credited must (planOf (part :: parts)) (new ++ new') part.stage ∧
      ∀ s ∈ parts.map Part.stage,
        (Credited must (planOf (part :: parts)) (new ++ new') s ↔
          Credited must (planOf parts) new' s) := by
  have hplan := stage_ne_of_planned hfresh
  rw [planOf]
  rw [if_neg (by simp [hraises])] at hplan ⊢
  refine ⟨?_, fun s hs => ?_⟩
  · rw [credited_append_left hplan fun e he => hplan _ (key_mem_plan hinit' he)]
    exact hcredited
  · rw [credited_append_right _ (stage_ne_of_sent hfresh hinit hs)]
    intro k hk heq
    rw [Part.plan_stage hk] at heq
    exact hfresh (heq ▸ hs)

end

/-- **An upload.**  What is recorded is a prefix of the plan, and the stages of the result are
those of which every frame that matters was ACKed. -/
lemma performUpload_observed {parts : List Part} (hparts : ∀ part ∈ parts, part.WellFormed must)
    (hnodup : (parts.map Part.stage).Nodup) (stages : List Stage) {l : Log}
    (hlast : ∀ f ∈ l.lastFrame, frameLabel f = .tail) (hwaiting : l.waiting = false)
    (script : List (Reading UInt8)) :
    ∃ stage, ∃ new : List Entry,
      (performUpload parts stages script).trace.foldl Log.observe l =
        ⟨stage, new.reverse ++ l.entries, false⟩ ∧
      new.map Entry.key <+: planOf parts ∧
      (∀ r, (performUpload parts stages script).result = .ok r →
        UploadTally must parts stages new r) ∧
      (∀ e, (performUpload parts stages script).result = .error e →
        new.map Entry.key = planOf parts ∧ ∃ part ∈ parts, part.raises = true) := by
  induction parts generalizing l stages script with
  | nil =>
      refine ⟨.complete, [], ?_, by simp [planOf], ?_, by rintro e ⟨⟩⟩
      · change ({ l with stage := Stage.complete } : Log) = _
        rw [← hwaiting]
        rfl
      · rintro r ⟨⟩
        exact ⟨by simp, fun _ => ⟨rfl, by simp⟩, by simp⟩
  | cons part parts ih =>
      rw [List.map_cons, List.nodup_cons] at hnodup
      obtain ⟨stage, new, hfold, hinit, hpassed, hfailed, hraised⟩ :=
        performPart_observed (hparts part (by simp)) hlast hwaiting script
      cases hresult : (performPart part script).result with
      | error e =>
          obtain ⟨hkeys, hraises⟩ := hraised e hresult
          rw [performUpload_of_error parts stages hresult]
          refine ⟨stage, new, hfold, ?_, by rintro r ⟨⟩, fun _ _ => ?_⟩
          · exact hinit.trans (List.prefix_append _ _)
          · rw [planOf, if_pos hraises, List.append_nil, hkeys]
            exact ⟨rfl, part, by simp, hraises⟩
      | ok verdict =>
          cases verdict with
          | some err =>
              rw [performUpload_of_some parts stages hresult]
              refine ⟨stage, new, hfold, hinit.trans (List.prefix_append _ _), ?_,
                by rintro e ⟨⟩⟩
              rintro r ⟨⟩
              exact .of_not_credited (not_credited_of_failed hnodup.1 hinit (hfailed err hresult)) _
          | none =>
              obtain ⟨hkeys, hacked, hraises, htail⟩ := hpassed hresult
              obtain ⟨stage', new', hfold', hinit', hok, herr⟩ :=
                ih (fun q hq => hparts q (by simp [hq])) hnodup.2 (stages ++ [part.stage])
                  (l := ⟨stage, new.reverse ++ l.entries, false⟩) htail rfl
                  (performPart part script).rest
              have hrest : planOf (part :: parts) = part.plan ++ planOf parts := by
                rw [planOf, if_neg (by simp [hraises])]
              obtain ⟨hpart, hothers⟩ := credited_of_passed hnodup.1 hraises hinit hinit'
                ⟨(hparts part (by simp)).matters hraises, hacked⟩
              rw [performUpload_of_none parts stages hresult]
              refine ⟨stage', new ++ new', ?_, ?_, ?_, ?_⟩
              · rw [Scripted.Outcome.prepend_trace, List.foldl_append, hfold, hfold']
                simp
              · rw [hrest, List.map_append, hkeys]
                exact (List.prefix_append_right_inj _).mpr hinit'
              · intro r hr
                refine (hok r hr).cons hraises hkeys hpart hothers ?_
                rintro rfl
                cases hr
                rfl
              · intro e he
                obtain ⟨hkeys', q, hq, hraises'⟩ := herr e he
                rw [hrest, List.map_append, hkeys, hkeys']
                exact ⟨rfl, q, by simp [hq], hraises'⟩

end HiSiliconStandard
end Defib
