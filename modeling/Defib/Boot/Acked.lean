import Defib.Boot.Segments

/-!
# A device that ACKs every frame

`AcksEvery` says of the events of a run that the device answers every frame at once: what comes
after the write of a frame is the ACK.  What else the device sends, the markers of a handshake for
one, is not restricted.

With such a device an upload gets to the end of its plan, or to an exception
(`sendFirmware_of_acksEvery`), and for every upload there is one (`exists_acksEvery`).
-/

namespace Defib

/-- Every frame is answered at once.  A lone `0xAA` is a handshake and no frame. -/
def AcksEvery : List HostEvent → Prop
  | [] => True
  | .write bytes :: es =>
      (bytes ≠ [bootmodeAck] → es.head? = some (.read (.item ackByte))) ∧ AcksEvery es
  | _ :: es => AcksEvery es

def AcksEvery.decide : (es : List HostEvent) → Decidable (AcksEvery es)
  | [] => .isTrue trivial
  | .write _ :: es =>
      have := AcksEvery.decide es
      inferInstanceAs (Decidable (_ ∧ _))
  | .flush :: es => AcksEvery.decide es
  | .read _ :: es => AcksEvery.decide es
  | .note _ :: es => AcksEvery.decide es

instance : DecidablePred AcksEvery := AcksEvery.decide

lemma AcksEvery.append {es es' : List HostEvent} (h : AcksEvery es) (h' : AcksEvery es') :
    AcksEvery (es ++ es') := by
  induction es with
  | nil => exact h'
  | cons e es ih =>
      cases e with
      | write bytes =>
          refine ⟨fun hbytes => ?_, ih h.2⟩
          change (es ++ es').head? = _
          rw [List.head?_append, h.1 hbytes]
          rfl
      | flush => exact ih h
      | read r => exact ih h
      | note n => exact ih h

lemma AcksEvery.of_append {es es' : List HostEvent} (h : AcksEvery (es ++ es')) :
    AcksEvery es' := by
  induction es with
  | nil => exact h
  | cons e es ih =>
      cases e with
      | write bytes => exact ih h.2
      | flush => exact ih h
      | read r => exact ih h
      | note n => exact ih h

namespace HiSiliconStandard

lemma ne_handshake_of_label {bytes : List UInt8} (h : frameLabel bytes ≠ .unknown) :
    bytes ≠ [bootmodeAck] := by
  rintro rfl
  exact head?_ne_of_label h rfl

/-! ## It gets through -/

/-- A frame whose first attempt is ACKed. -/
lemma sendFrameWithRetry_acked (bytes : List UInt8) {retries : ℕ} (hpos : 0 < retries)
    (tail : List (Reading UInt8)) :
    sendFrameWithRetry bytes retries (.item ackByte :: tail) =
      ⟨.ok true, tail, [.flush, .write bytes, .read (.item ackByte)]⟩ := by
  obtain ⟨n, rfl⟩ : ∃ n, retries = n + 1 := ⟨retries - 1, by omega⟩
  rw [sendFrameWithRetry, Scripted.flush_bind_apply, Scripted.write_bind_apply]
  rfl

/-- The reading after the first write of a frame. -/
lemma sendFrameWithRetry_trace (bytes : List UInt8) {retries : ℕ} (hpos : 0 < retries)
    (script : List (Reading UInt8)) :
    ∃ es, (sendFrameWithRetry bytes retries script).trace =
      .flush :: .write bytes :: .read (script.headD .expired) :: es := by
  have hawait : ∃ acked es, (awaitAck script).result = .ok acked ∧
      (awaitAck script).trace = .read (script.headD .expired) :: es := by
    change ∃ acked es, (awaitAckLoop script).result = .ok acked ∧
      (awaitAckLoop script).trace = .read (script.headD .expired) :: es
    rcases script with _ | ⟨b | _ | _, script⟩
    · exact ⟨_, _, rfl, rfl⟩
    · obtain ⟨acked, hresult, -⟩ := foldl_awaitAck (.item b :: script) .ddrInit
        (e := ⟨.ddrInit, [], false⟩) rfl []
      refine ⟨acked, (awaitAckLoop (.item b :: script)).trace.tail, hresult, ?_⟩
      rw [awaitAckLoop]
      split <;> rfl
    · exact ⟨_, _, rfl, rfl⟩
    · exact ⟨_, _, rfl, rfl⟩
  obtain ⟨n, rfl⟩ : ∃ n, retries = n + 1 := ⟨retries - 1, by omega⟩
  obtain ⟨acked, es, hresult, htrace⟩ := hawait
  rw [sendFrameWithRetry, Scripted.flush_bind_apply, Scripted.write_bind_apply,
    Scripted.bind_of_ok hresult]
  simp only [Scripted.Outcome.cons_trace, Scripted.Outcome.prepend_trace, htrace]
  exact ⟨_, rfl⟩

lemma eq_cons_of_headD {script : List (Reading UInt8)}
    (h : script.headD .expired = .item ackByte) : ∃ tail, script = .item ackByte :: tail := by
  cases script with
  | nil => cases h
  | cons r tail => exact ⟨tail, by rw [← h]; rfl⟩

/-- The first attempt at a frame is ACKed. -/
lemma sendFrameWithRetry_of_acksEvery {bytes : List UInt8} (hbytes : bytes ≠ [bootmodeAck])
    {retries : ℕ} (hpos : 0 < retries) {script : List (Reading UInt8)} {rest : List HostEvent}
    (h : AcksEvery ((sendFrameWithRetry bytes retries script).trace ++ rest)) :
    (sendFrameWithRetry bytes retries script).result = .ok true := by
  obtain ⟨es, htrace⟩ := sendFrameWithRetry_trace bytes hpos script
  rw [htrace] at h
  have hread : script.headD .expired = .item ackByte := by simpa using h.1 hbytes
  obtain ⟨tail, rfl⟩ := eq_cons_of_headD hread
  rw [sendFrameWithRetry_acked bytes hpos]

/-- The first blast is ACKed. -/
lemma blast_of_acksEvery {head : List UInt8} (hhead : head ≠ []) {script : List (Reading UInt8)}
    {rest : List HostEvent} (h : AcksEvery ((blast head script).trace ++ rest)) :
    (blast head script).result = .ok true := by
  have htrace : ∃ es, (blast head script).trace =
      .write (bootmodeAck :: head) :: .read (script.headD .expired) :: es := by
    rcases script with _ | ⟨b | _ | _, script⟩
    · exact ⟨_, rfl⟩
    · refine ⟨((blast head (.item b :: script)).trace).drop 2, ?_⟩
      simp only [blast, blastLoop]
      split <;> rfl
    · exact ⟨_, rfl⟩
    · exact ⟨_, rfl⟩
  obtain ⟨es, htrace⟩ := htrace
  rw [htrace] at h
  have hread : script.headD .expired = .item ackByte := by
    simpa using h.1 (by simpa using hhead)
  obtain ⟨tail, rfl⟩ := eq_cons_of_headD hread
  rfl

lemma sendFrameWithRetry_result {bytes : List UInt8} (hlabel : frameLabel bytes ≠ .unknown)
    {retries : ℕ} (hpos : 0 < retries) (script : List (Reading UInt8)) :
    ∃ acked, (sendFrameWithRetry bytes retries script).result = .ok acked := by
  obtain ⟨acked, hresult, -⟩ :=
    foldl_sendFrameWithRetry hpos hlabel script (l := Log.empty)
      (by simp [Log.empty, Log.lastFrame])
  exact ⟨acked, hresult⟩

variable {must : Stage → List UInt8 → Bool}

lemma performSendings_of_acksEvery {ss : List Sending} {stage : Stage}
    {prev : Option (List UInt8)} (hwf : WellFormed must stage prev ss)
    {script : List (Reading UInt8)} {rest : List HostEvent}
    (h : AcksEvery ((performSendings ss script).trace ++ rest)) (err : String) :
    (performSendings ss script).result ≠ .ok (some err) := by
  induction ss generalizing prev script with
  | nil => rintro ⟨⟩
  | cons s ss ih =>
      cases s with
      | raise e => rintro ⟨⟩
      | frame bytes retries fatal =>
          obtain ⟨hpos, hlabel, -, -, hrest⟩ := hwf
          obtain ⟨acked, hresult⟩ := sendFrameWithRetry_result hlabel hpos script
          -- whatever comes after them, the events of the frame come first
          have hfirst : ∃ es, (performSendings (.frame bytes retries fatal :: ss) script).trace =
              (sendFrameWithRetry bytes retries script).trace ++ es :=
            ⟨_, congrArg Scripted.Outcome.trace (Scripted.bind_of_ok hresult _)⟩
          obtain ⟨es, htrace⟩ := hfirst
          have hacked : (sendFrameWithRetry bytes retries script).result = .ok true := by
            rw [htrace, List.append_assoc] at h
            exact sendFrameWithRetry_of_acksEvery (ne_handshake_of_label hlabel) hpos h
          rw [performSendings_frame_passed hacked (.inl rfl), Scripted.Outcome.prepend_trace,
            List.append_assoc] at h
          rw [performSendings_frame_passed hacked (.inl rfl), Scripted.Outcome.prepend_result]
          exact ih hrest h.of_append

lemma performOpeners_of_acksEvery {os : List Opener}
    (hblast : ∀ head err, .blast head err ∈ os → head ≠ []) {script : List (Reading UInt8)}
    {rest : List HostEvent} (h : AcksEvery ((performOpeners os script).trace ++ rest))
    (err : String) : (performOpeners os script).result ≠ .ok (some err) := by
  induction os generalizing script with
  | nil => rintro ⟨⟩
  | cons o os ih =>
      have hrest : ∀ head err, .blast head err ∈ os → head ≠ [] := fun head err hmem =>
        hblast head err (by simp [hmem])
      cases o with
      | raise e => rintro ⟨⟩
      | note stage => exact ih hrest h
      | rehandshake =>
          obtain ⟨ok, hresult, -⟩ := foldl_rehandshake script (l := Log.empty) rfl
          rw [performOpeners_rehandshake hresult, Scripted.Outcome.prepend_trace,
            List.append_assoc] at h
          rw [performOpeners_rehandshake hresult, Scripted.Outcome.prepend_result]
          exact ih hrest h.of_append
      | blast head e =>
          obtain ⟨started, hresult, -⟩ := foldl_blast head script (l := Log.empty) rfl
          have hstarted : (blast head script).result = .ok true := by
            rw [performOpeners_blast hresult, Scripted.Outcome.prepend_trace,
              List.append_assoc] at h
            exact blast_of_acksEvery (hblast head e (by simp)) h
          rw [performOpeners_blast hstarted, Scripted.Outcome.prepend_trace,
            List.append_assoc] at h
          rw [performOpeners_blast hstarted, Scripted.Outcome.prepend_result]
          exact ih hrest h.of_append

/-- With a device that ACKs every frame, a part passes or ends in an exception. -/
lemma performPart_of_acksEvery {part : Part} (hpart : part.WellFormed must)
    (hblast : ∀ head err, .blast head err ∈ part.openers → head ≠ [])
    {script : List (Reading UInt8)} {rest : List HostEvent}
    (h : AcksEvery ((performPart part script).trace ++ rest)) (err : String) :
    (performPart part script).result ≠ .ok (some err) := by
  cases hresult : (performOpeners part.openers script).result with
  | error e =>
      rw [performPart_of_error hresult]
      rintro ⟨⟩
  | ok opened =>
      cases opened with
      | some e =>
          rw [performPart_of_some hresult] at h
          exact absurd hresult (performOpeners_of_acksEvery hblast h e)
      | none =>
          rw [performPart_of_none hresult, Scripted.Outcome.prepend_trace, List.append_assoc] at h
          rw [performPart_of_none hresult, Scripted.Outcome.prepend_result]
          exact performSendings_of_acksEvery (hpart.sends none (by rintro f ⟨⟩)) h.of_append err

lemma performUpload_of_acksEvery {parts : List Part}
    (hparts : ∀ part ∈ parts, part.WellFormed must ∧
      ∀ head err, .blast head err ∈ part.openers → head ≠ [])
    (stages : List Stage) {script : List (Reading UInt8)} {rest : List HostEvent}
    (h : AcksEvery ((performUpload parts stages script).trace ++ rest)) {r : RecoveryResult}
    (hr : (performUpload parts stages script).result = .ok r) : r.success = true := by
  induction parts generalizing stages script with
  | nil =>
      cases hr
      rfl
  | cons part parts ih =>
      obtain ⟨hpart, hblast⟩ := hparts part (by simp)
      cases hresult : (performPart part script).result with
      | error e =>
          rw [performUpload_of_error parts stages hresult] at hr
          cases hr
      | ok verdict =>
          cases verdict with
          | some err =>
              rw [performUpload_of_some parts stages hresult] at h
              exact absurd hresult (performPart_of_acksEvery hpart hblast h err)
          | none =>
              rw [performUpload_of_none parts stages hresult, Scripted.Outcome.prepend_trace,
                List.append_assoc] at h
              rw [performUpload_of_none parts stages hresult,
                Scripted.Outcome.prepend_result] at hr
              exact ih (fun q hq => hparts q (by simp [hq])) _ h.of_append hr

/-! ## There is such a device -/

/-- `script` answers every frame of a program, and what is left after it is `tail`. -/
def Answers {α : Type} (p : Host (Option α)) (script tail : List (Reading UInt8)) : Prop :=
  AcksEvery (p script).trace ∧ ((p script).result = .ok none → (p script).rest = tail)

lemma exists_answers_performSendings {ss : List Sending} {stage : Stage}
    {prev : Option (List UInt8)} (hwf : WellFormed must stage prev ss)
    (tail : List (Reading UInt8)) : ∃ script, Answers (performSendings ss) script tail := by
  induction ss generalizing prev with
  | nil => exact ⟨tail, trivial, fun _ => rfl⟩
  | cons s ss ih =>
      cases s with
      | raise e => exact ⟨[], trivial, by rintro ⟨⟩⟩
      | frame bytes retries fatal =>
          obtain ⟨hpos, -, -, -, hrest⟩ := hwf
          obtain ⟨script, hacks, htail⟩ := ih hrest
          have hframe := sendFrameWithRetry_acked bytes hpos script
          have hacked : (sendFrameWithRetry bytes retries (.item ackByte :: script)).result =
              .ok true := by rw [hframe]
          have hstep : performSendings (.frame bytes retries fatal :: ss)
              (.item ackByte :: script) = _ := performSendings_frame_passed hacked (.inl rfl) ss
          rw [hframe] at hstep
          refine ⟨.item ackByte :: script, ?_, ?_⟩
          · rw [hstep, Scripted.Outcome.prepend_trace]
            exact AcksEvery.append ⟨fun _ => rfl, trivial⟩ hacks
          · rw [hstep]
            exact htail

lemma exists_answers_performOpeners (os : List Opener) (tail : List (Reading UInt8)) :
    ∃ script, Answers (performOpeners os) script tail := by
  induction os with
  | nil => exact ⟨tail, trivial, fun _ => rfl⟩
  | cons o os ih =>
      obtain ⟨script, hacks, htail⟩ := ih
      cases o with
      | raise e => exact ⟨[], trivial, by rintro ⟨⟩⟩
      | note stage => exact ⟨script, hacks, htail⟩
      | rehandshake => exact ⟨.timeout :: script, hacks, htail⟩
      | blast head err =>
          exact ⟨.item ackByte :: script, ⟨fun _ => rfl, hacks⟩, htail⟩

lemma exists_answers_performPart {part : Part} (hpart : part.WellFormed must)
    (tail : List (Reading UInt8)) : ∃ script, Answers (performPart part) script tail := by
  obtain ⟨sent, hsent, htail⟩ :=
    exists_answers_performSendings (hpart.sends none (by rintro f ⟨⟩)) tail
  obtain ⟨script, hopened, hrest⟩ := exists_answers_performOpeners part.openers sent
  refine ⟨script, ?_⟩
  cases hresult : (performOpeners part.openers script).result with
  | error e =>
      rw [Answers, performPart_of_error hresult]
      exact ⟨hopened, by rintro ⟨⟩⟩
  | ok opened =>
      cases opened with
      | some err =>
          rw [Answers, performPart_of_some hresult]
          exact ⟨hopened, by rintro ⟨⟩⟩
      | none =>
          rw [Answers, performPart_of_none hresult, hrest hresult]
          exact ⟨hopened.append hsent, htail⟩

lemma exists_acksEvery_performUpload {parts : List Part}
    (hparts : ∀ part ∈ parts, part.WellFormed must) (stages : List Stage) :
    ∃ script, AcksEvery (performUpload parts stages script).trace := by
  induction parts generalizing stages with
  | nil => exact ⟨[], trivial⟩
  | cons part parts ih =>
      obtain ⟨later, hlater⟩ := ih (fun q hq => hparts q (by simp [hq])) (stages ++ [part.stage])
      obtain ⟨script, hacks, hrest⟩ := exists_answers_performPart (hparts part (by simp)) later
      refine ⟨script, ?_⟩
      cases hresult : (performPart part script).result with
      | error e =>
          rw [performUpload_of_error parts stages hresult]
          exact hacks
      | ok verdict =>
          cases verdict with
          | some err =>
              rw [performUpload_of_some parts stages hresult]
              exact hacks
          | none =>
              rw [performUpload_of_none parts stages hresult, hrest hresult]
              exact hacks.append hlater

/-! ## Uploads -/

variable (profile : SoCProfile) (firmware : List UInt8) (splOverride : Option (List UInt8))

lemma blast_head_ne_nil {part : Part} (h : part ∈ uploadParts profile firmware splOverride)
    {head : List UInt8} {err : String} (hmem : .blast head err ∈ part.openers) : head ≠ [] := by
  have hstart : ∀ e, .blast head err = startOpener profile e → head ≠ [] := by
    intro e heq
    by_cases haddress : profile.ddrStepAddress < 2 ^ 32
    · rw [startOpener_of_lt haddress] at heq
      cases heq
      exact List.ne_nil_of_length_pos (by rw [length_headBytes]; omega)
    · rw [startOpener_of_not_lt haddress] at heq
      cases heq
  simp only [uploadParts, List.mem_cons, List.not_mem_nil, or_false] at h
  rcases h with rfl | rfl | rfl
  · simp only [ddrPart, List.mem_cons, reduceCtorEq, false_or] at hmem
    split_ifs at hmem
    · exact hstart _ (List.mem_singleton.mp hmem)
    · cases hmem
  · rw [splPart] at hmem
    cases himage : splImage profile firmware splOverride <;> simp [himage] at hmem
  · simp only [ubootPart, List.mem_cons, List.not_mem_nil, or_false, reduceCtorEq,
      false_or] at hmem
    split_ifs at hmem
    exact hstart _ hmem

/-- **There is a device that ACKs every frame of an upload.** -/
lemma exists_acksEvery :
    ∃ script, AcksEvery (sendFirmware (some profile) firmware splOverride script).trace := by
  rw [sendFirmware_eq_performUpload]
  exact exists_acksEvery_performUpload (uploadParts_wellFormed profile firmware splOverride) []

variable {profile firmware splOverride}

/-- **With a device that ACKs every frame, the whole plan is sent**, and the upload succeeds or
ends in an exception. -/
lemma sendFirmware_of_acksEvery {script : List (Reading UInt8)}
    (h : AcksEvery (sendFirmware (some profile) firmware splOverride script).trace) :
    (observed (sendFirmware (some profile) firmware splOverride script).trace).map Entry.key =
        plan profile firmware splOverride ∧
      ∀ r, (sendFirmware (some profile) firmware splOverride script).result = .ok r →
        r.success = true := by
  have hrecorded := sendFirmware_recorded profile firmware splOverride script
  have hsuccess : ∀ r, (sendFirmware (some profile) firmware splOverride script).result = .ok r →
      r.success = true := by
    intro r hr
    rw [sendFirmware_eq_performUpload] at h hr
    rw [← List.append_nil (performUpload _ _ _).trace] at h
    exact performUpload_of_acksEvery (fun part hpart =>
      ⟨uploadParts_wellFormed profile firmware splOverride part hpart, fun head err hmem =>
        blast_head_ne_nil profile firmware splOverride hpart hmem⟩) [] h hr
  refine ⟨?_, hsuccess⟩
  cases hresult : (sendFirmware (some profile) firmware splOverride script).result with
  | error e => exact (hrecorded.raised e hresult).1
  | ok r => exact (hrecorded.success r hresult (hsuccess r hresult)).1

end HiSiliconStandard
end Defib
