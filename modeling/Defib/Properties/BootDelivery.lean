import Defib.Framework.AckLink
import Defib.Properties.BootImages

/-!
# Uploads over a line that loses frames and ACKs

An upload against a bootrom on an `AckLink`: an ACK carries no sequence number, so that a late one
answers a frame the host has left behind.  As long as this does not happen, a successful upload has
brought every DATA frame to the bootrom (`delivered_of_timely`), whatever is lost on the way; when
it does, `late_ack_credits_lost_frame`, U-Boot may be missing.
-/

namespace Defib
open HiSiliconStandard

/-! ## The host on the line -/

/-- What a write is on the line.  The `0xAA` in front of a blast is not part of the frame, and
alone it is none. -/
def writeMove (bytes : List UInt8) : HostMove (List UInt8) :=
  if bytes.head? = some bootmodeAck then
    if bytes.tail = [] then .idle else .send bytes.tail
  else .send bytes

/-- What an event of the host is on the line. -/
def hostMove : HostEvent → HostMove (List UInt8)
  | .write bytes => writeMove bytes
  | .flush => .flush
  | .note _ => .idle
  | .read (.item b) => if b = ackByte then .takeAck else .hear
  | .read .timeout => .quiet
  | .read .expired => .idle

lemma hostMove_read_ne_send (r : Reading UInt8) (f : List UInt8) :
    hostMove (.read r) ≠ .send f := by
  cases r with
  | item b =>
      rw [hostMove]
      split <;> simp
  | timeout => simp [hostMove]
  | expired => simp [hostMove]

lemma writeMove_of_label {bytes : List UInt8} (h : frameLabel bytes ≠ .unknown) :
    writeMove bytes = .send bytes := by
  rw [writeMove, if_neg (head?_ne_of_label h)]

/-! ## One frame -/

/-- An attempt only reads, and ends with the ACK it got. -/
lemma awaitAck_events (script : List (Reading UInt8)) :
    (∀ e ∈ (awaitAck script).trace, ∃ r, e = .read r) ∧
      ((awaitAck script).result = .ok true → .read (.item ackByte) ∈ (awaitAck script).trace) := by
  change (∀ e ∈ (awaitAckLoop script).trace, ∃ r, e = .read r) ∧
    ((awaitAckLoop script).result = .ok true →
      .read (.item ackByte) ∈ (awaitAckLoop script).trace)
  induction script with
  | nil => exact ⟨by simp [awaitAckLoop], by rintro ⟨⟩⟩
  | cons r script ih =>
      cases r with
      | timeout => exact ⟨by simp [awaitAckLoop], by rintro ⟨⟩⟩
      | expired => exact ⟨by simp [awaitAckLoop], by rintro ⟨⟩⟩
      | item b =>
          rw [awaitAckLoop]
          split
          · rename_i hb
            exact ⟨by simp, fun _ => by simp [hb]⟩
          · refine ⟨fun e he => ?_, fun h => ?_⟩
            · rw [Scripted.Outcome.cons_trace, List.mem_cons] at he
              rcases he with rfl | he
              · exact ⟨_, rfl⟩
              · exact ih.1 e he
            · exact List.mem_cons_of_mem _ (ih.2 h)

/-- The moves of a host that sends a frame. -/
lemma sendFrameWithRetry_moves {bytes : List UInt8} (hlabel : frameLabel bytes ≠ .unknown)
    (retries : ℕ) (script : List (Reading UInt8)) :
    (∀ g, .send g ∈ (sendFrameWithRetry bytes retries script).trace.map hostMove → g = bytes) ∧
      ((sendFrameWithRetry bytes retries script).result = .ok true →
        ∃ ms, (sendFrameWithRetry bytes retries script).trace.map hostMove =
          .flush :: .send bytes :: ms ∧ .takeAck ∈ ms) := by
  induction retries generalizing script with
  | zero => exact ⟨by simp [sendFrameWithRetry, Scripted.pure_apply], by rintro ⟨⟩⟩
  | succ n ih =>
      obtain ⟨hreads, hack⟩ := awaitAck_events script
      have hsends : ∀ g, .send g ∉ (awaitAck script).trace.map hostMove := by
        intro g hg
        obtain ⟨e, he, heq⟩ := List.mem_map.mp hg
        obtain ⟨r, rfl⟩ := hreads e he
        exact hostMove_read_ne_send r g heq
      obtain ⟨acked, hresult, -⟩ := foldl_awaitAck script .ddrInit
        (e := ⟨.ddrInit, [], false⟩) rfl []
      rw [sendFrameWithRetry, Scripted.flush_bind_apply, Scripted.write_bind_apply,
        Scripted.bind_of_ok hresult]
      simp only [Scripted.Outcome.cons_trace, Scripted.Outcome.cons_result,
        Scripted.Outcome.prepend_trace, Scripted.Outcome.prepend_result, List.map_cons,
        List.map_append, hostMove, writeMove_of_label hlabel]
      cases acked with
      | true =>
          refine ⟨fun g hg => ?_, fun _ => ⟨_, rfl, ?_⟩⟩
          · simpa [Scripted.pure_apply, hsends g] using hg
          · rw [List.mem_append, List.mem_map]
            exact .inl ⟨_, hack hresult, by simp [hostMove]⟩
      | false =>
          obtain ⟨hsend, hacked⟩ := ih (awaitAck script).rest
          refine ⟨fun g hg => ?_, fun h => ⟨_, rfl, ?_⟩⟩
          · simp only [List.mem_cons, reduceCtorEq, false_or, HostMove.send.injEq,
              List.mem_append, hsends g] at hg
            rcases hg with hg | hg
            · exact hg
            · exact hsend g hg
          · obtain ⟨ms, heq, hmem⟩ := hacked h
            rw [List.mem_append]
            refine .inr ?_
            change HostMove.takeAck ∈ (sendFrameWithRetry bytes n _).trace.map hostMove
            rw [heq]
            simp [hmem]

/-! ## Parts -/

/-- Every DATA frame is insisted on, and comes right after another frame that is. -/
def Linked : Option (List UInt8) → List Sending → Prop
  | _, [] => True
  | prev, .frame bytes _ fatal :: ss =>
      frameLabel bytes ≠ .unknown ∧
      (frameLabel bytes = .data → fatal.isSome = true ∧ ∃ a, prev = some a ∧ a ≠ bytes) ∧
        Linked (if fatal.isSome then some bytes else none) ss
  | _, .raise _ :: _ => True

variable {accepts : List (List UInt8) → List UInt8 → Bool} {l l' : AckLink (List UInt8)}

/-- A frame that was not the last one accepted before and is now, was accepted since. -/
lemma sublist_of_confirmed {sent : List (List UInt8)} {a f : List UInt8} (hne : a ≠ f)
    (hinit : l.accepted <+: l'.accepted) (ha : l.Confirmed a) (hf : l'.Confirmed f)
    (hsent : sent.Sublist l.accepted) : (sent ++ [f]).Sublist l'.accepted := by
  obtain ⟨more, hmore⟩ := hinit
  have hlast := hf.accepted
  rw [← hmore] at hlast
  rcases List.eq_nil_or_concat more with rfl | ⟨more, g, rfl⟩
  · rw [List.append_nil, ha.accepted] at hlast
    exact absurd (Option.some.inj hlast) hne
  · have hg : g = f := by simpa using hlast
    subst hg
    rw [← hmore, List.concat_eq_append, ← List.append_assoc]
    exact (hsent.trans (List.sublist_append_left _ _)).append (List.Sublist.refl _)

/-- A frame is passed if it was ACKed, or if its ACK does not matter. -/
lemma acked_or_ignored {bytes : List UInt8} {retries : ℕ} {fatal : Option String}
    {ss : List Sending} {script : List (Reading UInt8)} {acked : Bool}
    (h : (sendFrameWithRetry bytes retries script).result = .ok acked)
    (hok : (performSendings (.frame bytes retries fatal :: ss) script).result = .ok none) :
    acked = true ∨ fatal = none := by
  by_contra hno
  push Not at hno
  obtain ⟨err, rfl⟩ := Option.ne_none_iff_exists'.mp hno.2
  have hacked : acked = false := by simpa using hno.1
  subst hacked
  rw [performSendings_frame_failed h] at hok
  cases hok

/-- **The frames of a part.**  A run that passes has brought its DATA frames over. -/
lemma performSendings_delivered {ss : List Sending} {prev : Option (List UInt8)}
    (hlinked : Linked prev ss) (hretries : ∀ b fatal, .frame b 0 fatal ∉ ss)
    {script : List (Reading UInt8)} (hok : (performSendings ss script).result = .ok none)
    (h : AckLink.Passes accepts ((performSendings ss script).trace.map hostMove) l l')
    (hl : l.Settled) (hprev : ∀ a ∈ prev, l.Confirmed a) {sent : List (List UInt8)}
    (hsent : sent.Sublist l.accepted) :
    l'.Settled ∧ (sent ++ dataOf (sentFrames ss)).Sublist l'.accepted := by
  induction ss generalizing prev l sent script with
  | nil =>
      obtain ⟨hl', hinit⟩ := h.settled hl
      exact ⟨hl', by simpa [sentFrames, dataOf] using hsent.trans hinit.sublist⟩
  | cons s ss ih =>
      cases s with
      | raise e => cases hok
      | frame bytes retries fatal =>
          obtain ⟨hlabel, hdata, hrest⟩ := hlinked
          have hpos : 0 < retries := by
            rcases Nat.eq_zero_or_pos retries with rfl | hpos
            · exact absurd (List.mem_cons_self) (hretries bytes fatal)
            · exact hpos
          obtain ⟨acked, hresult⟩ := sendFrameWithRetry_result hlabel hpos script
          obtain ⟨hsend, hack⟩ := sendFrameWithRetry_moves hlabel retries script
          have hgo := acked_or_ignored hresult hok
          rw [performSendings_frame_passed hresult hgo] at hok h
          rw [Scripted.Outcome.prepend_trace, List.map_append] at h
          obtain ⟨m, hfirst, hnext⟩ := h.split
          obtain ⟨hm, hinit⟩ := hfirst.settled hl
          have hconfirmed : acked = true → m.Confirmed bytes := by
            rintro rfl
            obtain ⟨ms, hmoves, hmem⟩ := hack hresult
            rw [hmoves] at hfirst hsend
            exact hfirst.confirmed hl (fun g hg => hsend g (by simp [hg])) hmem
          have hprev' : ∀ a ∈ (if fatal.isSome then some bytes else none), m.Confirmed a := by
            intro a ha
            split at ha
            · rename_i hsome
              cases ha
              refine hconfirmed (hgo.resolve_right fun hnone => ?_)
              rw [hnone] at hsome
              cases hsome
            · cases ha
          have hretries' : ∀ b fatal, .frame b 0 fatal ∉ ss := fun b fatal hmem =>
            hretries b fatal (by simp [hmem])
          by_cases hlabel' : frameLabel bytes = .data
          · obtain ⟨hsome, a, rfl, hne⟩ := hdata hlabel'
            have hf := hconfirmed (hgo.resolve_right fun hnone => by simp [hnone] at hsome)
            have hsent' := sublist_of_confirmed hne hinit (hprev a rfl) hf hsent
            obtain ⟨hl', hall⟩ := ih hrest hretries' hok hnext hm hprev' hsent'
            refine ⟨hl', ?_⟩
            rw [sentFrames, dataOf, List.filter_cons_of_pos (by simpa using hlabel')]
            simpa [dataOf] using hall
          · obtain ⟨hl', hall⟩ :=
              ih hrest hretries' hok hnext hm hprev' (hsent.trans hinit.sublist)
            refine ⟨hl', ?_⟩
            rw [sentFrames, dataOf, List.filter_cons_of_neg (by simpa using hlabel')]
            exact hall

/-- **A part.** -/
lemma performPart_delivered {part : Part} (hlinked : Linked none part.sendings)
    (hretries : ∀ b fatal, .frame b 0 fatal ∉ part.sendings) (hraises : part.raises = false)
    {script : List (Reading UInt8)} (hok : (performPart part script).result = .ok none)
    (h : AckLink.Passes accepts ((performPart part script).trace.map hostMove) l l')
    (hl : l.Settled) {sent : List (List UInt8)} (hsent : sent.Sublist l.accepted) :
    l'.Settled ∧ (sent ++ dataOf part.frames).Sublist l'.accepted := by
  have hframes : part.frames = sentFrames part.sendings := by
    rw [Part.frames, (Bool.or_eq_false_iff.mp hraises).1]
    rfl
  cases hresult : (performOpeners part.openers script).result with
  | error e =>
      rw [performPart_of_error hresult] at hok
      cases hok
  | ok opened =>
      cases opened with
      | some err =>
          rw [performPart_of_some hresult] at hok
          cases hok
      | none =>
          rw [performPart_of_none hresult] at hok h
          rw [Scripted.Outcome.prepend_trace, List.map_append] at h
          obtain ⟨m, hfirst, hnext⟩ := h.split
          obtain ⟨hm, hinit⟩ := hfirst.settled hl
          rw [hframes]
          exact performSendings_delivered hlinked hretries hok hnext hm (by rintro a ⟨⟩)
            (hsent.trans hinit.sublist)

lemma performUpload_delivered {parts : List Part}
    (hlinked : ∀ part ∈ parts, Linked none part.sendings)
    (hretries : ∀ part ∈ parts, ∀ b fatal, .frame b 0 fatal ∉ part.sendings)
    (hraises : ∀ part ∈ parts, part.raises = false) (stages : List Stage)
    {script : List (Reading UInt8)} {r : RecoveryResult}
    (hr : (performUpload parts stages script).result = .ok r) (hsuccess : r.success = true)
    (h : AckLink.Passes accepts ((performUpload parts stages script).trace.map hostMove) l l')
    (hl : l.Settled) {sent : List (List UInt8)} (hsent : sent.Sublist l.accepted) :
    (sent ++ dataOf ((planOf parts).map Prod.snd)).Sublist l'.accepted := by
  induction parts generalizing stages script l sent with
  | nil =>
      obtain ⟨-, hinit⟩ := h.settled hl
      simpa [planOf, dataOf] using hsent.trans hinit.sublist
  | cons part parts ih =>
      cases hresult : (performPart part script).result with
      | error e =>
          rw [performUpload_of_error parts stages hresult] at hr
          cases hr
      | ok verdict =>
          cases verdict with
          | some err =>
              rw [performUpload_of_some parts stages hresult] at hr
              cases hr
              cases hsuccess
          | none =>
              rw [performUpload_of_none parts stages hresult] at hr h
              rw [Scripted.Outcome.prepend_trace, List.map_append] at h
              obtain ⟨m, hfirst, hnext⟩ := h.split
              have hpart := hraises part (by simp)
              obtain ⟨hm, hsent'⟩ := performPart_delivered (hlinked part (by simp))
                (hretries part (by simp)) hpart hresult hfirst hl hsent
              have hall := ih (fun q hq => hlinked q (by simp [hq]))
                (fun q hq => hretries q (by simp [hq])) (fun q hq => hraises q (by simp [hq]))
                _ hr hnext hm hsent'
              have hplan : (planOf (part :: parts)).map Prod.snd =
                  part.frames ++ (planOf parts).map Prod.snd := by
                rw [planOf, if_neg (by simp [hpart]), List.map_append]
                simp [Part.plan]
              rw [hplan, dataOf_append, ← List.append_assoc]
              exact hall

/-! ## The parts of an upload -/

lemma retries_ne_zero_of_wellFormed {must : Stage → List UInt8 → Bool} {stage : Stage}
    {prev : Option (List UInt8)} {ss : List Sending} (hwf : WellFormed must stage prev ss) :
    (∀ b fatal, .frame b 0 fatal ∉ ss) ∨ ss.any Sending.raises = true := by
  induction ss generalizing prev with
  | nil => exact .inl (by simp)
  | cons s ss ih =>
      cases s with
      | raise e => exact .inr rfl
      | frame bytes retries fatal =>
          obtain ⟨hpos, -, -, -, hrest⟩ := hwf
          rcases ih hrest with hss | hraises
          · refine .inl fun b f hmem => ?_
            rcases List.mem_cons.mp hmem with heq | hmem
            · cases heq
              exact absurd hpos (by omega)
            · exact hss b f hmem
          · exact .inr (by simp [hraises])

lemma linked_dataSendings_append (err : String) {ss : List Sending} (hss : ∀ prev, Linked prev ss)
    (seq : ℕ) (chunks : List (List UInt8)) {prev : List UInt8}
    (hprev : ∀ c, prev ≠ dataFrame seq c) :
    Linked (some prev) (dataSendings err seq chunks ++ ss) := by
  induction chunks generalizing seq prev with
  | nil => exact hss _
  | cons c cs ih =>
      refine ⟨by simp [frameLabel_dataFrame], fun _ => ⟨rfl, prev, rfl, hprev c⟩, ?_⟩
      exact ih (seq + 1) (dataFrame_ne_succ seq c)

lemma linked_transferSendings_append (length address : ℕ) (chunks : List (List UInt8))
    (headRetries : ℕ) (headErr dataErr : String) (tailErr : Option String) {ss : List Sending}
    (hss : ∀ prev, Linked prev ss) (prev : Option (List UInt8)) :
    Linked prev
      (transferSendings length address chunks headRetries headErr dataErr tailErr ++ ss) := by
  have htail : ∀ prev, Linked prev
      (.frame (tailFrame (chunks.length + 1)) frameSendRetriesShort tailErr :: ss) := fun prev =>
    ⟨by simp [frameLabel_tailFrame], by simp [frameLabel_tailFrame], hss _⟩
  rw [transferSendings, List.cons_append, List.append_assoc]
  by_cases h : length < 2 ^ 32 ∧ address < 2 ^ 32
  · rw [headSending_of_lt h]
    refine ⟨by simp [frameLabel_headBytes], by simp [frameLabel_headBytes], ?_⟩
    exact linked_dataSendings_append dataErr htail 1 chunks fun c =>
      headBytes_ne_of_label (by simp [frameLabel_dataFrame])
  · rw [headSending_of_not_lt h]
    trivial

lemma linked_transferSendings (length address : ℕ) (chunks : List (List UInt8))
    (headRetries : ℕ) (headErr dataErr : String) (tailErr : Option String)
    (prev : Option (List UInt8)) :
    Linked prev (transferSendings length address chunks headRetries headErr dataErr tailErr) := by
  have hnil : ∀ prev, Linked prev [] := fun _ => trivial
  rw [← List.append_nil (transferSendings _ _ _ _ _ _ _)]
  exact linked_transferSendings_append _ _ _ _ _ _ _ hnil prev

lemma linked_of_mem_uploadParts {profile : SoCProfile} {firmware : List UInt8}
    {splOverride : Option (List UInt8)} {part : Part}
    (h : part ∈ uploadParts profile firmware splOverride) : Linked none part.sendings := by
  simp only [uploadParts, List.mem_cons, List.not_mem_nil, or_false] at h
  rcases h with rfl | rfl | rfl
  · have hprestep1 : ∀ prev, Linked prev (prestep1Sendings profile) := by
      intro prev
      rw [prestep1Sendings]
      cases profile.prestep1Data with
      | none => trivial
      | some prestep1 => exact linked_transferSendings _ _ _ _ _ _ _ prev
    have hddr := linked_transferSendings_append 64 profile.ddrStepAddress [profile.ddrStepData]
      frameSendRetriesShort ("DDRSTEP0" ++ " HEAD frame not ACKed")
      ("DDRSTEP0" ++ " DATA frame not ACKed") none hprestep1
    rw [ddrPart, prestep0Sendings]
    cases profile.prestepData with
    | none => exact hddr none
    | some prestep => exact linked_transferSendings_append _ _ _ _ _ _ _ hddr none
  · rw [splPart]
    cases splImage profile firmware splOverride with
    | error e => trivial
    | ok image => exact linked_transferSendings _ _ _ _ _ _ _ none
  · exact linked_transferSendings _ _ _ _ _ _ _ none

/-! ## Uploads -/

/-- **A successful upload over a timely line has brought every DATA frame to the bootrom**, in
their order: those of the DDR steps, of the SPL and of U-Boot. -/
theorem delivered_of_timely (accepts : List (List UInt8) → List UInt8 → Bool)
    (profile : SoCProfile) (firmware : List UInt8) (splOverride : Option (List UInt8))
    (script : List (Reading UInt8)) (steps : List (LinkStep (List UInt8)))
    (link : AckLink (List UInt8)) (r : RecoveryResult)
    (hhost : AckLink.hostMoves steps =
      (sendFirmware (some profile) firmware splOverride script).trace.map hostMove)
    (hexec : AckLink.empty.exec accepts steps = some link)
    (htimely : AckLink.empty.Timely accepts steps)
    (hr : (sendFirmware (some profile) firmware splOverride script).result = .ok r)
    (hsuccess : r.success = true) :
    (dataOf ((plan profile firmware splOverride).map Prod.snd)).Sublist link.accepted := by
  have hraises := ((sendFirmware_recorded profile firmware splOverride script).success r hr
    hsuccess).2.1
  have hretries : ∀ part ∈ uploadParts profile firmware splOverride,
      ∀ b fatal, .frame b 0 fatal ∉ part.sendings := by
    intro part hpart
    have hwf := (uploadParts_wellFormed profile firmware splOverride part hpart).sends none
      (by rintro f ⟨⟩)
    refine (retries_ne_zero_of_wellFormed hwf).resolve_right fun hraise => ?_
    have hnot := (Bool.or_eq_false_iff.mp (hraises part hpart)).2
    rw [hraise] at hnot
    cases hnot
  rw [sendFirmware_eq_performUpload] at hhost hr
  have hpasses : AckLink.Passes accepts _ AckLink.empty link := ⟨steps, hhost, hexec, htimely⟩
  have hall := performUpload_delivered (fun part hpart => linked_of_mem_uploadParts hpart) hretries
    hraises [] hr hsuccess hpasses AckLink.settled_empty (List.nil_sublist _)
  rwa [List.nil_append, planOf_uploadParts] at hall

/-! ## A bootrom that insists on the sequence -/

/-- The number of the frame a bootrom waits for, if a transfer is open. -/
def awaited (accepted : List (List UInt8)) : Option ℕ :=
  accepted.foldl (fun seq f =>
    match frameLabel f with
    | .head => some 1
    | .data => seq.map (· + 1)
    | .tail => none
    | .unknown => seq) none

/-- A bootrom that accepts the frames of a transfer strictly in sequence. -/
def inSequence (accepted : List (List UInt8)) (f : List UInt8) : Bool :=
  match awaited accepted, frameLabel f with
  | none, .head => true
  | some seq, .data => f.getD 1 0 = UInt8.ofNat seq
  | some seq, .tail => f.getD 1 0 = UInt8.ofNat seq
  | _, _ => false

/-- A frame that arrives and is answered at once. -/
def answered (f : List UInt8) : List (LinkStep (List UInt8)) :=
  [.host .flush, .host (.send f), .link .deliver, .link .arrive, .host .takeAck]

/-- The DDR step and the SPL of a firmware of one byte, with every frame answered at once. -/
def throughSpl : List (LinkStep (List UInt8)) :=
  .host .idle ::
    ((transferFrames 64 0x04013000 [SoCProfile.gk7205v200.ddrStepData]).flatMap answered ++
      (.host .quiet :: .host .idle ::
        ((transferFrames 0x6000 0x04010500 [[0x00]]).flatMap answered ++
          [.host .idle, .host .quiet])))

/-- What the host reads meanwhile. -/
def readThroughSpl : List (Reading UInt8) :=
  List.replicate 3 (.item ackByte) ++
    (.timeout :: (List.replicate 3 (.item ackByte) ++ [.timeout]))

/-- The rest of that upload.  The HEAD frame is lost, and so is the first ACK of the DATA frame:
both are sent again. -/
def retriedUboot : List (LinkStep (List UInt8)) :=
  [.host .flush, .host (.send (headBytes 1 0x41000000)), .link .loseFrame, .host .quiet] ++
    answered (headBytes 1 0x41000000) ++
    [.host .flush, .host (.send (dataFrame 1 [0x00])), .link .deliver, .link .loseAck,
      .host .quiet] ++
    answered (dataFrame 1 [0x00]) ++ answered (tailFrame 2) ++ [.host .idle]

/-- What the host reads meanwhile. -/
def readRetriedUboot : List (Reading UInt8) :=
  [.timeout, .item ackByte, .timeout, .item ackByte, .item ackByte]

/-- An upload with a lost frame and a lost ACK, against a bootrom that insists on the sequence. -/
theorem delivered_of_timely_gk7205v200 :
    ∃ link r,
      AckLink.empty.exec inSequence (throughSpl ++ retriedUboot) = some link ∧
      (sendFirmware (some .gk7205v200) [0x00] none
        (readThroughSpl ++ readRetriedUboot)).result = .ok r ∧ r.success = true ∧
      (dataOf ((plan .gk7205v200 [0x00] none).map Prod.snd)).Sublist link.accepted := by
  have hexec : ∃ link, AckLink.empty.exec inSequence (throughSpl ++ retriedUboot) = some link :=
    Option.isSome_iff_exists.mp (by decide +kernel)
  obtain ⟨link, hlink⟩ := hexec
  refine ⟨link, ⟨true, [.ddrInit, .spl, .uboot, .complete], none⟩, hlink, by decide +kernel, rfl,
    ?_⟩
  exact delivered_of_timely inSequence .gk7205v200 [0x00] none
    (readThroughSpl ++ readRetriedUboot) (throughSpl ++ retriedUboot) link
    ⟨true, [.ddrInit, .spl, .uboot, .complete], none⟩ (by decide +kernel) hlink (by decide +kernel)
    (by decide +kernel) rfl

/-- The rest of that upload when the ACK of the HEAD frame comes after the host has sent it again.
The bootrom answers both; the host takes the first answer for the HEAD frame and the second for
the DATA frame, which is lost, and does not care that no TAIL is answered. -/
def lateUboot : List (LinkStep (List UInt8)) :=
  [.host .flush, .host (.send (headBytes 1 0x41000000)), .link .deliver, .host .quiet] ++
    answered (headBytes 1 0x41000000) ++
    [.host .flush, .host (.send (dataFrame 1 [0x00])), .link .loseFrame, .link .arrive,
      .host .takeAck] ++
    (List.replicate 16
      [.host .flush, .host (.send (tailFrame 2)), .link .loseFrame, .host .quiet]).flatten ++
    [.host .idle]

/-- What the host reads meanwhile. -/
def readLateUboot : List (Reading UInt8) :=
  [.timeout, .item ackByte, .item ackByte] ++ List.replicate 16 .timeout

/-- **A late ACK passes for that of a lost frame.**  The upload succeeds, and the bootrom has
nothing of U-Boot. -/
theorem late_ack_credits_lost_frame :
    ∃ link,
      AckLink.hostMoves (throughSpl ++ lateUboot) =
        (sendFirmware (some .gk7205v200) [0x00] none
          (readThroughSpl ++ readLateUboot)).trace.map hostMove ∧
      AckLink.empty.exec inSequence (throughSpl ++ lateUboot) = some link ∧
      (sendFirmware (some .gk7205v200) [0x00] none (readThroughSpl ++ readLateUboot)).result =
        .ok ⟨true, [.ddrInit, .spl, .uboot, .complete], none⟩ ∧
      ¬ (dataOf ((plan .gk7205v200 [0x00] none).map Prod.snd)).Sublist link.accepted := by
  have hexec : (AckLink.empty.exec inSequence (throughSpl ++ lateUboot)).map AckLink.accepted =
      some (transferFrames 64 0x04013000 [SoCProfile.gk7205v200.ddrStepData] ++
        transferFrames 0x6000 0x04010500 [[0x00]] ++ [headBytes 1 0x41000000]) := by
    decide +kernel
  obtain ⟨link, hlink, haccepted⟩ := Option.map_eq_some_iff.mp hexec
  refine ⟨link, by decide +kernel, hlink, by decide +kernel, ?_⟩
  rw [haccepted]
  decide +kernel

end Defib
