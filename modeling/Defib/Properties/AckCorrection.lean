import Mathlib.Data.List.Chain
import Defib.Boot.Session
import Defib.Properties.BootWire

/-!
# Sessions over the transport for macOS

On macOS the transport turns every `0x55` that is read into `0xAA`, in all phases of a session: a
frame that the device rejects counts as accepted.

`macOS_same_iff` says when a session writes the same and has the same result as over the plain
transport: when no `0x55` is read in a place that decides (`NoNak`), which is an answer to a frame
of a transfer, or what is read while U-Boot starts.  In a board ID answer of the CV6xx the byte
that confirms it is such a place too.  There the runs part, but they may come to the same by
accident; the other places are exact.

The proof follows a session through its programs (`Settled`).  Up to the first `0x55` in a place
that decides, both runs are alike (`Alike`), and there they part: after a frame the plain run
writes that frame again, and the other one goes on (`settled_frame`).
-/

namespace Defib

open Scripted

/-! ## What a session waits for -/

/-- What a session waits for, as its last write tells, and what it has read since. -/
inductive Waiting
  | nothing
  | answer
  | boardId (buf : List UInt8)
  | prompt
  deriving DecidableEq, Repr

namespace Waiting

/-- What is waited for after a write. -/
def expects (bytes : List UInt8) : Waiting :=
  if frameLabel bytes ≠ .unknown then .answer
  else if bytes.head? = some 0xCE then .boardId []
  else if bytes = ctrlC then .prompt
  else .nothing

def next : Waiting → HostEvent → Waiting
  | _, .write bytes => expects bytes
  | .answer, .read (.item b) => if b = ackByte then .nothing else .answer
  | .boardId buf, .read (.item b) => .boardId (buf ++ [b])
  | w, _ => w

/-- Is the next byte the one that confirms a board ID? -/
def isCheck : Waiting → Bool
  | .boardId buf => buf.contains 0xCE && buf.length == buf.idxOf 0xCE + 10
  | _ => false

/-- Does the next byte decide how the session goes on, or is it part of its result? -/
def decides : Waiting → Bool
  | .answer => true
  | .prompt => true
  | w => w.isCheck

end Waiting

/-- No NAK is read in these places. -/
def NoNak (place : Waiting → Bool) : Waiting → List HostEvent → Prop
  | _, [] => True
  | w, e :: es => (e = .read (.item nakByte) → place w = false) ∧ NoNak place (w.next e) es

instance decidableNoNak (place : Waiting → Bool) :
    (w : Waiting) → (es : List HostEvent) → Decidable (NoNak place w es)
  | _, [] => inferInstanceAs (Decidable True)
  | w, e :: es =>
      have := decidableNoNak place (w.next e) es
      inferInstanceAs (Decidable ((_ → _) ∧ _))

section

variable {place : Waiting → Bool} {w : Waiting}

lemma noNak_append {es es' : List HostEvent} :
    NoNak place w (es ++ es') ↔
      NoNak place w es ∧ NoNak place (es.foldl Waiting.next w) es' := by
  induction es generalizing w with
  | nil => exact ⟨fun h => ⟨trivial, h⟩, fun h => h.2⟩
  | cons e es ih => rw [List.cons_append, NoNak, ih, NoNak, List.foldl_cons, and_assoc]

lemma noNak_cons_write {bytes : List UInt8} {es : List HostEvent} :
    NoNak place w (.write bytes :: es) ↔ NoNak place (Waiting.expects bytes) es :=
  and_iff_right (by rintro ⟨⟩)

lemma noNak_cons_flush {es : List HostEvent} :
    NoNak place w (.flush :: es) ↔ NoNak place w es := by
  rw [NoNak, and_iff_right (by rintro ⟨⟩)]
  cases w <;> rfl

/-- The end of a read is no NAK. -/
lemma noNak_singleton {x : Reading UInt8} (h : x ≠ .item nakByte) : NoNak place w [.read x] :=
  ⟨fun he => absurd (Event.read.inj he) h, trivial⟩

end

/-! ## A script that was corrected -/

/-- What is read on macOS. -/
def corrected (script : List (Reading UInt8)) : List (Reading UInt8) :=
  script.map (Reading.map correctAck)

lemma corrected_item (b : UInt8) (script : List (Reading UInt8)) :
    corrected (.item b :: script) = .item (correctAck b) :: corrected script := rfl

lemma correctAck_of_ne {b : UInt8} (h : b ≠ nakByte) : correctAck b = b := if_neg h

lemma correctAck_ne (b : UInt8) : correctAck b ≠ nakByte := by
  by_cases h : b = 0x55
  · rw [correctAck, if_pos h]
    decide
  · rw [correctAck, if_neg h]
    exact h

/-- Bytes other than the two are kept, and come from nothing else. -/
lemma correctAck_eq_iff {b c : UInt8} (hnak : c ≠ 0x55) (hack : c ≠ 0xAA) :
    correctAck b = c ↔ b = c := by
  by_cases h : b = 0x55
  · rw [correctAck, if_pos h, h]
    exact iff_of_false hack.symm hnak.symm
  · rw [correctAck, if_neg h]

/-- The same writes and the same result on the script that was corrected. -/
def SameUnder {α : Type} (p : Host α) (script : List (Reading UInt8)) : Prop :=
  writes (p (corrected script)).trace = writes (p script).trace ∧
    (p (corrected script)).result = (p script).result

lemma writes_map_mapRead (es : List HostEvent) :
    writes (es.map (Event.mapRead correctAck)) = writes es := by
  induction es with
  | nil => rfl
  | cons e es ih =>
      cases e with
      | write bytes => exact congrArg (bytes :: ·) ih
      | flush => exact ih
      | read r => exact ih
      | note n => exact ih

/-- Runs that begin alike are the same if they go on the same. -/
lemma sameUnder_iff_of_prepend {α : Type} {p q : Host α}
    {script rest : List (Reading UInt8)} {es : List HostEvent}
    (h : p script = (q rest).prepend es)
    (h' : p (corrected script) =
      (q (corrected rest)).prepend (es.map (Event.mapRead correctAck))) :
    SameUnder p script ↔ SameUnder q rest := by
  rw [SameUnder, SameUnder, h, h', Outcome.prepend_trace, Outcome.prepend_trace, writes_append,
    writes_append, writes_map_mapRead, List.append_cancel_left_eq, Outcome.prepend_result,
    Outcome.prepend_result]

/-! ## Programs of a session -/

/-- **A program, from a place in a session on.**  Without a NAK that decides, it comes to the same
on the script that was corrected, and with one it does not; the second part may leave out the runs
in which the byte that confirms a board ID is a NAK. -/
structure Settled {α : Type} (leaveOut : Prop) (w : Waiting) (p : Host α)
    (script : List (Reading UInt8)) : Prop where
  same : NoNak Waiting.decides w (p script).trace → SameUnder p script
  noNak : (leaveOut → NoNak Waiting.isCheck w (p script).trace) → SameUnder p script →
    NoNak Waiting.decides w (p script).trace

section

variable {α β : Type} {leaveOut : Prop} {w : Waiting} {script : List (Reading UInt8)}

/-- Both runs begin alike, and then a settled program follows. -/
lemma Settled.of_prepend {p q : Host α} {rest : List (Reading UInt8)} {t : List HostEvent}
    (h : p script = (q rest).prepend t)
    (h' : p (corrected script) =
      (q (corrected rest)).prepend (t.map (Event.mapRead correctAck)))
    (ht : (leaveOut → NoNak Waiting.isCheck w t) → NoNak Waiting.decides w t)
    (hq : Settled leaveOut (t.foldl Waiting.next w) q rest) : Settled leaveOut w p script := by
  constructor
  · intro hno
    rw [h, Outcome.prepend_trace, noNak_append] at hno
    exact (sameUnder_iff_of_prepend h h').mpr (hq.same hno.2)
  · intro hcheck hsame
    rw [h, Outcome.prepend_trace, noNak_append] at hcheck
    rw [h, Outcome.prepend_trace, noNak_append]
    exact ⟨ht fun hl => (hcheck hl).1,
      hq.noNak (fun hl => (hcheck hl).2) ((sameUnder_iff_of_prepend h h').mp hsame)⟩

/-- A program that does nothing on the line. -/
lemma Settled.of_silent {p : Host α} (x : Except String α)
    (h : ∀ script, p script = ⟨x, script, []⟩) : Settled leaveOut w p script := by
  constructor
  · intro _
    rw [SameUnder, h, h]
    exact ⟨rfl, rfl⟩
  · intro _ _
    rw [h]
    trivial

lemma Settled.pure (a : α) : Settled leaveOut w (pure a : Host α) script :=
  .of_silent (.ok a) fun _ => rfl

lemma Settled.raise (e : String) : Settled leaveOut w (raise e : Host α) script :=
  .of_silent (.error e) fun _ => rfl

/-- A computation that does not touch the line. -/
lemma Settled.lift_bind {x : Except String α} {k : α → Host β}
    (hk : ∀ a, Settled leaveOut w (k a) script) : Settled leaveOut w (lift x >>= k) script := by
  cases x with
  | error e => exact .raise e
  | ok a => exact hk a

/-- A write. -/
lemma Settled.write_bind {bytes : List UInt8} {k : Unit → Host α}
    (hk : Settled leaveOut (Waiting.expects bytes) (k ()) script) :
    Settled leaveOut w (Scripted.write bytes >>= k) script :=
  .of_prepend (q := k ()) (t := [.write bytes]) rfl rfl (fun _ => noNak_cons_write.mpr trivial) hk

/-- Discarded input. -/
lemma Settled.flush_bind {k : Unit → Host α} (hk : Settled leaveOut w (k ()) script) :
    Settled leaveOut w (flush >>= k) script := by
  refine .of_prepend (q := k ()) (t := [.flush]) rfl rfl
    (fun _ => noNak_cons_flush.mpr trivial) ?_
  cases w <;> exact hk

/-- **A program that runs alike, and what follows it.** -/
lemma Settled.bind {p : Host α} {k : α → Host β} {r : α → α → Prop}
    (hes : (leaveOut → NoNak Waiting.isCheck w (p script).trace) →
      NoNak Waiting.decides w (p script).trace)
    (halike : NoNak Waiting.decides w (p script).trace →
      Alike correctAck r (p script) (p (corrected script)))
    (hk : ∀ a b, r a b → k a = k b)
    (hrest : ∀ a, (p script).result = .ok a →
      Settled leaveOut ((p script).trace.foldl Waiting.next w) (k a) (p script).rest) :
    Settled leaveOut w (p >>= k) script := by
  obtain ⟨es, htrace⟩ := trace_bind p k script
  by_cases hno : NoNak Waiting.decides w (p script).trace
  · rcases (halike hno).bind hk with ⟨e, h, h'⟩ | ⟨a, hok, h, h'⟩
    · have hraise : (p >>= k) script =
          ((Scripted.raise e : Host β) (p script).rest).prepend (p script).trace := by
        rw [h, Outcome.prepend]
        simp [Scripted.raise]
      have hraise' : (p >>= k) (corrected script) =
          ((Scripted.raise e : Host β) (corrected (p script).rest)).prepend
            ((p script).trace.map (Event.mapRead correctAck)) := by
        rw [corrected, h', Outcome.prepend]
        simp [Scripted.raise, corrected]
      exact .of_prepend hraise hraise' (fun _ => hno) (.raise e)
    · exact .of_prepend h h' (fun _ => hno) (hrest a hok)
  · constructor
    · intro hall
      rw [htrace, noNak_append] at hall
      exact absurd hall.1 hno
    · intro hcheck
      rw [htrace] at hcheck
      exact absurd (hes fun hl => (noNak_append.mp (hcheck hl)).1) hno

end

/-! ## Frames -/

/-- What the program writes first, if it writes, is such a frame. -/
def NextWrite {α : Type} (q : List UInt8 → Prop) (p : Host α) : Prop :=
  ∀ script bytes, (writes (p script).trace).head? = some bytes → q bytes

section

variable {α β : Type} {q : List UInt8 → Prop}

lemma NextWrite.write_bind {bytes : List UInt8} (h : q bytes) (k : Unit → Host α) :
    NextWrite q (Scripted.write bytes >>= k) := by
  intro script bytes' hhead
  obtain rfl : bytes = bytes' := Option.some.inj hhead
  exact h

lemma NextWrite.flush_bind {k : Unit → Host α} (h : NextWrite q (k ())) :
    NextWrite q (flush >>= k) :=
  fun script bytes hhead => h script bytes hhead

lemma NextWrite.of_silent {p : Host α} (h : ∀ script, writes (p script).trace = []) :
    NextWrite q p := by
  intro script bytes hhead
  rw [h] at hhead
  cases hhead

lemma NextWrite.lift_bind {x : Except String α} {k : α → Host β} (h : ∀ a, NextWrite q (k a)) :
    NextWrite q (lift x >>= k) := by
  cases x with
  | error e => exact .of_silent fun _ => rfl
  | ok a => exact h a

/-- Behind a program that writes nothing. -/
lemma NextWrite.bind {p : Host α} {k : α → Host β} (hp : ∀ script, writes (p script).trace = [])
    (h : ∀ a, NextWrite q (k a)) : NextWrite q (p >>= k) := by
  intro script bytes hhead
  cases hresult : (p script).result with
  | error e =>
      rw [bind_of_error hresult, hp] at hhead
      cases hhead
  | ok a =>
      rw [bind_of_ok hresult, Outcome.prepend_trace, writes_append, hp, List.nil_append] at hhead
      exact h a _ bytes hhead

end

section

variable {maxRetries retries : ℕ}

/-- **The wait for an answer.**  Without a NAK both runs are alike, and with one the frame is
written again, while on the script that was corrected it is accepted. -/
lemma waitAckLoop_cases (data : List UInt8) (h : retries < maxRetries)
    (script : List (Reading UInt8)) :
    (NoNak Waiting.decides .answer (waitAckLoop data maxRetries retries script).trace ∧
      Alike correctAck Eq (waitAckLoop data maxRetries retries script)
        (waitAckLoop data maxRetries retries (corrected script)) ∧
      ∃ acked, (waitAckLoop data maxRetries retries script).result = .ok acked ∧
        (waitAckLoop data maxRetries retries script).trace.foldl Waiting.next .answer =
          if acked then .nothing else .answer) ∨
    (¬ NoNak Waiting.decides .answer (waitAckLoop data maxRetries retries script).trace ∧
      (writes (waitAckLoop data maxRetries retries script).trace).head? = some data ∧
      (waitAckLoop data maxRetries retries (corrected script)).result = .ok true ∧
      writes (waitAckLoop data maxRetries retries (corrected script)).trace = []) := by
  induction script with
  | nil =>
      rw [corrected, List.map_nil, waitAckLoop, if_pos h]
      exact .inl ⟨noNak_singleton (by decide), ⟨.ok rfl, rfl, rfl⟩, false, rfl, rfl⟩
  | cons r rest ih =>
      cases r with
      | timeout =>
          rw [corrected, List.map_cons, waitAckLoop, waitAckLoop.eq_def, if_pos h, if_pos h]
          exact .inl ⟨noNak_singleton (by decide), ⟨.ok rfl, rfl, rfl⟩, false, rfl, rfl⟩
      | expired =>
          rw [corrected, List.map_cons, waitAckLoop, waitAckLoop.eq_def, if_pos h, if_pos h]
          exact .inl ⟨noNak_singleton (by decide), ⟨.ok rfl, rfl, rfl⟩, false, rfl, rfl⟩
      | item b =>
          rw [corrected_item, waitAckLoop, waitAckLoop, if_pos h, if_pos h]
          by_cases hack : b = ackByte
          · subst hack
            exact .inl ⟨⟨fun he => absurd he (by decide), trivial⟩, ⟨.ok rfl, rfl, rfl⟩, true, rfl,
              rfl⟩
          by_cases hnak : b = nakByte
          · subst hnak
            refine .inr ⟨fun hno => absurd (hno.1 rfl) (by decide), ?_, ?_, ?_⟩
            · rw [if_neg hack, if_pos rfl]
              rfl
            · rw [if_pos (by decide)]
            · rw [if_pos (by decide)]
              rfl
          · have hkeep : correctAck b = b := correctAck_of_ne hnak
            have hnext : Waiting.next .answer (.read (.item b)) = .answer := if_neg hack
            rw [hkeep, if_neg hack, if_neg hack, if_neg hnak, if_neg hnak]
            rcases ih with ⟨hno, halike, acked, hresult, hafter⟩ | ⟨hno, hhead, hresult, hsilent⟩
            · refine .inl ⟨⟨fun he => ?_, ?_⟩, ?_, acked, hresult, ?_⟩
              · injection he with hr
                injection hr with hb
                exact absurd hb hnak
              · rw [hnext]
                exact hno
              · have hcons := halike.cons (.read (.item b))
                rw [Event.mapRead, Reading.map, hkeep] at hcons
                exact hcons
              · rw [Outcome.cons_trace, List.foldl_cons, hnext]
                exact hafter
            · refine .inr ⟨fun hall => hno ?_, hhead, hresult, hsilent⟩
              have htail := hall.2
              rw [hnext] at htail
              exact htail

lemma waitAck_apply (data : List UInt8) (maxRetries : ℕ) (script : List (Reading UInt8)) :
    waitAck data maxRetries script = waitAckLoop data maxRetries 0 script := rfl

variable {α : Type} {leaveOut : Prop} {w : Waiting} {script : List (Reading UInt8)}

/-- **A frame.**  What comes after it does not begin with this frame, so that the runs differ when
the frame is written again. -/
lemma settled_frame {frame : List UInt8} (hlabel : frameLabel frame ≠ .unknown)
    (hmax : 0 < maxRetries) {k : Bool → Host α} (hnext : NextWrite (· ≠ frame) (k true))
    (htrue : ∀ script, Settled leaveOut .nothing (k true) script)
    (hfalse : ∀ script, Settled leaveOut .answer (k false) script) :
    Settled leaveOut w (frameWaitAck maxRetries frame >>= k) script := by
  have hexpects : Waiting.expects frame = .answer := if_pos hlabel
  rw [frameWaitAck, bind_assoc]
  refine .write_bind ?_
  rw [hexpects]
  have hcases := waitAckLoop_cases frame hmax script
  simp only [← waitAck_apply] at hcases
  rcases hcases with ⟨hno, halike, acked, hresult, hafter⟩ | ⟨hno, hhead, hresult, hsilent⟩
  · refine .bind (fun _ => hno) (fun _ => halike) (fun a b hab => congrArg k hab) fun a ha => ?_
    obtain rfl := Except.ok.inj (hresult.symm.trans ha)
    rw [hafter]
    cases acked with
    | true => exact htrue _
    | false => exact hfalse _
  · obtain ⟨es, htrace⟩ := trace_bind (waitAck frame maxRetries) k script
    constructor
    · intro hall
      rw [htrace, noNak_append] at hall
      exact absurd hall.1 hno
    · intro _ hsame
      have hplain : (writes ((waitAck frame maxRetries >>= k) script).trace).head? =
          some frame := by
        rw [htrace, writes_append, List.head?_append, hhead]
        rfl
      rw [← hsame.1, bind_of_ok hresult, Outcome.prepend_trace, writes_append, hsilent,
        List.nil_append] at hplain
      exact absurd rfl (hnext _ _ hplain)

/-- **Frames one after the other.** -/
lemma settled_sendAll {frames : List (List UInt8)} (hne : frames ≠ [])
    (hlabel : ∀ frame ∈ frames, frameLabel frame ≠ .unknown) (hchain : frames.IsChain (· ≠ ·))
    (hmax : 0 < maxRetries) {k : Bool → Host α}
    (hnext : ∀ frame, frames.getLast? = some frame → NextWrite (· ≠ frame) (k true))
    (htrue : ∀ script, Settled leaveOut .nothing (k true) script)
    (hfalse : ∀ script, Settled leaveOut .answer (k false) script) :
    Settled leaveOut w (sendAll (frameWaitAck maxRetries) frames >>= k) script := by
  induction frames generalizing w script with
  | nil => exact absurd rfl hne
  | cons frame frames ih =>
      cases frames with
      | nil =>
          rw [sendAll_singleton]
          exact settled_frame (hlabel frame List.mem_cons_self) hmax (hnext frame rfl) htrue hfalse
      | cons frame' frames =>
          rw [List.isChain_cons_cons] at hchain
          rw [sendAll, bind_assoc]
          refine settled_frame (hlabel frame List.mem_cons_self) hmax ?_ (fun script => ?_) ?_
          · rw [if_pos rfl, sendAll, frameWaitAck, bind_assoc, bind_assoc]
            exact .write_bind (fun h => hchain.1 h.symm) _
          · rw [if_pos rfl]
            exact ih (List.cons_ne_nil _ _)
              (fun f hf => hlabel f (List.mem_cons_of_mem _ hf)) hchain.2 hnext
          · exact hfalse

end

/-! ## Transfers -/

lemma isChain_dataFrames (seq : ℕ) (chunks : List (List UInt8)) (count : ℕ) :
    (dataFrames seq chunks ++ [tailFrame count]).IsChain (· ≠ ·) := by
  induction chunks generalizing seq with
  | nil => exact List.isChain_singleton _
  | cons chunk chunks ih =>
      have hrest := ih (seq + 1)
      rw [dataFrames, List.cons_append]
      cases chunks with
      | nil =>
          refine List.isChain_cons_cons.mpr ⟨fun h => ?_, hrest⟩
          have hlabel := congrArg frameLabel h
          rw [frameLabel_dataFrame, frameLabel_tailFrame] at hlabel
          cases hlabel
      | cons chunk' chunks =>
          exact List.isChain_cons_cons.mpr
            ⟨HiSiliconStandard.dataFrame_ne_succ seq chunk chunk', hrest⟩

/-- No frame of a transfer follows itself. -/
lemma isChain_transferFrames (length address : ℕ) (chunks : List (List UInt8)) :
    (transferFrames length address chunks).IsChain (· ≠ ·) := by
  rw [transferFrames, List.isChain_cons]
  refine ⟨fun frame hframe => ?_, isChain_dataFrames 1 chunks _⟩
  refine headBytes_ne_of_label ?_
  cases chunks with
  | nil =>
      obtain rfl := Option.some.inj hframe
      rw [frameLabel_tailFrame]
      exact FrameLabel.noConfusion
  | cons chunk chunks =>
      obtain rfl := Option.some.inj hframe
      rw [frameLabel_dataFrame]
      exact FrameLabel.noConfusion

lemma frameLabel_of_mem_transferFrames {length address : ℕ} {chunks : List (List UInt8)}
    {frame : List UInt8} (h : frame ∈ transferFrames length address chunks) :
    frameLabel frame ≠ .unknown := by
  rcases mem_transferFrames h with rfl | ⟨n, c, rfl⟩ | ⟨n, rfl⟩
  · rw [frameLabel_headBytes]
    exact FrameLabel.noConfusion
  · rw [frameLabel_dataFrame]
    exact FrameLabel.noConfusion
  · rw [frameLabel_tailFrame]
    exact FrameLabel.noConfusion

section

variable {α : Type} {leaveOut : Prop} {w : Waiting} {script : List (Reading UInt8)}
  {maxRetries : ℕ} {data : List UInt8} {address : ℕ}

/-- **A transfer.**  What follows it does not begin with a TAIL frame. -/
lemma settled_transfer (hmax : 0 < maxRetries) (haddress : address < 2 ^ 32) {k : Bool → Host α}
    (hnext : NextWrite (frameLabel · ≠ .tail) (k true))
    (htrue : ∀ script, Settled leaveOut .nothing (k true) script)
    (hfalse : ∀ script, Settled leaveOut .answer (k false) script) :
    Settled leaveOut w (sendDataToBootrom (frameWaitAck maxRetries) data address >>= k) script := by
  by_cases hlength : data.length < 2 ^ 32
  · rw [sendDataToBootrom_eq _ hlength haddress]
    refine settled_sendAll (List.cons_ne_nil _ _) (fun _ => frameLabel_of_mem_transferFrames)
      (isChain_transferFrames _ _ _) hmax (fun frame hframe => ?_) htrue hfalse
    have htail : frameLabel frame = .tail := by
      rw [← List.cons_append, List.getLast?_concat] at hframe
      rw [← Option.some.inj hframe, frameLabel_tailFrame]
    exact fun script bytes hhead heq => hnext script bytes hhead (heq ▸ htail)
  · have hraise : sendDataToBootrom (frameWaitAck maxRetries) data address =
        raise "argument out of range" := by
      rw [sendDataToBootrom, structPackBe32, if_neg hlength]
      rfl
    rw [hraise, raise_bind]
    exact .raise _

/-- What a transfer writes first is a HEAD frame. -/
lemma nextWrite_transfer {k : Bool → Host α} :
    NextWrite (frameLabel · ≠ .tail)
      (sendDataToBootrom (frameWaitAck maxRetries) data address >>= k) := by
  rw [sendDataToBootrom]
  simp only [bind_assoc]
  refine .lift_bind fun length => .lift_bind fun target => ?_
  rw [frameWaitAck, bind_assoc]
  refine .write_bind ?_ _
  intro hlabel
  have hhead : frameLabel (appendCrc ([0xFE, 0x00, 0xFF, 0x01] ++ length ++ target)) = .head := rfl
  rw [hhead] at hlabel
  cases hlabel

end

/-! ## Handshakes -/

/-- The runs are alike, and nothing is written after which a byte decides. -/
structure Quiet {α : Type} (r : α → α → Prop) (o o' : HostOutcome α) : Prop where
  alike : Alike correctAck r o o'
  writes_nothing : ∀ bytes, .write bytes ∈ o.trace → Waiting.expects bytes = .nothing

namespace Quiet

variable {α : Type} {r : α → α → Prop} {o o' : HostOutcome α}

lemma of_alike (h : Alike correctAck r o o') (hread : ∃ x es, o.trace = .read x :: es ∧
    ∀ e ∈ es, e = .flush) : Quiet r o o' := by
  refine ⟨h, fun bytes hbytes => ?_⟩
  obtain ⟨x, es, htrace, hes⟩ := hread
  rw [htrace, List.mem_cons] at hbytes
  rcases hbytes with hbytes | hbytes
  · cases hbytes
  · cases hes _ hbytes

lemma cons_read (h : Quiet r o o') (x : Reading UInt8) :
    Quiet r (o.cons (.read x)) (o'.cons (.read (x.map correctAck))) := by
  refine ⟨h.alike.cons (.read x), fun bytes hbytes => ?_⟩
  rcases List.mem_cons.mp hbytes with hbytes | hbytes
  · cases hbytes
  · exact h.writes_nothing bytes hbytes

lemma cons_write (h : Quiet r o o') {bytes : List UInt8}
    (hexpects : Waiting.expects bytes = .nothing) :
    Quiet r (o.cons (.write bytes)) (o'.cons (.write bytes)) := by
  refine ⟨h.alike.cons (.write bytes), fun bytes' hbytes => ?_⟩
  rcases List.mem_cons.mp hbytes with hbytes | hbytes
  · injection hbytes with hbytes
    rw [hbytes]
    exact hexpects
  · exact h.writes_nothing bytes' hbytes

end Quiet

/-- Where nothing is waited for, nothing decides. -/
lemma foldl_next_nothing {es : List HostEvent}
    (h : ∀ bytes, .write bytes ∈ es → Waiting.expects bytes = .nothing) :
    NoNak Waiting.decides .nothing es ∧ es.foldl Waiting.next .nothing = .nothing := by
  induction es with
  | nil => exact ⟨trivial, rfl⟩
  | cons e es ih =>
      have hnext : Waiting.next .nothing e = .nothing := by
        cases e with
        | write bytes => exact h bytes List.mem_cons_self
        | flush => rfl
        | read x => cases x <;> rfl
        | note n => rfl
      obtain ⟨hno, hfold⟩ := ih fun bytes hbytes => h bytes (List.mem_cons_of_mem _ hbytes)
      rw [NoNak, List.foldl_cons, hnext]
      exact ⟨⟨fun _ => rfl, hno⟩, hfold⟩

/-- A quiet program, and what follows it. -/
lemma Settled.bind_quiet {α β : Type} {leaveOut : Prop} {script : List (Reading UInt8)}
    {p : Host α} {k : α → Host β} {r : α → α → Prop}
    (hquiet : Quiet r (p script) (p (corrected script))) (hk : ∀ a b, r a b → k a = k b)
    (hrest : ∀ a, (p script).result = .ok a → Settled leaveOut .nothing (k a) (p script).rest) :
    Settled leaveOut .nothing (p >>= k) script := by
  obtain ⟨hno, hfold⟩ := foldl_next_nothing hquiet.writes_nothing
  refine .bind (fun _ => hno) (fun _ => hquiet.alike) hk fun a ha => ?_
  rw [hfold]
  exact hrest a ha

/-- A text without the two bytes is found where it was. -/
lemma prefix_map_correctAck {pat : List UInt8} (hpat : ∀ c ∈ pat, c ≠ 0x55 ∧ c ≠ 0xAA)
    (bytes : List UInt8) : pat <+: bytes.map correctAck ↔ pat <+: bytes := by
  induction pat generalizing bytes with
  | nil => exact iff_of_true List.nil_prefix List.nil_prefix
  | cons c pat ih =>
      cases bytes with
      | nil => rfl
      | cons b bytes =>
          obtain ⟨hnak, hack⟩ := hpat c List.mem_cons_self
          rw [List.map_cons, List.cons_prefix_cons, List.cons_prefix_cons,
            ih fun c' hc' => hpat c' (List.mem_cons_of_mem _ hc'), eq_comm,
            correctAck_eq_iff hnak hack, eq_comm]

lemma infix_map_correctAck {pat : List UInt8} (hpat : ∀ c ∈ pat, c ≠ 0x55 ∧ c ≠ 0xAA)
    (bytes : List UInt8) : pat <:+: bytes.map correctAck ↔ pat <:+: bytes := by
  induction bytes with
  | nil => rfl
  | cons b bytes ih =>
      rw [List.map_cons, List.infix_cons_iff, List.infix_cons_iff, ih, ← List.map_cons,
        prefix_map_correctAck hpat]

/-- Two handshakes that have succeeded. -/
def BothSucceed (a b : HandshakeResult) : Prop := a.success = true ∧ b.success = true

namespace HiSiliconV500

lemma chipIdOf_correctAck (response : List UInt8) :
    (chipIdOf response = none ∧ chipIdOf (response.map correctAck) = none) ∨
      ∃ a b, chipIdOf response = some a ∧ chipIdOf (response.map correctAck) = some b := by
  have hprefix : [0xBD, 0x00].isPrefixOf (response.map correctAck) =
      [0xBD, 0x00].isPrefixOf response := by
    rw [Bool.eq_iff_iff, List.isPrefixOf_iff_prefix, List.isPrefixOf_iff_prefix]
    exact prefix_map_correctAck (forall_mem_of_all (by decide)) response
  rw [chipIdOf, chipIdOf, hprefix, List.length_map]
  split
  · exact .inr ⟨_, _, rfl, rfl⟩
  · exact .inl ⟨rfl, rfl⟩

/-- **The handshake of the V500** is quiet; only the chip ID may change. -/
lemma quiet_handshakeLoop (response : List UInt8) (script : List (Reading UInt8)) :
    Quiet BothSucceed (handshakeLoop response script)
      (handshakeLoop (response.map correctAck) (corrected script)) := by
  induction script generalizing response with
  | nil =>
      rw [corrected, List.map_nil, handshakeLoop, handshakeLoop]
      rcases chipIdOf_correctAck response with ⟨h, h'⟩ | ⟨a, b, h, h'⟩
      · rw [h, h']
        exact .of_alike ⟨.error _, rfl, rfl⟩ ⟨_, [], rfl, List.forall_mem_nil _⟩
      · rw [h, h']
        exact .of_alike ⟨.ok ⟨rfl, rfl⟩, rfl, rfl⟩ ⟨_, [], rfl, List.forall_mem_nil _⟩
  | cons x rest ih =>
      -- the two ways in which a read ends
      have hagain : ∀ x, Quiet BothSucceed
          (((handshakeLoop [] rest).cons (.write handshakeFrame)).cons (.read x))
          (((handshakeLoop [] (corrected rest)).cons (.write handshakeFrame)).cons
            (.read (x.map correctAck))) :=
        fun x => ((ih []).cons_write (by decide)).cons_read x
      have hdetected : ∀ x a b, Quiet BothSucceed ⟨.ok (detected a), rest, [.read x]⟩
          ⟨.ok (detected b), corrected rest, [.read (x.map correctAck)]⟩ :=
        fun x a b => .of_alike ⟨.ok ⟨rfl, rfl⟩, rfl, rfl⟩ ⟨_, [], rfl, List.forall_mem_nil _⟩
      cases x with
      | timeout =>
          rw [corrected, List.map_cons, Reading.map, handshakeLoop, handshakeLoop]
          rcases chipIdOf_correctAck response with ⟨h, h'⟩ | ⟨a, b, h, h'⟩
          · rw [h, h']
            exact hagain .timeout
          · rw [h, h']
            exact hdetected .timeout a b
      | expired =>
          rw [corrected, List.map_cons, Reading.map, handshakeLoop, handshakeLoop]
          rcases chipIdOf_correctAck response with ⟨h, h'⟩ | ⟨a, b, h, h'⟩
          · rw [h, h']
            exact hagain .expired
          · rw [h, h']
            exact hdetected .expired a b
      | item b₀ =>
          rw [corrected_item, handshakeLoop, handshakeLoop, List.length_map]
          have hsnoc : response.map correctAck ++ [correctAck b₀] =
              (response ++ [b₀]).map correctAck := by rw [List.map_append]; rfl
          rw [hsnoc]
          by_cases hlt : response.length + 1 < 14
          · rw [if_pos hlt, if_pos hlt]
            exact (ih (response ++ [b₀])).cons_read (.item b₀)
          · rw [if_neg hlt, if_neg hlt]
            rcases chipIdOf_correctAck (response ++ [b₀]) with ⟨h, h'⟩ | ⟨a, b, h, h'⟩
            · rw [h, h']
              exact hagain (.item b₀)
            · rw [h, h']
              exact hdetected (.item b₀) a b

end HiSiliconV500

namespace HiSiliconCV6xx

lemma isReady_correctAck (buffer : List UInt8) :
    isReady (buffer.map correctAck) = isReady buffer := by
  have hddr : ∀ c ∈ encodeAscii "uart ddr".toList, c ≠ 0x55 ∧ c ≠ 0xAA :=
    forall_mem_of_all (by decide)
  have hflash : ∀ c ∈ encodeAscii "uart flash".toList, c ≠ 0x55 ∧ c ≠ 0xAA :=
    forall_mem_of_all (by decide)
  rw [isReady, isReady, decide_eq_decide.mpr (infix_map_correctAck hddr buffer),
    decide_eq_decide.mpr (infix_map_correctAck hflash buffer)]

/-- **The handshake of the CV6xx** is quiet. -/
lemma quiet_handshakeLoop (buffer chunk : List UInt8) (script : List (Reading UInt8)) :
    Quiet BothSucceed (handshakeLoop buffer chunk script)
      (handshakeLoop (buffer.map correctAck) (chunk.map correctAck) (corrected script)) := by
  have hcond : ∀ buffer chunk : List UInt8, (chunk.map correctAck ≠ [] ∧
      isReady (buffer.map correctAck ++ chunk.map correctAck) = true) ↔
        (chunk ≠ [] ∧ isReady (buffer ++ chunk) = true) := by
    intro buffer chunk
    rw [← List.map_append, isReady_correctAck, ne_eq, List.map_eq_nil_iff]
  induction script generalizing buffer chunk with
  | nil =>
      rw [corrected, List.map_nil, handshakeLoop, handshakeLoop]
      by_cases h : chunk ≠ [] ∧ isReady (buffer ++ chunk) = true
      · rw [if_pos h, if_pos ((hcond buffer chunk).mpr h)]
        exact .of_alike ⟨.ok ⟨rfl, rfl⟩, rfl, rfl⟩ ⟨_, [.flush], rfl, by simp⟩
      · rw [if_neg h, if_neg (mt (hcond buffer chunk).mp h)]
        exact .of_alike ⟨.error _, rfl, rfl⟩ ⟨_, [], rfl, List.forall_mem_nil _⟩
  | cons x rest ih =>
      -- the end of a turn
      have hend : Quiet BothSucceed
          (if chunk ≠ [] ∧ isReady (buffer ++ chunk) = true then
            ⟨.ok ready, rest, [.read x, .flush]⟩
          else
            ((handshakeLoop (buffer ++ chunk) [] rest).cons (.write handshakeFrame)).cons (.read x))
          (if chunk.map correctAck ≠ [] ∧
              isReady (buffer.map correctAck ++ chunk.map correctAck) = true then
            ⟨.ok ready, corrected rest, [.read (x.map correctAck), .flush]⟩
          else
            ((handshakeLoop (buffer.map correctAck ++ chunk.map correctAck) []
              (corrected rest)).cons (.write handshakeFrame)).cons
                (.read (x.map correctAck))) := by
        by_cases h : chunk ≠ [] ∧ isReady (buffer ++ chunk) = true
        · rw [if_pos h, if_pos ((hcond buffer chunk).mpr h)]
          exact .of_alike ⟨.ok ⟨rfl, rfl⟩, rfl, rfl⟩ ⟨_, [.flush], rfl, by simp⟩
        · rw [if_neg h, if_neg (mt (hcond buffer chunk).mp h), ← List.map_append]
          exact ((ih (buffer ++ chunk) []).cons_write (by decide)).cons_read x
      cases x with
      | timeout => exact hend
      | expired => exact hend
      | item b =>
          have hnext := (ih buffer (chunk ++ [b])).cons_read (.item b)
          rw [List.map_append] at hnext
          exact hnext

/-! ## The board ID -/

/-- The byte that confirms the board ID is not a NAK. -/
def CheckOk (buf : List UInt8) : Prop := 0xCE ∈ buf → buf[buf.idxOf 0xCE + 10]? ≠ some nakByte

lemma mem_map_correctAck {buf : List UInt8} :
    (0xCE : UInt8) ∈ buf.map correctAck ↔ 0xCE ∈ buf := by
  rw [List.mem_map]
  constructor
  · rintro ⟨b, hb, heq⟩
    exact (correctAck_eq_iff (by decide) (by decide)).mp heq ▸ hb
  · exact fun h => ⟨0xCE, h, rfl⟩

lemma idxOf_map_correctAck (buf : List UInt8) :
    (buf.map correctAck).idxOf 0xCE = buf.idxOf 0xCE := by
  induction buf with
  | nil => rfl
  | cons b buf ih =>
      by_cases h : b = 0xCE
      · subst h
        rw [List.map_cons, List.idxOf_cons_self]
        exact List.idxOf_cons_self
      · have h' : correctAck b ≠ 0xCE := mt (correctAck_eq_iff (by decide) (by decide)).mp h
        rw [List.map_cons, List.idxOf_cons_ne _ h', List.idxOf_cons_ne _ h, ih]

/-- Board IDs for which the same table is sent: there are tables for eight boards at most. -/
def SameBoard (a b : ℕ) : Prop := a = b ∨ 8 ≤ a ∧ 8 ≤ b

lemma buildDdrTable_congr {parts : Cv6xxBootParts} (h : parts.boardMapping.length ≤ 8) {a b : ℕ}
    (hab : SameBoard a b) : buildDdrTable parts a = buildDdrTable parts b := by
  rcases hab with rfl | ⟨ha, hb⟩
  · rfl
  · rw [buildDdrTable, buildDdrTable]
    dsimp only
    rw [if_neg (by omega), if_neg (by omega)]

lemma boardMapping_of_parse {file : List UInt8} {parts : Cv6xxBootParts}
    (h : parseCv6xxBoot file = .ok parts) : parts.boardMapping.length ≤ 8 := by
  have hparts : (parseCv6xxBoot file).toOption = some parts := by
    rw [h]
    rfl
  simp only [parseCv6xxBoot, toOption_bind, Option.bind_eq_some_iff] at hparts
  obtain ⟨_, -, _, -, gslLen, -, _, -, _, -, _, -, _, -, _, -, hparts⟩ := hparts
  split at hparts
  · cases hparts
  · simp only [toOption_bind, Option.bind_eq_some_iff] at hparts
    obtain ⟨ubootLen, -, hparts⟩ := hparts
    obtain rfl := Option.some.inj hparts
    exact List.length_take_le 8 _

/-- A byte that is changed makes the number large, before and after. -/
lemma sameBoard_readBe32 (bytes : List UInt8) :
    SameBoard (readBe32 bytes) (readBe32 (bytes.map correctAck)) := by
  have hbyte : ∀ i, ((bytes.map correctAck).getD i 0).toNat = (bytes.getD i 0).toNat ∨
      (bytes.getD i 0).toNat = 0x55 ∧ ((bytes.map correctAck).getD i 0).toNat = 0xAA := by
    intro i
    have hget : (bytes.map correctAck).getD i 0 = correctAck (bytes.getD i 0) := by
      rw [List.getD_eq_getElem?_getD, List.getElem?_map, List.getD_eq_getElem?_getD]
      cases bytes[i]? with
      | none => rfl
      | some b => rfl
    rw [hget]
    by_cases h : bytes.getD i 0 = 0x55
    · rw [h]
      exact .inr ⟨rfl, rfl⟩
    · exact .inl (congrArg UInt8.toNat (correctAck_of_ne h))
  have h₀ := hbyte 0
  have h₁ := hbyte 1
  have h₂ := hbyte 2
  have h₃ := hbyte 3
  rw [SameBoard, readBe32, readBe32]
  omega

/-- What was read so far tells the same board. -/
lemma boardIdOf_correctAck {buf : List UInt8} (h : CheckOk buf) :
    (boardIdOf buf = none ∧ boardIdOf (buf.map correctAck) = none) ∨
      ∃ a b, boardIdOf buf = some a ∧ boardIdOf (buf.map correctAck) = some b ∧ SameBoard a b := by
  have hcond : ((0xCE : UInt8) ∈ buf.map correctAck ∧
      (buf.map correctAck)[(buf.map correctAck).idxOf 0xCE + 10]? = some 0xAA) ↔
        (0xCE ∈ buf ∧ buf[buf.idxOf 0xCE + 10]? = some 0xAA) := by
    rw [mem_map_correctAck, idxOf_map_correctAck, List.getElem?_map]
    refine and_congr_right fun hmem => ?_
    have hcheck := h hmem
    cases hbyte : buf[buf.idxOf 0xCE + 10]? with
    | none => rfl
    | some b =>
        rw [hbyte] at hcheck
        have hb : b ≠ nakByte := fun heq => hcheck (congrArg some heq)
        rw [Option.map_some, correctAck_of_ne hb]
  rw [boardIdOf, boardIdOf]
  by_cases hbuf : 0xCE ∈ buf ∧ buf[buf.idxOf 0xCE + 10]? = some 0xAA
  · rw [if_pos hbuf, if_pos (hcond.mpr hbuf), idxOf_map_correctAck, ← List.map_drop,
      ← List.map_take]
    exact .inr ⟨_, _, rfl, rfl, sameBoard_readBe32 _⟩
  · rw [if_neg hbuf, if_neg (mt hcond.mp hbuf)]
    exact .inl ⟨rfl, rfl⟩

/-- One more byte, of which the program knows whether it confirms the board ID. -/
lemma CheckOk.snoc {buf : List UInt8} {b : UInt8} (h : CheckOk buf)
    (hb : b = nakByte → Waiting.isCheck (.boardId buf) = false) : CheckOk (buf ++ [b]) := by
  intro hmem hget
  by_cases hce : 0xCE ∈ buf
  · rw [List.idxOf_append_of_mem hce] at hget
    rcases Nat.lt_trichotomy (buf.idxOf 0xCE + 10) buf.length with hlt | heq | hgt
    · rw [List.getElem?_append_left hlt] at hget
      exact h hce hget
    · rw [List.getElem?_append_right (by omega), heq, Nat.sub_self] at hget
      have hcheck := hb (Option.some.inj hget)
      rw [Waiting.isCheck, heq, List.contains_iff_mem.mpr hce, beq_self_eq_true] at hcheck
      cases hcheck
    · rw [List.getElem?_eq_none (by rw [List.length_append, List.length_singleton]; omega)] at hget
      cases hget
  · rw [List.idxOf_append_of_notMem hce] at hget
    rw [List.getElem?_eq_none (by rw [List.length_append, List.length_singleton]; omega)] at hget
    cases hget

lemma boardIdIn_correctAck {buf chunk : List UInt8} (h : CheckOk (buf ++ chunk)) :
    (boardIdIn buf chunk = none ∧
      boardIdIn (buf.map correctAck) (chunk.map correctAck) = none) ∨
    ∃ a b, boardIdIn buf chunk = some a ∧
      boardIdIn (buf.map correctAck) (chunk.map correctAck) = some b ∧ SameBoard a b := by
  rw [boardIdIn, boardIdIn]
  by_cases hnil : chunk = []
  · rw [if_pos hnil, if_pos (List.map_eq_nil_iff.mpr hnil)]
    exact .inl ⟨rfl, rfl⟩
  · rw [if_neg hnil, if_neg (mt List.map_eq_nil_iff.mp hnil), ← List.map_append]
    exact boardIdOf_correctAck h

/-- **The wait for a board ID.**  Both runs are alike when the byte that confirms it is no NAK. -/
lemma alike_boardIdLoop (buf chunk : List UInt8) {script : List (Reading UInt8)}
    (hok : CheckOk (buf ++ chunk))
    (hno : NoNak Waiting.decides (.boardId (buf ++ chunk)) (boardIdLoop buf chunk script).trace) :
    Alike correctAck SameBoard (boardIdLoop buf chunk script)
      (boardIdLoop (buf.map correctAck) (chunk.map correctAck) (corrected script)) := by
  induction script generalizing buf chunk with
  | nil =>
      rw [corrected, List.map_nil, boardIdLoop, boardIdLoop]
      rcases boardIdIn_correctAck hok with ⟨h, h'⟩ | ⟨a, b, h, h', hab⟩
      · rw [h, h']
        exact ⟨.ok (.inl rfl), rfl, rfl⟩
      · rw [h, h']
        exact ⟨.ok hab, rfl, rfl⟩
  | cons x rest ih =>
      cases x with
      | expired =>
          rw [corrected, List.map_cons, Reading.map, boardIdLoop, boardIdLoop]
          rcases boardIdIn_correctAck hok with ⟨h, h'⟩ | ⟨a, b, h, h', hab⟩
          · rw [h, h']
            exact ⟨.ok (.inl rfl), rfl, rfl⟩
          · rw [h, h']
            exact ⟨.ok hab, rfl, rfl⟩
      | timeout =>
          rw [corrected, List.map_cons, Reading.map, boardIdLoop, boardIdLoop]
          rw [boardIdLoop] at hno
          rcases boardIdIn_correctAck hok with ⟨h, h'⟩ | ⟨a, b, h, h', hab⟩
          · rw [h] at hno
            rw [h, h', ← List.map_append]
            have hrest := ih (buf ++ chunk) []
            rw [List.append_nil] at hrest
            exact (hrest hok hno.2).cons (.read .timeout)
          · rw [h, h']
            exact ⟨.ok hab, rfl, rfl⟩
      | item b =>
          have hsnoc : buf ++ chunk ++ [b] = buf ++ (chunk ++ [b]) := List.append_assoc _ _ _
          have hcheck : CheckOk (buf ++ chunk ++ [b]) := by
            refine hok.snoc ?_
            rintro rfl
            exact hno.1 rfl
          have hnext := (ih buf (chunk ++ [b]) (hsnoc ▸ hcheck) (hsnoc ▸ hno.2)).cons
            (.read (.item b))
          rw [List.map_append] at hnext
          exact hnext

end HiSiliconCV6xx

/-- While a board ID is waited for, only the byte that confirms it decides. -/
lemma noNak_decides_of_reads {buf : List UInt8} {es : List HostEvent}
    (hreads : ∀ e ∈ es, ∃ x, e = .read x) (h : NoNak Waiting.isCheck (.boardId buf) es) :
    NoNak Waiting.decides (.boardId buf) es := by
  induction es generalizing buf with
  | nil => trivial
  | cons e es ih =>
      obtain ⟨x, rfl⟩ := hreads e List.mem_cons_self
      have hes := fun e he => hreads e (List.mem_cons_of_mem _ he)
      refine ⟨h.1, ?_⟩
      cases x with
      | item b => exact ih hes h.2
      | timeout => exact ih hes h.2
      | expired => exact ih hes h.2

/-! ## `send_firmware` -/

section

variable {α : Type} {leaveOut : Prop} {w : Waiting} {script : List (Reading UInt8)}
  {k : SessionResult → Host α}

/-- **The firmware of a V500.** -/
lemma HiSiliconV500.settled_sendFirmware (firmware : List UInt8)
    (hk : ∀ result w script, Settled leaveOut w (k result) script)
    (hnext : ∀ result, result.success = true → NextWrite (frameLabel · ≠ .tail) (k result)) :
    Settled leaveOut w (HiSiliconV500.sendFirmware firmware >>= k) script := by
  rw [HiSiliconV500.sendFirmware]
  simp only [bind_assoc]
  refine settled_transfer (by decide) (by decide) ?_ (fun script => ?_) fun script => ?_
  · simp only [if_true, bind_assoc]
    exact .lift_bind fun auxLen => nextWrite_transfer
  · simp only [if_true, bind_assoc]
    refine .lift_bind fun auxLen => settled_transfer (by decide) (by decide) ?_
      (fun script => ?_) fun script => ?_
    · simp only [if_true, bind_assoc]
      exact nextWrite_transfer
    · simp only [if_true, bind_assoc]
      refine settled_transfer (by decide) (by decide) (hnext _ rfl) (fun script => ?_)
        fun script => ?_
      · exact hk _ _ _
      · exact hk _ _ _
    · exact hk _ _ _
  · exact hk _ _ _

/-- **The board ID, and what follows it.** -/
lemma HiSiliconCV6xx.settled_getBoardId (time : ℕ) (hleave : leaveOut) {k : ℕ → Host α}
    (hsame : ∀ a b, SameBoard a b → k a = k b)
    (hk : ∀ a w script, Settled leaveOut w (k a) script) :
    Settled leaveOut w (getBoardId time >>= k) script := by
  rw [getBoardId]
  simp only [bind_assoc]
  refine .lift_bind fun t => .flush_bind (.write_bind ?_)
  have hexpects : Waiting.expects (appendCrc ([0xCE, 0x00, 0xFF, 0x01] ++ t ++ t)) =
      .boardId [] := rfl
  rw [hexpects]
  refine .bind (fun hcheck => ?_) (fun hno => ?_) hsame fun a _ => hk a _ _
  · exact noNak_decides_of_reads (reads_boardIdLoop [] [] script) (hcheck hleave)
  · exact alike_boardIdLoop [] [] (fun hmem => absurd hmem List.not_mem_nil) hno

/-- What is read while the DDR is trained does not matter. -/
lemma HiSiliconCV6xx.quiet_trainingLoop (script : List (Reading UInt8)) :
    Quiet Eq (trainingLoop script) (trainingLoop (corrected script)) := by
  induction script with
  | nil => exact .of_alike ⟨.ok rfl, rfl, rfl⟩ ⟨_, [], rfl, List.forall_mem_nil _⟩
  | cons x rest ih =>
      cases x with
      | expired => exact .of_alike ⟨.ok rfl, rfl, rfl⟩ ⟨_, [], rfl, List.forall_mem_nil _⟩
      | timeout => exact ih.cons_read .timeout
      | item b => exact ih.cons_read (.item b)

/-- **The firmware of a CV6xx.** -/
lemma HiSiliconCV6xx.settled_sendParts (time : ℕ) {parts : Cv6xxBootParts}
    (hparts : parts.boardMapping.length ≤ 8) (ubootPayload : List UInt8) (hleave : leaveOut)
    (hk : ∀ result w script, Settled leaveOut w (k result) script)
    (hnext : ∀ result, result.success = true → NextWrite (frameLabel · ≠ .tail) (k result)) :
    Settled leaveOut w (sendParts time parts ubootPayload >>= k) script := by
  rw [sendParts]
  simp only [bind_assoc]
  refine settled_transfer (by decide) (by decide) ?_ (fun script => ?_) fun script => hk _ _ _
  · simp only [if_true, bind_assoc, getBoardId]
    exact .lift_bind fun t => .flush_bind (.write_bind (by intro h; cases h) _)
  · simp only [if_true, bind_assoc]
    refine settled_getBoardId time hleave (fun a b hab => ?_) fun boardId w script => ?_
    · rw [buildDdrTable_congr hparts hab]
    refine .lift_bind fun table => settled_transfer (by decide) (by decide) ?_ (fun script => ?_)
      fun script => hk _ _ _
    · simp only [if_true, bind_assoc]
      exact .bind HiSiliconCV6xx.writes_trainingLoop fun _ => nextWrite_transfer
    · simp only [if_true, bind_assoc]
      refine .bind_quiet (quiet_trainingLoop script) (fun _ _ _ => rfl) fun _ _ => ?_
      exact settled_transfer (by decide) (by decide) (hnext _ rfl) (fun script => hk _ _ _)
        fun script => hk _ _ _

lemma HiSiliconCV6xx.settled_sendFirmware (time : ℕ) (firmware : List UInt8)
    (ubootOverride : Option (List UInt8)) (hleave : leaveOut)
    (hk : ∀ result w script, Settled leaveOut w (k result) script)
    (hnext : ∀ result, result.success = true → NextWrite (frameLabel · ≠ .tail) (k result)) :
    Settled leaveOut w (sendFirmware time firmware ubootOverride >>= k) script := by
  rw [HiSiliconCV6xx.sendFirmware]
  cases hparse : parseCv6xxBoot firmware with
  | error error =>
      dsimp only
      split
      · exact hk _ _ _
      · exact .raise _
  | ok parts => exact settled_sendParts time (boardMapping_of_parse hparse) _ hleave hk hnext

end

/-! ## The break -/

lemma expects_ctrlC : Waiting.expects ctrlC = .prompt := by decide

/-- U-Boot was found, or the deadline has passed. -/
lemma alike_stop (out : List UInt8) (rest : List (Reading UInt8)) (n : ℕ) :
    Alike correctAck Eq
      (⟨.ok out, rest, List.replicate n (.write ctrlC)⟩ : HostOutcome (List UInt8))
      ⟨.ok out, corrected rest, List.replicate n (.write ctrlC)⟩ := by
  refine ⟨.ok rfl, rfl, ?_⟩
  rw [List.map_replicate]
  rfl

/-- A byte other than a NAK is read in both runs. -/
lemma alike_cons_item {o o' : HostOutcome (List UInt8)} (h : Alike correctAck Eq o o') {b : UInt8}
    (hb : b ≠ nakByte) :
    Alike correctAck Eq (o.cons (.read (.item b))) (o'.cons (.read (.item b))) := by
  have hcons := h.cons (.read (.item b))
  rw [Event.mapRead, Reading.map, correctAck_of_ne hb] at hcons
  exact hcons

/-- **The break**, without a NAK among what is read. -/
lemma alike_breakLoop (buf : List UInt8) (data? : Option (List UInt8))
    (script : List (Reading UInt8))
    (hno : NoNak Waiting.decides .prompt (breakLoop buf data? script).trace) :
    Alike correctAck Eq (breakLoop buf data? script) (breakLoop buf data? (corrected script)) := by
  induction script generalizing buf data? with
  | nil =>
      cases data? with
      | none => exact ⟨.ok rfl, rfl, rfl⟩
      | some data => exact (alike_stop _ [] _).cons (.read .expired)
  | cons x rest ih =>
      cases data? with
      | none =>
          cases x with
          | expired => exact ⟨.ok rfl, rfl, rfl⟩
          | timeout =>
              rw [breakLoop, Outcome.cons_trace, noNak_cons_write, expects_ctrlC] at hno
              exact ((ih buf none hno.2).cons (.read .timeout)).cons (.write ctrlC)
          | item b =>
              rw [breakLoop, Outcome.cons_trace, noNak_cons_write, expects_ctrlC] at hno
              have hb : b ≠ nakByte := by
                rintro rfl
                exact absurd (hno.1 rfl) (by decide)
              rw [corrected_item, correctAck_of_ne hb]
              exact (alike_cons_item (ih buf (some [b]) hno.2) hb).cons (.write ctrlC)
      | some data =>
          cases x with
          | expired => exact (alike_stop _ rest _).cons (.read .expired)
          | timeout =>
              rw [corrected, List.map_cons, Reading.map, breakLoop, breakLoop]
              rw [breakLoop] at hno
              cases hfound : promptFound (buf ++ data) with
              | some n => exact (alike_stop _ rest n).cons (.read .timeout)
              | none =>
                  rw [hfound] at hno
                  exact (ih (buf ++ data) none hno.2).cons (.read .timeout)
          | item b =>
              have hb : b ≠ nakByte := by
                rintro rfl
                rw [breakLoop] at hno
                split at hno
                · exact absurd (hno.1 rfl) (by decide)
                · split at hno
                  · exact absurd (hno.1 rfl) (by decide)
                  · exact absurd (hno.1 rfl) (by decide)
              rw [corrected_item, correctAck_of_ne hb, breakLoop, breakLoop]
              rw [breakLoop] at hno
              by_cases hlt : data.length + 1 < 256
              · rw [if_pos hlt] at hno
                rw [if_pos hlt, if_pos hlt]
                exact alike_cons_item (ih buf (some (data ++ [b])) hno.2) hb
              · rw [if_neg hlt] at hno
                rw [if_neg hlt, if_neg hlt]
                cases hfound : promptFound (buf ++ (data ++ [b])) with
                | some n => exact alike_cons_item (alike_stop _ rest n) hb
                | none =>
                    rw [hfound] at hno
                    exact alike_cons_item (ih (buf ++ (data ++ [b])) none hno.2) hb

/-- The program returns what was known before and what it reads, which is in the script. -/
structure Returns (known : List UInt8) (script : List (Reading UInt8))
    (o : HostOutcome (List UInt8)) (out : List UInt8) : Prop where
  result : o.result = .ok out
  known_mem : ∀ b ∈ known, b ∈ out
  read_mem : ∀ b, .read (.item b) ∈ o.trace → b ∈ out
  mem : ∀ b ∈ out, b ∈ known ∨ .item b ∈ script

namespace Returns

variable {known out : List UInt8} {script rest : List (Reading UInt8)}
  {o : HostOutcome (List UInt8)}

lemma stop (known : List UInt8) (script rest : List (Reading UInt8)) (n : ℕ) :
    Returns known script ⟨.ok known, rest, List.replicate n (.write ctrlC)⟩ known where
  result := rfl
  known_mem _ hb := hb
  read_mem _ hb := by cases List.eq_of_mem_replicate hb
  mem _ hb := .inl hb

lemma cons_write (h : Returns known script o out) (bytes : List UInt8) :
    Returns known script (o.cons (.write bytes)) out where
  result := h.result
  known_mem := h.known_mem
  read_mem b hb := by
    rcases List.mem_cons.mp hb with hb | hb
    · cases hb
    · exact h.read_mem b hb
  mem := h.mem

/-- A read that ends without a byte. -/
lemma cons_end (h : Returns known rest o out) (hrest : ∀ b, .item b ∈ rest → .item b ∈ script)
    {x : Reading UInt8} (hx : ∀ b, x ≠ .item b) : Returns known script (o.cons (.read x)) out where
  result := h.result
  known_mem := h.known_mem
  read_mem b hb := by
    rcases List.mem_cons.mp hb with hb | hb
    · exact absurd (Event.read.inj hb).symm (hx b)
    · exact h.read_mem b hb
  mem b hb := (h.mem b hb).imp_right (hrest b)

/-- A byte. -/
lemma cons_item {b₀ : UInt8} (h : Returns (known ++ [b₀]) rest o out) :
    Returns known (.item b₀ :: rest) (o.cons (.read (.item b₀))) out where
  result := h.result
  known_mem b hb := h.known_mem b (List.mem_append_left _ hb)
  read_mem b hb := by
    rcases List.mem_cons.mp hb with hb | hb
    · obtain rfl : b = b₀ := Reading.item.inj (Event.read.inj hb)
      exact h.known_mem b (List.mem_append_right _ List.mem_cons_self)
    · exact h.read_mem b hb
  mem b hb := by
    rcases h.mem b hb with hb | hb
    · rcases List.mem_append.mp hb with hb | hb
      · exact .inl hb
      · obtain rfl := List.mem_singleton.mp hb
        exact .inr List.mem_cons_self
    · exact .inr (List.mem_cons_of_mem _ hb)

end Returns

/-- **What a break returns** is what was read. -/
lemma exists_returns_breakLoop (buf : List UInt8) (data? : Option (List UInt8))
    (script : List (Reading UInt8)) :
    ∃ out, Returns (buf ++ data?.getD []) script (breakLoop buf data? script) out := by
  have htimeout : ∀ b : UInt8, Reading.timeout ≠ .item b := fun _ h => by cases h
  have hexpired : ∀ b : UInt8, Reading.expired ≠ .item b := fun _ h => by cases h
  induction script generalizing buf data? with
  | nil =>
      cases data? with
      | none =>
          rw [Option.getD_none, List.append_nil]
          exact ⟨buf, (Returns.stop buf [] [] 0).cons_end (fun _ hb => hb) hexpired⟩
      | some data =>
          exact ⟨buf ++ data,
            (Returns.stop (buf ++ data) [] [] _).cons_end (fun _ hb => hb) hexpired⟩
  | cons x rest ih =>
      have hrest : ∀ b, .item b ∈ rest → .item b ∈ x :: rest :=
        fun _ hb => List.mem_cons_of_mem _ hb
      cases data? with
      | none =>
          rw [Option.getD_none, List.append_nil]
          cases x with
          | expired => exact ⟨buf, (Returns.stop buf rest rest 0).cons_end hrest hexpired⟩
          | timeout =>
              obtain ⟨out, hout⟩ := ih buf none
              rw [Option.getD_none, List.append_nil] at hout
              exact ⟨out, (hout.cons_end hrest htimeout).cons_write ctrlC⟩
          | item b =>
              obtain ⟨out, hout⟩ := ih buf (some [b])
              exact ⟨out, hout.cons_item.cons_write ctrlC⟩
      | some data =>
          cases x with
          | expired => exact ⟨_, (Returns.stop (buf ++ data) rest rest _).cons_end hrest hexpired⟩
          | timeout =>
              rw [breakLoop]
              cases promptFound (buf ++ data) with
              | some n =>
                  exact ⟨_, (Returns.stop (buf ++ data) rest rest n).cons_end hrest htimeout⟩
              | none =>
                  obtain ⟨out, hout⟩ := ih (buf ++ data) none
                  rw [Option.getD_none, List.append_nil] at hout
                  exact ⟨out, hout.cons_end hrest htimeout⟩
          | item b =>
              have hsnoc : buf ++ (data ++ [b]) = buf ++ data ++ [b] :=
                (List.append_assoc _ _ _).symm
              rw [breakLoop]
              split
              · obtain ⟨out, hout⟩ := ih buf (some (data ++ [b]))
                rw [Option.getD_some, hsnoc] at hout
                exact ⟨out, hout.cons_item⟩
              · rw [hsnoc]
                cases promptFound (buf ++ data ++ [b]) with
                | some n => exact ⟨_, (Returns.stop (buf ++ data ++ [b]) rest rest n).cons_item⟩
                | none =>
                    obtain ⟨out, hout⟩ := ih (buf ++ data ++ [b]) none
                    rw [Option.getD_none, List.append_nil] at hout
                    exact ⟨out, hout.cons_item⟩

/-- Without a NAK at all there is none in a place that decides. -/
lemma noNak_of_notMem {place : Waiting → Bool} {w : Waiting} {es : List HostEvent}
    (h : .read (.item nakByte) ∉ es) : NoNak place w es := by
  induction es generalizing w with
  | nil => trivial
  | cons e es ih =>
      rw [List.mem_cons, not_or] at h
      exact ⟨fun he => absurd he.symm h.1, ih h.2⟩

/-- **The buffer of a break** is the same when no NAK is read, and otherwise it is not. -/
lemma breakAutoboot_cases (w : Waiting) (script : List (Reading UInt8)) :
    (NoNak Waiting.decides w (breakAutoboot script).trace ∧
      Alike correctAck Eq (breakAutoboot script) (breakAutoboot (corrected script))) ∨
    (¬ NoNak Waiting.decides w (breakAutoboot script).trace ∧
      ∃ out out', (breakAutoboot script).result = .ok out ∧
        (breakAutoboot (corrected script)).result = .ok out' ∧ out' ≠ out) := by
  -- from the first Ctrl-C on
  have hloop : ∀ es, breakLoop [] none script = ⟨(breakLoop [] none script).result,
      (breakLoop [] none script).rest, .write ctrlC :: es⟩ →
      breakAutoboot script = breakLoop [] none script →
      breakAutoboot (corrected script) = breakLoop [] none (corrected script) →
      (NoNak Waiting.decides w (breakAutoboot script).trace ∧
        Alike correctAck Eq (breakAutoboot script) (breakAutoboot (corrected script))) ∨
      (¬ NoNak Waiting.decides w (breakAutoboot script).trace ∧
        ∃ out out', (breakAutoboot script).result = .ok out ∧
          (breakAutoboot (corrected script)).result = .ok out' ∧ out' ≠ out) := by
    intro es htrace h h'
    rw [h, h']
    have hfrom : NoNak Waiting.decides w (breakLoop [] none script).trace ↔
        NoNak Waiting.decides .prompt (breakLoop [] none script).trace := by
      rw [htrace, noNak_cons_write, noNak_cons_write]
    by_cases hno : NoNak Waiting.decides w (breakLoop [] none script).trace
    · exact .inl ⟨hno, alike_breakLoop [] none script (hfrom.mp hno)⟩
    · obtain ⟨out, hout⟩ := exists_returns_breakLoop [] none script
      obtain ⟨out', hout'⟩ := exists_returns_breakLoop [] none (corrected script)
      refine .inr ⟨hno, out, out', hout.result, hout'.result, fun heq => ?_⟩
      have hmem : nakByte ∈ out := by
        refine hout.read_mem _ ?_
        by_contra hnot
        exact hno (noNak_of_notMem hnot)
      rw [← heq] at hmem
      rcases hout'.mem _ hmem with hmem | hmem
      · exact absurd hmem List.not_mem_nil
      · obtain ⟨x, -, hx⟩ := List.mem_map.mp hmem
        cases x with
        | item b => exact correctAck_ne b (Reading.item.inj hx)
        | timeout => cases hx
        | expired => cases hx
  cases script with
  | nil => exact .inl ⟨noNak_cons_write.mpr (noNak_singleton (by decide)), ⟨.ok rfl, rfl, rfl⟩⟩
  | cons x rest =>
      cases x with
      | expired =>
          exact .inl ⟨noNak_cons_write.mpr (noNak_singleton (by decide)), ⟨.ok rfl, rfl, rfl⟩⟩
      | timeout => exact hloop _ rfl rfl rfl
      | item b => exact hloop _ rfl rfl rfl

/-! ## The session -/

namespace RecoverySession

variable {s : RecoverySession} {leaveOut : Prop} {w : Waiting} {script : List (Reading UInt8)}

/-- **The break of a session**, if there is one. -/
lemma settled_finish (result : SessionResult) : Settled leaveOut w (s.finish result) script := by
  rw [finish]
  split
  · rcases breakAutoboot_cases w script with ⟨hno, halike⟩ | ⟨hno, out, out', h, h', hne⟩
    · exact .bind (fun _ => hno) (fun _ => halike) (fun a b hab => by rw [hab]) fun _ _ => .pure _
    · constructor
      · intro hall
        obtain ⟨es, htrace⟩ := trace_bind breakAutoboot
          (fun buf => pure { result with postBurnBuffer := buf } : _ → Host SessionResult) script
        rw [htrace, noNak_append] at hall
        exact absurd hall.1 hno
      · rintro - ⟨-, hresult⟩
        rw [bind_of_ok h, bind_of_ok h'] at hresult
        exact absurd (congrArg SessionResult.postBurnBuffer (Except.ok.inj hresult)) hne
  · exact .pure _

/-- A break begins with a Ctrl-C. -/
lemma nextWrite_finish (result : SessionResult) :
    NextWrite (frameLabel · ≠ .tail) (s.finish result) := by
  rw [finish]
  split
  · intro script bytes hhead
    obtain ⟨es, htrace⟩ := trace_bind breakAutoboot
      (fun buf => pure { result with postBurnBuffer := buf } : _ → Host SessionResult) script
    have hfirst : (writes (breakAutoboot script).trace).head? = some ctrlC := by
      rcases script with _ | ⟨b | _ | _, rest⟩ <;> rfl
    rw [htrace, writes_append, List.head?_append, hfirst] at hhead
    obtain rfl := Option.some.inj hhead
    decide
  · exact .of_silent fun _ => rfl

/-- A handshake that is cancelled. -/
lemma quiet_cancelled {α : Type} {r : α → α → Prop} {p : Host α}
    (h : ∀ script, Quiet r (p script) (p (corrected script))) (after : ℕ)
    (script : List (Reading UInt8)) :
    Quiet (fun _ _ => True) (cancelled after p script) (cancelled after p (corrected script)) := by
  have htake : (corrected script).take after = corrected (script.take after) :=
    List.map_take.symm
  refine ⟨⟨.ok trivial, List.map_drop.symm, ?_⟩, (h (script.take after)).writes_nothing⟩
  rw [cancelled, htake]
  exact (h (script.take after)).alike.trace

/-- The handshakes: a write, and then a program that is quiet. -/
lemma exists_quiet_handshake (protocol : BootProtocol) :
    ∃ (frame : List UInt8) (p : Host HandshakeResult),
      protocol.handshake = (do Scripted.write frame; p) ∧
      Waiting.expects frame = .nothing ∧
      ∀ script, Quiet BothSucceed (p script) (p (corrected script)) := by
  cases protocol with
  | v500 => exact ⟨_, _, rfl, by decide, HiSiliconV500.quiet_handshakeLoop []⟩
  | cv6xx => exact ⟨_, _, rfl, by decide, HiSiliconCV6xx.quiet_handshakeLoop [] []⟩

/-- **The handshake of an attempt, and what follows it.** -/
lemma settled_handshake {α : Type} (attempt : ℕ) {k : Except String HandshakeResult → Host α}
    (hsame : ∀ a b, BothSucceed a b → k (.ok a) = k (.ok b))
    (hk : ∀ result w script, Settled leaveOut w (k result) script) :
    Settled leaveOut w (s.handshake attempt >>= k) script := by
  obtain ⟨frame, p, hp, hexpects, hquiet⟩ := exists_quiet_handshake s.protocol
  have hshake : ∀ w script, Settled leaveOut w
      ((do let handshake ← s.protocol.handshake; pure (.ok handshake)) >>= k) script := by
    intro w script
    rw [hp]
    simp only [bind_assoc, pure_bind]
    refine .write_bind ?_
    rw [hexpects]
    exact .bind_quiet (hquiet script) hsame fun _ _ => hk _ _ _
  rw [RecoverySession.handshake]
  cases s.power with
  | none => exact hshake w script
  | some power =>
      rw [bind_assoc]
      refine .flush_bind ?_
      cases power attempt with
      | done => exact hshake w script
      | failed message after =>
          have hcancelled : cancelled after s.protocol.handshake =
              (do Scripted.write frame; cancelled after p) := by
            rw [hp]
            rfl
          dsimp only
          rw [hcancelled]
          simp only [bind_assoc, pure_bind]
          refine .write_bind ?_
          rw [hexpects]
          exact .bind_quiet (quiet_cancelled hquiet after script) (fun _ _ _ => rfl)
            fun _ _ => hk _ _ _

/-- **The attempts**, and the break. -/
lemma settled_attempts (hleave : s.protocol = .cv6xx → leaveOut) (attempt left : ℕ)
    (lastError : Option String) :
    Settled leaveOut w (s.attempts attempt left lastError >>= s.finish) script := by
  induction left generalizing attempt lastError w script with
  | zero => exact settled_finish _
  | succ left ih =>
      have hsend : ∀ sent w script,
          Settled leaveOut w (afterSend (s.attempts (attempt + 1) left) left sent >>= s.finish)
            script := by
        intro sent w script
        rw [afterSend]
        split
        · exact settled_finish _
        · split
          · exact ih _ _
          · exact settled_finish _
      have hnext : ∀ sent : SessionResult, sent.success = true → NextWrite (frameLabel · ≠ .tail)
          (afterSend (s.attempts (attempt + 1) left) left sent >>= s.finish) := by
        intro sent hsuccess
        rw [afterSend, if_pos hsuccess]
        exact nextWrite_finish sent
      rw [attempts, bind_assoc]
      refine settled_handshake attempt (fun a b hab => ?_) fun result w script => ?_
      · rw [afterHandshake, afterHandshake, if_pos hab.1, if_pos hab.2]
      · cases result with
        | error message => exact settled_finish _
        | ok handshake =>
            rw [afterHandshake]
            split
            · rw [bind_assoc]
              cases hprotocol : s.protocol with
              | v500 => exact HiSiliconV500.settled_sendFirmware _ hsend hnext
              | cv6xx =>
                  exact HiSiliconCV6xx.settled_sendFirmware _ _ _ (hleave hprotocol) hsend hnext
            · split
              · exact ih _ _
              · exact .raise _

/-- The session writes the same and has the same result over the transport for macOS as over the
plain one. -/
def SameOnMacOS (s : RecoverySession) (script : List (Reading UInt8)) : Prop :=
  writes (s.runOver .darwin script).trace = writes (s.runOver .other script).trace ∧
    (s.runOver .darwin script).result = (s.runOver .other script).result

lemma runOver_other (script : List (Reading UInt8)) : s.runOver .other script = s.run script := by
  rw [runOver]
  exact congrArg s.run (List.map_id script)

lemma runOver_darwin (script : List (Reading UInt8)) :
    s.runOver .darwin script = s.run (corrected script) := rfl

/-- **A session over the transport for macOS is the same when no NAK is read in a place that
decides, and only then.**  The second part leaves out the runs of a CV6xx in which the byte that
confirms the board ID is a NAK. -/
theorem macOS_same_iff (s : RecoverySession) (script : List (Reading UInt8)) :
    (NoNak Waiting.decides .nothing (s.runOver .other script).trace → s.SameOnMacOS script) ∧
    ((s.protocol = .cv6xx → NoNak Waiting.isCheck .nothing (s.runOver .other script).trace) →
      s.SameOnMacOS script →
      NoNak Waiting.decides .nothing (s.runOver .other script).trace) := by
  have hsettled : Settled (s.protocol = .cv6xx) .nothing s.run script :=
    settled_attempts id _ _ _
  rw [SameOnMacOS, runOver_other, runOver_darwin]
  exact ⟨hsettled.same, hsettled.noNak⟩

/-- A V500 with a firmware of zeros. -/
def v500Session : RecoverySession := ⟨.v500, List.replicate 1028 0, none, false, 2, fun _ => 0⟩

/-- An answer to the handshake. -/
def v500Answer : List (Reading UInt8) :=
  ([0xBD, 0x00, 0, 0, 0, 0, 0, 0, 0x72, 0x05, 0x05, 0x00, 0, 0] : List UInt8).map .item

/-- A NAK where nothing is decided: in the chip ID of the answer. -/
theorem macOS_same_acked :
    v500Session.SameOnMacOS (v500Answer.set 8 (.item 0x55) ++ List.replicate 10 (.item 0xAA)) :=
  (macOS_same_iff _ _).1 (by decide +kernel)

/-- A device that rejects every frame: the plain session gives up at the first one, and on macOS
every frame counts as accepted and success is reported. -/
theorem macOS_accepts_rejected_frames :
    let script := v500Answer ++ List.replicate 10 (.item 0x55)
    (v500Session.runOver .other script).result = .ok (.failed [] "Failed to send HEAD area") ∧
      (v500Session.runOver .darwin script).result =
        .ok (.done [.headArea, .auxArea, .bootImage, .complete]) ∧
      ¬ v500Session.SameOnMacOS script := by
  refine ⟨by decide +kernel, by decide +kernel, fun hsame => ?_⟩
  exact absurd hsame.2 (by decide +kernel)

end RecoverySession

end Defib
