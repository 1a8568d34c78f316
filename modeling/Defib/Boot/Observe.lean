import Defib.Boot.Upload

/-!
# What a listener on the line records

`Log.observe` follows the events of an upload the way a listener would: a frame that is written for
the first time opens an entry, a repetition of the last frame belongs to the entry that is there,
handshake writes are left out, and an ACK that is read while an attempt is waiting marks the entry.
The entries of a run are the frames it sent, retransmissions merged, each with its stage and whether
it was ACKed.

`performUpload_observed` describes them for every script: they are a prefix of the plan, and a
stage is credited exactly when the frames of it that matter were ACKed.
-/

namespace Defib

/-- A frame that was sent. -/
structure Entry where
  stage : Stage
  frame : List UInt8
  acked : Bool
  deriving DecidableEq, Repr

/-- The record of a listener, the newest entry first. -/
structure Log where
  stage : Stage
  entries : List Entry
  /-- An attempt is waiting for its ACK. -/
  waiting : Bool
  deriving DecidableEq, Repr

namespace Log

def empty : Log := ⟨.ddrInit, [], false⟩

def lastFrame (l : Log) : Option (List UInt8) := l.entries.head?.map Entry.frame

def wrote (l : Log) (bytes : List UInt8) : Log :=
  if bytes.head? = some bootmodeAck then l
  else if l.lastFrame = some bytes then { l with waiting := true }
  else { l with entries := ⟨l.stage, bytes, false⟩ :: l.entries, waiting := true }

def acknowledged (l : Log) : Log :=
  match l.entries with
  | [] => { l with waiting := false }
  | e :: es => { l with entries := { e with acked := true } :: es, waiting := false }

def observe (l : Log) : HostEvent → Log
  | .write bytes => l.wrote bytes
  | .flush => l
  | .note stage => { l with stage := stage }
  | .read (.item b) => if b = ackByte ∧ l.waiting then l.acknowledged else l
  | .read .timeout => { l with waiting := false }
  | .read .expired => { l with waiting := false }

end Log

/-- The frames a run has sent, in order. -/
def observed (trace : List HostEvent) : List Entry :=
  (trace.foldl Log.observe Log.empty).entries.reverse

/-- The part of an entry that does not depend on the device. -/
def Entry.key (e : Entry) : Stage × List UInt8 := (e.stage, e.frame)

namespace HiSiliconStandard

lemma head?_ne_of_label {bytes : List UInt8} (h : frameLabel bytes ≠ .unknown) :
    bytes.head? ≠ some bootmodeAck := by
  intro hhead
  cases bytes with
  | nil => simp at hhead
  | cons b bs =>
      simp only [List.head?_cons, Option.some.injEq, bootmodeAck] at hhead
      subst hhead
      exact h (by simp [frameLabel, headMagic, dataMagic, tailMagic])

/-! ## Frames -/

/-- The reads of an attempt mark the open entry or leave it. -/
lemma foldl_awaitAck (script : List (Reading UInt8)) (stage : Stage) {e : Entry}
    (he : e.acked = false) (es : List Entry) :
    ∃ acked, (awaitAck script).result = .ok acked ∧
      (awaitAck script).trace.foldl Log.observe ⟨stage, e :: es, true⟩ =
        ⟨stage, { e with acked := acked } :: es, false⟩ := by
  have hsame : { e with acked := false } = e := by rw [← he]
  change ∃ acked, (awaitAckLoop script).result = .ok acked ∧
    (awaitAckLoop script).trace.foldl Log.observe ⟨stage, e :: es, true⟩ = _
  induction script with
  | nil => exact ⟨false, rfl, by simp [awaitAckLoop, Log.observe, hsame]⟩
  | cons r script ih =>
      cases r with
      | timeout => exact ⟨false, rfl, by simp [awaitAckLoop, Log.observe, hsame]⟩
      | expired => exact ⟨false, rfl, by simp [awaitAckLoop, Log.observe, hsame]⟩
      | item b =>
          rw [awaitAckLoop]
          by_cases hb : b = ackByte
          · rw [if_pos hb]
            exact ⟨true, rfl, by simp [Log.observe, Log.acknowledged, hb]⟩
          · rw [if_neg hb]
            simpa [Log.observe, hb] using ih

/-- **One attempt** at a frame marks its entry, or leaves it to the attempts that follow. -/
lemma foldl_attempt {bytes : List UInt8} {retries : ℕ} {stage : Stage} {e : Entry}
    (he : e.acked = false) {es : List Entry} {l : Log}
    (hwrote : l.wrote bytes = ⟨stage, e :: es, true⟩)
    (hnext : ∀ script, ∃ acked, (sendFrameWithRetry bytes retries script).result = .ok acked ∧
      (sendFrameWithRetry bytes retries script).trace.foldl Log.observe ⟨stage, e :: es, false⟩ =
        ⟨stage, { e with acked := acked } :: es, false⟩) (script : List (Reading UInt8)) :
    ∃ acked, (sendFrameWithRetry bytes (retries + 1) script).result = .ok acked ∧
      (sendFrameWithRetry bytes (retries + 1) script).trace.foldl Log.observe l =
        ⟨stage, { e with acked := acked } :: es, false⟩ := by
  obtain ⟨acked, hresult, hlog⟩ := foldl_awaitAck script stage he es
  rw [sendFrameWithRetry, Scripted.flush_bind_apply, Scripted.write_bind_apply,
    Scripted.bind_of_ok hresult]
  simp only [Scripted.Outcome.cons_trace, Scripted.Outcome.cons_result,
    Scripted.Outcome.prepend_trace, Scripted.Outcome.prepend_result, List.foldl_cons,
    Log.observe, hwrote, List.foldl_append, hlog]
  cases acked with
  | true => exact ⟨true, rfl, rfl⟩
  | false =>
      have hsame : { e with acked := false } = e := by rw [← he]
      rw [hsame]
      exact hnext _

/-- More attempts at the frame of the newest entry. -/
lemma foldl_sendFrameWithRetry_again (retries : ℕ) (script : List (Reading UInt8)) (stage : Stage)
    {e : Entry} (he : e.acked = false) (hlabel : frameLabel e.frame ≠ .unknown)
    (es : List Entry) :
    ∃ acked, (sendFrameWithRetry e.frame retries script).result = .ok acked ∧
      (sendFrameWithRetry e.frame retries script).trace.foldl Log.observe
        ⟨stage, e :: es, false⟩ = ⟨stage, { e with acked := acked } :: es, false⟩ := by
  induction retries generalizing script with
  | zero => exact ⟨false, rfl, by rw [← he]; rfl⟩
  | succ retries ih =>
      have hlast : Log.lastFrame ⟨stage, e :: es, false⟩ = some e.frame := rfl
      have hwrote : Log.wrote ⟨stage, e :: es, false⟩ e.frame = ⟨stage, e :: es, true⟩ := by
        rw [Log.wrote, if_neg (head?_ne_of_label hlabel), if_pos hlast]
      exact foldl_attempt he hwrote ih script

/-- **A frame is one entry**, whatever is read. -/
lemma foldl_sendFrameWithRetry {bytes : List UInt8} {retries : ℕ} (hpos : 0 < retries)
    (hlabel : frameLabel bytes ≠ .unknown) (script : List (Reading UInt8)) {l : Log}
    (hfresh : l.lastFrame ≠ some bytes) :
    ∃ acked, (sendFrameWithRetry bytes retries script).result = .ok acked ∧
      (sendFrameWithRetry bytes retries script).trace.foldl Log.observe l =
        ⟨l.stage, ⟨l.stage, bytes, acked⟩ :: l.entries, false⟩ := by
  obtain ⟨n, rfl⟩ : ∃ n, retries = n + 1 := ⟨retries - 1, by omega⟩
  have hwrote : l.wrote bytes = ⟨l.stage, ⟨l.stage, bytes, false⟩ :: l.entries, true⟩ := by
    rw [Log.wrote, if_neg (head?_ne_of_label hlabel), if_neg hfresh]
  have hagain := fun script => foldl_sendFrameWithRetry_again n script l.stage
    (e := ⟨l.stage, bytes, false⟩) rfl hlabel l.entries
  exact foldl_attempt rfl hwrote hagain script

/-! ## Handshakes -/

lemma observe_read_of_not_waiting {l : Log} (h : l.waiting = false) (r : Reading UInt8) :
    l.observe (.read r) = l := by
  obtain ⟨stage, entries, waiting⟩ := l
  simp only at h
  subst h
  cases r <;> simp [Log.observe]

lemma observe_write_handshake (l : Log) (bytes : List UInt8) :
    l.observe (.write (bootmodeAck :: bytes)) = l := by
  simp [Log.observe, Log.wrote]

lemma foldl_rehandshake (script : List (Reading UInt8)) {l : Log} (h : l.waiting = false) :
    ∃ ok, (rehandshake script).result = .ok ok ∧
      (rehandshake script).trace.foldl Log.observe l = l := by
  change ∃ ok, (rehandshakeLoop 0 script).result = .ok ok ∧
    (rehandshakeLoop 0 script).trace.foldl Log.observe l = l
  generalize 0 = markerCount
  induction script generalizing markerCount with
  | nil => exact ⟨false, rfl, by simp [rehandshakeLoop, observe_read_of_not_waiting h]⟩
  | cons r script ih =>
      cases r with
      | expired => exact ⟨false, rfl, by simp [rehandshakeLoop, observe_read_of_not_waiting h]⟩
      | timeout =>
          rw [rehandshakeLoop]
          split
          · exact ⟨true, rfl, by
              simp [observe_read_of_not_waiting h, observe_write_handshake]⟩
          · exact ⟨true, rfl, by simp [observe_read_of_not_waiting h]⟩
      | item b =>
          rw [rehandshakeLoop]
          split
          · split
            · exact ⟨true, rfl, by
                simp [observe_read_of_not_waiting h, observe_write_handshake]⟩
            · simpa [observe_read_of_not_waiting h] using ih (markerCount + 1)
          · split
            · simpa [observe_read_of_not_waiting h] using ih markerCount
            · exact ⟨true, rfl, by simp [observe_read_of_not_waiting h]⟩

lemma foldl_blastLoop (head : List UInt8) (script : List (Reading UInt8)) {l : Log}
    (h : l.waiting = false) :
    ∃ ok, (blastLoop head script).result = .ok ok ∧
      (blastLoop head script).trace.foldl Log.observe l = l := by
  induction script with
  | nil => exact ⟨false, rfl, by simp [blastLoop, observe_read_of_not_waiting h]⟩
  | cons r script ih =>
      cases r with
      | expired => exact ⟨false, rfl, by simp [blastLoop, observe_read_of_not_waiting h]⟩
      | timeout =>
          simpa [blastLoop, observe_read_of_not_waiting h, observe_write_handshake] using ih
      | item b =>
          rw [blastLoop]
          split
          · refine ⟨true, rfl, ?_⟩
            simp only [List.foldl_cons, List.foldl_nil, observe_write_handshake,
              observe_read_of_not_waiting h]
            rfl
          · simpa [observe_read_of_not_waiting h, observe_write_handshake] using ih

/-- **Blasts leave no entry.** -/
lemma foldl_blast (head : List UInt8) (script : List (Reading UInt8)) {l : Log}
    (h : l.waiting = false) :
    ∃ ok, (blast head script).result = .ok ok ∧
      (blast head script).trace.foldl Log.observe l = l := by
  have hnone : [.write (bootmodeAck :: head), .read .expired].foldl Log.observe l = l := by
    simp only [List.foldl_cons, List.foldl_nil, observe_write_handshake,
      observe_read_of_not_waiting h]
  unfold blast
  split
  · exact ⟨false, rfl, hnone⟩
  · exact ⟨false, rfl, hnone⟩
  · exact foldl_blastLoop head _ h

end HiSiliconStandard
end Defib
