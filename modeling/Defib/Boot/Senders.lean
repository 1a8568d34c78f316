import Defib.Boot.Acked

/-!
# The senders of the newer bootroms

`_send_data_to_bootrom` of `protocol/hisilicon_v500.py` and of `protocol/hisilicon_cv6xx.py`: a
transfer whose frames are written once and again for every NAK, until one is answered.  The two
protocols have the same code, and their senders are one definition here.

The loop over the data counts its own chunks.  `sendDataToBootrom_eq` says that it is the loop over
a list of frames, `sendAll`, and `sendAll_of_acksEvery` what such a loop writes to a device that
ACKs every frame.
-/

namespace Defib

/-- `b"U"`. -/
def nakByte : UInt8 := 0x55

/-! ## One frame -/

/-- The loop of `_send_frame_wait_ack`, with its `retries`. -/
def waitAckLoop (data : List UInt8) (maxRetries retries : ℕ) (script : List (Reading UInt8)) :
    HostOutcome Bool :=
  if retries < maxRetries then
    match script with
    | [] => ⟨.ok false, [], [.read .expired]⟩
    | .expired :: rest => ⟨.ok false, rest, [.read .expired]⟩
    | .timeout :: rest => ⟨.ok false, rest, [.read .timeout]⟩
    | .item b :: rest =>
        if b = ackByte then ⟨.ok true, rest, [.read (.item b)]⟩
        else if b = nakByte then
          ((waitAckLoop data maxRetries (retries + 1) rest).cons (.write data)).cons
            (.read (.item b))
        else (waitAckLoop data maxRetries retries rest).cons (.read (.item b))
  else ⟨.ok false, script, []⟩

def waitAck (data : List UInt8) (maxRetries : ℕ) : Host Bool := waitAckLoop data maxRetries 0

/-- `_send_frame_wait_ack`, with the number of NAKs it bears. -/
def frameWaitAck (maxRetries : ℕ) (data : List UInt8) : Host Bool := do
  Scripted.write data
  waitAck data maxRetries

/-! ## A transfer -/

/-- The loop over the data of `_send_data_to_bootrom`. -/
def sendRemaining (send : ℕ → List UInt8 → Host Bool) (data : List UInt8)
    (idx pos remaining : ℕ) : Host Bool :=
  if 0 < remaining then do
    let chunkSize := min 1024 remaining
    let acked ← send (idx + 1) ((data.drop pos).take chunkSize)
    if acked then sendRemaining send data (idx + 1) (pos + chunkSize) (remaining - chunkSize)
    else pure false
  else pure true
termination_by remaining
decreasing_by omega

/-- `struct.pack(">I", n)`. -/
def structPackBe32 (n : ℕ) : Except String (List UInt8) :=
  if n < 2 ^ 32 then .ok (packBe32 n) else .error "argument out of range"

/-- `_send_data_to_bootrom`, given its way to send a frame. -/
def sendDataToBootrom (send : List UInt8 → Host Bool) (data : List UInt8) (address : ℕ) :
    Host Bool := do
  let total := data.length
  let length ← Scripted.lift (structPackBe32 total)
  let target ← Scripted.lift (structPackBe32 address)
  let headAcked ← send (appendCrc ([0xFE, 0x00, 0xFF, 0x01] ++ length ++ target))
  if headAcked then
    let dataAcked ← sendRemaining
      (fun idx chunk => send (appendCrc ([0xDA, UInt8.ofNat idx, ~~~UInt8.ofNat idx] ++ chunk)))
      data 0 0 total
    if dataAcked then
      let count := (total + 1023) / 1024 + 1
      send (appendCrc [0xED, UInt8.ofNat count, ~~~UInt8.ofNat count])
    else pure false
  else pure false

/-- `HiSiliconV500._send_frame_wait_ack`, with `MAX_NAK_RETRIES`. -/
def HiSiliconV500.sendFrameWaitAck : List UInt8 → Host Bool := frameWaitAck 10

/-- `HiSiliconV500._send_data_to_bootrom`. -/
def HiSiliconV500.sendDataToBootrom : List UInt8 → ℕ → Host Bool :=
  Defib.sendDataToBootrom HiSiliconV500.sendFrameWaitAck

/-- `HiSiliconCV6xx._send_frame_wait_ack`. -/
def HiSiliconCV6xx.sendFrameWaitAck : List UInt8 → Host Bool := frameWaitAck 10

/-- `HiSiliconCV6xx._send_data_to_bootrom`. -/
def HiSiliconCV6xx.sendDataToBootrom : List UInt8 → ℕ → Host Bool :=
  Defib.sendDataToBootrom HiSiliconCV6xx.sendFrameWaitAck

/-! ## A list of frames -/

/-- Send one after the other until one fails. -/
def sendAll {κ : Type} (send : κ → Host Bool) : List κ → Host Bool
  | [] => pure true
  | k :: ks => do
      let acked ← send k
      if acked then sendAll send ks else pure false

section

variable {κ : Type} {send : κ → Host Bool}

lemma sendAll_append (ks ks' : List κ) :
    sendAll send (ks ++ ks') = (do
      let acked ← sendAll send ks
      if acked then sendAll send ks' else pure false) := by
  induction ks with
  | nil => simp [sendAll]
  | cons k ks ih =>
      simp only [List.cons_append, sendAll, ih, bind_assoc]
      congr 1
      funext acked
      cases acked <;> simp

lemma sendAll_singleton (k : κ) : sendAll send [k] = send k := by
  have hself : ∀ acked : Bool,
      (if acked then pure true else pure false : Host Bool) = pure acked := by
    intro acked
    cases acked <;> rfl
  simp only [sendAll, hself, bind_pure]

end

/-- The chunks from a position on, with their numbers. -/
lemma sendRemaining_eq (frame : ℕ → List UInt8 → List UInt8) (send : List UInt8 → Host Bool)
    (hframe : ∀ seq chunk, frame seq chunk = dataFrame seq chunk) (data : List UInt8)
    (idx pos remaining : ℕ) (hremaining : remaining = data.length - pos) :
    sendRemaining (fun seq chunk => send (frame seq chunk)) data idx pos remaining =
      sendAll send (dataFrames (idx + 1) (chunkData (data.drop pos) maxDataLen)) := by
  induction remaining using Nat.strongRecOn generalizing idx pos with
  | ind remaining ih =>
      rw [sendRemaining]
      split
      · rename_i hpos
        have hlength : 0 < (data.drop pos).length := by
          rw [List.length_drop]
          omega
        have htake : (data.drop pos).take (min 1024 remaining) =
            (data.drop pos).take maxDataLen := by
          rw [List.take_eq_take_iff, List.length_drop, maxDataLen]
          omega
        have hdrop : data.drop (pos + min 1024 remaining) =
            (data.drop pos).drop maxDataLen := by
          rw [List.drop_drop, List.drop_eq_drop_iff, maxDataLen]
          omega
        have hrest := ih (remaining - min 1024 remaining) (by omega) (idx + 1)
          (pos + min 1024 remaining) (by omega)
        rw [chunkData_of_pos (by simp [maxDataLen]) hlength, dataFrames, sendAll, ← hdrop, ← hrest,
          ← htake, ← hframe]
      · rename_i hpos
        have hnil : data.drop pos = [] := by
          rw [List.drop_eq_nil_iff]
          omega
        rw [hnil, chunkData_nil _ (by simp [maxDataLen])]
        rfl

/-- **A sender sends the frames of a transfer.** -/
lemma sendDataToBootrom_eq (send : List UInt8 → Host Bool) {data : List UInt8} {address : ℕ}
    (hlength : data.length < 2 ^ 32) (haddress : address < 2 ^ 32) :
    sendDataToBootrom send data address =
      sendAll send (transferFrames data.length address (chunkData data maxDataLen)) := by
  have hdata := sendRemaining_eq
    (fun idx chunk => appendCrc ([0xDA, UInt8.ofNat idx, ~~~UInt8.ofNat idx] ++ chunk))
    send (fun _ _ => rfl) data 0 0 data.length (by omega)
  have hcount : (data.length + 1023) / 1024 = (chunkData data maxDataLen).length := by
    rw [length_chunkData, maxDataLen]
    congr 1
  rw [sendDataToBootrom, structPackBe32, structPackBe32, if_pos hlength, if_pos haddress, hdata,
    transferFrames, sendAll, sendAll_append, sendAll_singleton, hcount]
  rfl

/-! ## A device that ACKs every frame -/

/-- The program sends a frame: what it does first is `before` and then the write, and an ACK right
after it is what it waits for. -/
structure Sends (before : List HostEvent) (frame : List UInt8) (p : Host Bool) : Prop where
  acked : ∀ tail, p (.item ackByte :: tail) =
    ⟨.ok true, tail, before ++ [.write frame, .read (.item ackByte)]⟩
  first : ∀ script, ∃ es, (p script).trace =
    before ++ .write frame :: .read (script.headD .expired) :: es

/-- The frames that a trace writes. -/
def writes (trace : List HostEvent) : List (List UInt8) :=
  trace.filterMap fun
    | .write bytes => some bytes
    | _ => none

lemma mem_writes {frame : List UInt8} {trace : List HostEvent} :
    frame ∈ writes trace ↔ .write frame ∈ trace := by
  rw [writes, List.mem_filterMap]
  constructor
  · rintro ⟨e, he, hframe⟩
    cases e with
    | write bytes => exact Option.some.inj hframe ▸ he
    | flush => cases hframe
    | read r => cases hframe
    | note n => cases hframe
  · exact fun h => ⟨_, h, rfl⟩

lemma frameWaitAck_sends {maxRetries : ℕ} (hpos : 0 < maxRetries) (frame : List UInt8) :
    Sends [] frame (frameWaitAck maxRetries frame) where
  acked tail := by
    rw [frameWaitAck, Scripted.write_bind_apply, waitAck, waitAckLoop, if_pos hpos]
    rfl
  first script := by
    rw [frameWaitAck, Scripted.write_bind_apply, waitAck, waitAckLoop.eq_def, if_pos hpos]
    rcases script with _ | ⟨b | _ | _, rest⟩
    · exact ⟨_, rfl⟩
    · simp only
      split
      · exact ⟨_, rfl⟩
      · split
        · exact ⟨_, rfl⟩
        · exact ⟨_, rfl⟩
    · exact ⟨_, rfl⟩
    · exact ⟨_, rfl⟩

section

variable {κ : Type} {send : κ → Host Bool} {frame : κ → List UInt8} {before : List HostEvent}

/-- What a loop over frames does when each is ACKed. -/
lemma sendAll_acked {ks : List κ} (hsends : ∀ k ∈ ks, Sends before (frame k) (send k))
    (tail : List (Reading UInt8)) :
    sendAll send ks (List.replicate ks.length (.item ackByte) ++ tail) =
      ⟨.ok true, tail, ks.flatMap fun k =>
        before ++ [.write (frame k), .read (.item ackByte)]⟩ := by
  induction ks with
  | nil => rfl
  | cons k ks ih =>
      have hk := (hsends k (by simp)).acked
        (List.replicate ks.length (.item ackByte) ++ tail)
      have hok : (send k (.item ackByte ::
          (List.replicate ks.length (.item ackByte) ++ tail))).result = .ok true := by rw [hk]
      rw [List.length_cons, List.replicate_succ, List.cons_append, sendAll,
        Scripted.bind_of_ok hok, hk]
      simp only [if_true]
      rw [ih fun j hj => hsends j (by simp [hj])]
      rfl

/-- A device that ACKs every frame sends an ACK for each, and nothing else. -/
lemma script_of_acksEvery {ks : List κ} (hsends : ∀ k ∈ ks, Sends before (frame k) (send k))
    (hframes : ∀ k ∈ ks, frame k ≠ [bootmodeAck]) {script : List (Reading UInt8)}
    {rest : List HostEvent} (h : AcksEvery ((sendAll send ks script).trace ++ rest)) :
    ∃ tail, script = List.replicate ks.length (.item ackByte) ++ tail := by
  induction ks generalizing script with
  | nil => exact ⟨script, rfl⟩
  | cons k ks ih =>
      obtain ⟨es, hfirst⟩ := (hsends k (by simp)).first script
      obtain ⟨es', htrace⟩ := Scripted.trace_bind (send k)
        (fun acked => if acked then sendAll send ks else pure false) script
      have hread : script.headD .expired = .item ackByte := by
        rw [sendAll, htrace, hfirst, List.append_assoc, List.append_assoc] at h
        simpa using h.of_append.1 (hframes k (by simp))
      obtain ⟨tail, rfl⟩ := HiSiliconStandard.eq_cons_of_headD hread
      have hacked := (hsends k (by simp)).acked tail
      have hok : (send k (.item ackByte :: tail)).result = .ok true := by rw [hacked]
      rw [sendAll, Scripted.bind_of_ok hok, hacked, Scripted.Outcome.prepend_trace,
        List.append_assoc] at h
      obtain ⟨tail', rfl⟩ := ih (fun j hj => hsends j (by simp [hj]))
        (fun j hj => hframes j (by simp [hj])) h.of_append
      exact ⟨tail', rfl⟩

lemma writes_append (es es' : List HostEvent) : writes (es ++ es') = writes es ++ writes es' :=
  List.filterMap_append

lemma writes_flatMap (hbefore : writes before = []) (ks : List κ) :
    writes (ks.flatMap fun k => before ++ [.write (frame k), .read (.item ackByte)]) =
      ks.map frame := by
  induction ks with
  | nil => rfl
  | cons k ks ih =>
      rw [List.flatMap_cons, writes_append, writes_append, hbefore, ih]
      rfl

/-- **A loop over frames, with a device that ACKs every frame**, writes each of them once. -/
lemma sendAll_of_acksEvery {ks : List κ} (hsends : ∀ k ∈ ks, Sends before (frame k) (send k))
    (hbefore : writes before = []) (hframes : ∀ k ∈ ks, frame k ≠ [bootmodeAck])
    {script : List (Reading UInt8)} (h : AcksEvery (sendAll send ks script).trace) :
    (sendAll send ks script).result = .ok true ∧
      writes (sendAll send ks script).trace = ks.map frame := by
  rw [← List.append_nil (sendAll send ks script).trace] at h
  obtain ⟨tail, rfl⟩ := script_of_acksEvery hsends hframes h
  rw [sendAll_acked hsends]
  exact ⟨rfl, writes_flatMap hbefore ks⟩

lemma AcksEvery.of_writes_eq_nil {es : List HostEvent} (h : writes es = []) : AcksEvery es := by
  induction es with
  | nil => trivial
  | cons e es ih =>
      cases e with
      | write bytes => cases h
      | flush => exact ih h
      | read r => exact ih h
      | note n => exact ih h

/-- There is such a device. -/
lemma exists_acksEvery_sendAll {ks : List κ} (hsends : ∀ k ∈ ks, Sends before (frame k) (send k))
    (hbefore : writes before = []) : ∃ script, AcksEvery (sendAll send ks script).trace := by
  refine ⟨List.replicate ks.length (.item ackByte) ++ [], ?_⟩
  rw [sendAll_acked hsends]
  clear hsends
  induction ks with
  | nil => trivial
  | cons k ks ih =>
      have hframe : AcksEvery [.write (frame k), .read (.item ackByte)] :=
        ⟨fun _ => rfl, trivial⟩
      rw [List.flatMap_cons]
      exact ((AcksEvery.of_writes_eq_nil hbefore).append hframe).append ih

end

end Defib
