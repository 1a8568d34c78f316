import Defib.Agent.MemoryRead

/-!
# The host's read

`read_memory` of the agent client, as a fold over the packets it receives, and the link it
receives them from: `Degraded` relates what the agent sent to any stream in which data packets
are missing and `READY` packets have been put in between.

The sequence check alone would miss packets lost at the end; what rules out wrong data is the
final length check.  Whatever the loop keeps is a sublist of the data that was sent
(`readMemoryLoop_degraded`), so a result of the full length is all of it.
-/

namespace Defib

/-! ## `read_memory` -/

/-- Python's `#010x` format. -/
def hexString8 (n : ℕ) : String :=
  let digits := Nat.toDigits 16 n
  "0x" ++ String.ofList (List.replicate (8 - digits.length) '0' ++ digits)

/-- Python's `02x` format. -/
def hexString2 (n : ℕ) : String :=
  let digits := Nat.toDigits 16 n
  String.ofList (List.replicate (2 - digits.length) '0' ++ digits)

/-- The receive loop of `read_memory`.  When the packets run out, `recv_packet` times out. -/
def readMemoryLoop (addr size : ℕ) :
    List UInt8 → ℕ → List Packet → Except String (List UInt8)
  | _, _, [] => .error "No packet received within 60.0s"
  | received, expectedSeq, p :: ps =>
      if p.cmd = rspReady then readMemoryLoop addr size received expectedSeq ps
      else if p.cmd = rspData ∧ p.data.length > 2 then
        let seq := (p.data.getD 0 0).toNat + (p.data.getD 1 0).toNat * 256
        if seq ≠ expectedSeq then
          .error ("Read packet seq gap at offset " ++ toString received.length ++ " (addr="
            ++ hexString8 (addr + received.length) ++ "): expected seq=" ++ toString expectedSeq
            ++ ", got seq=" ++ toString seq ++ "; likely UART corruption on a long stream. "
            ++ "Try a smaller read or a lower baud.")
        else
          readMemoryLoop addr size (received ++ p.data.drop 2) ((expectedSeq + 1) % 2 ^ 16) ps
      else if p.cmd = rspAck then
        let status := p.data.getD 0 0
        if status ≠ ackOk then
          .error ("Read rejected by agent: status=0x" ++ hexString2 status.toNat ++ " ("
            ++ (if status = ackFlashError then
                "outside agent's readable whitelist or flash read failed" else "agent error")
            ++ "); addr=" ++ hexString8 addr ++ " size=" ++ toString size)
        else if received.length ≠ size then
          .error ("Read returned " ++ toString received.length ++ " bytes but agent ACKed for "
            ++ toString size ++ "; addr=" ++ hexString8 addr)
        else .ok received
      else .error ("Unexpected response: cmd=0x" ++ hexString2 p.cmd.toNat)

/-- The `CMD_READ` payload, where `struct.pack` can encode it. -/
def readRequest (addr size : ℕ) : Except String (List UInt8) :=
  if addr < 2 ^ 32 ∧ size < 2 ^ 32 then .ok (packU32 addr ++ packU32 size)
  else .error "argument out of range"

/-- `read_memory` against the stream of packets that comes back. -/
def readMemory (addr size : ℕ) (stream : List UInt8 → List Packet) : Except String (List UInt8) :=
  match readRequest addr size with
  | .error e => .error e
  | .ok request => readMemoryLoop addr size [] 0 (stream request)

/-! ## A lossy link -/

/-- A stream with some data packets deleted and `READY` packets inserted. -/
inductive Degraded : List Packet → List Packet → Prop
  | nil : Degraded [] []
  | keep (p : Packet) {s t : List Packet} (h : Degraded s t) : Degraded (p :: s) (p :: t)
  | drop (p : Packet) (hp : p.cmd = rspData) {s t : List Packet} (h : Degraded s t) :
      Degraded (p :: s) t
  | ready (p : Packet) (hp : p.cmd = rspReady) {s t : List Packet} (h : Degraded s t) :
      Degraded s (p :: t)

lemma Degraded.refl (s : List Packet) : Degraded s s := by
  induction s with
  | nil => exact .nil
  | cons p s ih => exact .keep p ih

/-- The shape of every reply to a read: data packets, then one ACK. -/
inductive ReadShape : List Packet → Prop
  | ack (status : UInt8) : ReadShape [ackPacket status]
  | data (p : Packet) (hp : p.cmd = rspData) {s : List Packet} (h : ReadShape s) :
      ReadShape (p :: s)

lemma ReadShape.ne_nil {s : List Packet} (h : ReadShape s) : s ≠ [] := by
  cases h <;> simp

lemma readLoop_shape (fetch : ℕ → ℕ → Option (List UInt8)) (seq : ℕ) (ps : List (ℕ × ℕ)) :
    ReadShape (readLoop fetch seq ps) := by
  induction ps generalizing seq with
  | nil => exact .ack _
  | cons p ps ih =>
      rw [readLoop]
      cases fetch p.1 p.2 with
      | none => exact .ack _
      | some bytes => exact .data _ rfl (ih _)

lemma handleRead_shape (b : Board) (m : Machine) (data : List UInt8) :
    ReadShape (handleRead b m data) := by
  unfold handleRead readReply
  split
  · exact .ack _
  · split
    · exact readLoop_shape _ _ _
    · exact .ack _

lemma payload_cons_data {p : Packet} (hp : p.cmd = rspData) (s : List Packet) :
    payload (p :: s) = p.data.drop 2 ++ payload s := by
  simp [payload, dataPackets, hp]

lemma ackedOk_cons {p : Packet} {s : List Packet} (hne : s ≠ []) (h : AckedOk s) :
    AckedOk (p :: s) := by
  rw [AckedOk, List.getLast?_cons_of_ne_nil hne]
  exact h

lemma readMemoryLoop_ack_inv {addr size : ℕ} {received : List UInt8} {expectedSeq : ℕ}
    {status : UInt8} {t : List Packet} {bs : List UInt8}
    (h : readMemoryLoop addr size received expectedSeq (ackPacket status :: t) = .ok bs) :
    status = ackOk ∧ received.length = size ∧ bs = received := by
  simp only [readMemoryLoop, ackPacket, show rspAck ≠ rspReady by decide,
    show rspAck ≠ rspData by decide, false_and, if_false, if_true, List.getD_cons_zero] at h
  by_cases hok : status = ackOk
  · by_cases hlen : received.length = size
    · simp only [hok, hlen, ne_eq, not_true, if_false, Except.ok.injEq] at h
      exact ⟨hok, hlen, h.symm⟩
    · simp [hok, hlen] at h
  · simp [hok] at h

lemma readMemoryLoop_data_inv {addr size : ℕ} {received : List UInt8} {expectedSeq : ℕ}
    {p : Packet} (hp : p.cmd = rspData) {t : List Packet} {bs : List UInt8}
    (h : readMemoryLoop addr size received expectedSeq (p :: t) = .ok bs) :
    ∃ next, readMemoryLoop addr size (received ++ p.data.drop 2) next t = .ok bs := by
  simp only [readMemoryLoop, hp, show rspData ≠ rspReady by decide,
    show rspData ≠ rspAck by decide, if_false, true_and] at h
  by_cases hlen : p.data.length > 2
  · rw [if_pos hlen] at h
    split at h
    · cases h
    · exact ⟨_, h⟩
  · rw [if_neg hlen] at h
    cases h

/-- **What a read returns under loss.**  Only an acknowledged reply is returned, at the requested
length, and what is kept of it is a sublist of its data. -/
lemma readMemoryLoop_degraded {addr size : ℕ} {s t : List Packet} (hdeg : Degraded s t)
    (hshape : ReadShape s) {received : List UInt8} {expectedSeq : ℕ} {bs : List UInt8}
    (h : readMemoryLoop addr size received expectedSeq t = .ok bs) :
    AckedOk s ∧ bs.length = size ∧ ∃ kept, bs = received ++ kept ∧ kept.Sublist (payload s) := by
  induction hdeg generalizing received expectedSeq with
  | nil => cases hshape
  | keep p hdeg ih =>
      cases hshape with
      | ack status =>
          obtain ⟨rfl, hlen, rfl⟩ := readMemoryLoop_ack_inv h
          exact ⟨rfl, hlen, [], by simp, List.nil_sublist _⟩
      | data _ hp hshape =>
          obtain ⟨next, hnext⟩ := readMemoryLoop_data_inv hp h
          obtain ⟨hack, hlen, kept, hbs, hsub⟩ := ih hshape hnext
          refine ⟨ackedOk_cons hshape.ne_nil hack, hlen, p.data.drop 2 ++ kept, by simp [hbs], ?_⟩
          rw [payload_cons_data hp]
          exact hsub.append_left _
  | drop p hp hdeg ih =>
      cases hshape with
      | ack status => cases hp
      | data _ _ hshape =>
          obtain ⟨hack, hlen, kept, hbs, hsub⟩ := ih hshape h
          refine ⟨ackedOk_cons hshape.ne_nil hack, hlen, kept, hbs, ?_⟩
          rw [payload_cons_data hp]
          exact hsub.trans (List.sublist_append_right _ _)
  | ready p hp hdeg ih =>
      simp only [readMemoryLoop, hp, if_true] at h
      exact ih hshape h

/-! ## A perfect link -/

/-- Without loss, `read_memory` returns everything the loop of `handle_read` sends. -/
lemma readMemoryLoop_readLoop {addr size : ℕ} {fetch : ℕ → ℕ → Option (List UInt8)}
    {read : ℕ → ℕ → List UInt8} (ps : List (ℕ × ℕ)) (received : List UInt8) (seq : ℕ)
    (hseq : seq < 2 ^ 16)
    (hfetch : ∀ p ∈ ps, fetch p.1 p.2 = some (read p.1 p.2))
    (hne : ∀ p ∈ ps, read p.1 p.2 ≠ [])
    (hlen : (received ++ ps.flatMap fun p => read p.1 p.2).length = size) :
    readMemoryLoop addr size received seq (readLoop fetch seq ps) =
      .ok (received ++ ps.flatMap fun p => read p.1 p.2) := by
  induction ps generalizing received seq with
  | nil =>
      simp only [List.flatMap_nil, List.append_nil] at hlen ⊢
      simp [readLoop, readMemoryLoop, ackPacket, rspAck, rspReady, rspData, hlen]
  | cons p ps ih =>
      have hp := hfetch p (by simp)
      have hbytes : 2 < (packU16 seq ++ read p.1 p.2).length := by
        have := List.length_pos_iff.mpr (hne p (by simp))
        simp [packU16]
        omega
      have hnum : ((packU16 seq ++ read p.1 p.2).getD 0 0).toNat +
          ((packU16 seq ++ read p.1 p.2).getD 1 0).toNat * 256 = seq := by
        simp [packU16]
        omega
      rw [List.flatMap_cons, ← List.append_assoc] at hlen ⊢
      simp only [readLoop, hp, readMemoryLoop, show rspData ≠ rspReady by decide, if_false,
        true_and, gt_iff_lt, hbytes, if_true, hnum, ne_eq, not_true]
      have hdrop : (packU16 seq ++ read p.1 p.2).drop 2 = read p.1 p.2 := rfl
      rw [hdrop]
      exact ih _ _ (Nat.mod_lt _ (by omega)) (fun q hq => hfetch q (by simp [hq]))
        (fun q hq => hne q (by simp [hq])) hlen

/-- The request as `handle_read` decodes it. -/
lemma handleRead_request {addr size : ℕ} (haddr : addr < 2 ^ 32) (hsize : size < 2 ^ 32)
    (b : Board) (m : Machine) :
    handleRead b m (packU32 addr ++ packU32 size) = readReply b m addr size := by
  have hdrop : (packU32 addr ++ packU32 size).drop 4 = packU32 size := rfl
  rw [handleRead, if_neg (by simp [packU32]), hdrop, readLe32_packU32_append, readLe32_packU32,
    Nat.mod_eq_of_lt haddr, Nat.mod_eq_of_lt hsize]

/-- **A read over a perfect link** returns the data of the reply. -/
lemma readMemory_of_ackedOk {b : Board} {m : Machine} {addr size : ℕ} (haddr : addr < 2 ^ 32)
    (hsize : size < 2 ^ 32) (hack : AckedOk (readReply b m addr size)) :
    readMemory addr size (handleRead b m) = .ok ((sent b m addr size).load 0 size) := by
  obtain ⟨hacc, hfetch⟩ := fetch_of_ackedOk hack
  have hall : ((chunks b addr size).flatMap fun p => (sent b m addr size).load p.1 p.2) =
      (sent b m addr size).load 0 size :=
    Cut.flatMap_pieces_load _ _ _ 0 size fun p _ => rfl
  have hne : ∀ p ∈ chunks b addr size, (sent b m addr size).load p.1 p.2 ≠ [] := by
    intro p hp
    have := (Cut.mem_pieces _ hp).2.1
    rw [← List.length_pos_iff, Store.length_load]
    exact this
  simp only [readMemory, readRequest, haddr, hsize, and_self, if_true]
  rw [handleRead_request haddr hsize, readReply, if_pos hacc,
    readMemoryLoop_readLoop (chunks b addr size) [] 0 (by omega) hfetch hne
      (by rw [List.nil_append, hall, Store.length_load]),
    List.nil_append, hall]

end Defib
