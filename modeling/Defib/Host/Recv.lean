import Defib.Wire.Packet

/-!
# Packet reception on the host

`_recv_packet_sync` and the asynchronous `recv_packet` of `src/defib/agent/protocol.py`.

Bytes reach either function in *reads*, whose boundaries are an accident of the operating
system; between calls, bytes past the last delimiter wait in a leftover buffer.  Both loops
walk a read byte by byte (`walk`), and differ in how they refill: the synchronous one looks at
its buffer on every turn, the asynchronous one drains it once on entry.

The reference is `packets`, a single pass over the unchunked stream.  `calls_sync` and
`calls_async` say that the `n`-th call returns the `n`-th packet of the stream, whatever the
reads were; `packets_eq_frames` says what that packet is in terms of delimiter-terminated
frames, including the effect of the `MAX_PACKET_SIZE` guard.
-/

namespace Defib

/-! ## The two receive loops -/

/-- What a walk over one read ends with: a parsed packet and the bytes after its delimiter,
or the frame accumulated so far. -/
inductive Walk
  | got (pkt : UInt8 × List UInt8) (rest : List UInt8)
  | more (frame : List UInt8)

/-- The `for i, byte in enumerate(data)` loop, identical in `_recv_packet_sync` and in
`_consume`.  A frame that does not parse is dropped, and so is one that outgrows
`MAX_PACKET_SIZE`. -/
def walk : List UInt8 → List UInt8 → Walk
  | frame, [] => .more frame
  | frame, byte :: data =>
      if byte = 0x00 then
        if frame ≠ [] then
          match parsePacket frame with
          | .ok result => .got result data
          | .error _ => walk [] data
        else walk frame data
      else if (frame ++ [byte]).length > maxPacketSize then walk [] data
      else walk (frame ++ [byte]) data

/-- A returned packet with the state left for the next call. -/
structure Received where
  pkt : UInt8 × List UInt8
  leftover : List UInt8
  reads : List (List UInt8)

/-- The `while` loop of `_recv_packet_sync`.  `none` is the timeout: the reads ran out. -/
def syncLoop (frame portbuf : List UInt8) (reads : List (List UInt8)) : Option Received :=
  if portbuf ≠ [] then
    match walk frame portbuf with
    | .got pkt rest => some ⟨pkt, rest, reads⟩
    | .more frame => syncLoop frame [] reads
  else
    match reads with
    | [] => none
    | data :: reads =>
        match walk frame data with
        | .got pkt rest => some ⟨pkt, rest, reads⟩
        | .more frame => syncLoop frame [] reads
termination_by (reads.length, portbuf.length)
decreasing_by
  · exact Prod.Lex.right _ (List.length_pos_of_ne_nil ‹_›)
  · exact Prod.Lex.left _ _ (Nat.lt_succ_self _)

/-- `_recv_packet_sync`. -/
def recvPacketSync (portbuf : List UInt8) (reads : List (List UInt8)) : Option Received :=
  syncLoop [] portbuf reads

/-- The `while` loop of the asynchronous `recv_packet`. -/
def asyncLoop : List UInt8 → List (List UInt8) → Option Received
  | _, [] => none
  | frame, data :: reads =>
      match walk frame data with
      | .got pkt rest => some ⟨pkt, rest, reads⟩
      | .more frame => asyncLoop frame reads

/-- The asynchronous `recv_packet`: drain the leftover first, then read. -/
def recvPacketAsync (leftover : List UInt8) (reads : List (List UInt8)) : Option Received :=
  if leftover ≠ [] then
    match walk [] leftover with
    | .got pkt rest => some ⟨pkt, rest, reads⟩
    | .more frame => asyncLoop frame reads
  else asyncLoop [] reads

/-- The results of `n` successive calls, up to the first timeout. -/
def calls (recv : List UInt8 → List (List UInt8) → Option Received) :
    ℕ → List UInt8 → List (List UInt8) → List (UInt8 × List UInt8)
  | 0, _, _ => []
  | n + 1, leftover, reads =>
      match recv leftover reads with
      | none => []
      | some r => r.pkt :: calls recv n r.leftover r.reads

/-! ## The unchunked reference -/

/-- One byte added to a frame under the `MAX_PACKET_SIZE` guard. -/
def accumulate (frame : List UInt8) (byte : UInt8) : List UInt8 :=
  if (frame ++ [byte]).length > maxPacketSize then [] else frame ++ [byte]

/-- The packets of a stream, in one pass. -/
def packetsFrom : List UInt8 → List UInt8 → List (UInt8 × List UInt8)
  | _, [] => []
  | frame, byte :: s =>
      if byte = 0x00 then
        match parsePacket frame with
        | .ok result => result :: packetsFrom [] s
        | .error _ => packetsFrom [] s
      else packetsFrom (accumulate frame byte) s

/-- The packets of a stream. -/
def packets (s : List UInt8) : List (UInt8 × List UInt8) := packetsFrom [] s

lemma parsePacket_nil : parsePacket [] = .error "Packet too short" := rfl

/-- Walking a read is the start of the single pass. -/
lemma packetsFrom_walk (frame data s : List UInt8) :
    packetsFrom frame (data ++ s) =
      match walk frame data with
      | .got pkt rest => pkt :: packetsFrom [] (rest ++ s)
      | .more frame => packetsFrom frame s := by
  induction data generalizing frame with
  | nil => rfl
  | cons byte data ih =>
      rw [List.cons_append, packetsFrom, walk]
      by_cases hb : byte = 0x00
      · rw [if_pos hb, if_pos hb]
        by_cases hf : frame = []
        · subst hf
          simp only [parsePacket_nil, ne_eq, not_true_eq_false, if_false]
          exact ih []
        · rw [if_pos hf]
          cases parsePacket frame with
          | ok result => rfl
          | error e => exact ih []
      · rw [if_neg hb, if_neg hb, accumulate]
        split_ifs with hlen
        · exact ih []
        · exact ih _

/-! ## Chunking does not matter -/

/-- What the state of a receive function says about the packets still to come. -/
def Outcome (s : List (UInt8 × List UInt8)) : Option Received → Prop
  | none => s = []
  | some r => s = r.pkt :: packets (r.leftover ++ r.reads.flatten)

lemma asyncLoop_outcome (frame : List UInt8) (reads : List (List UInt8)) :
    Outcome (packetsFrom frame reads.flatten) (asyncLoop frame reads) := by
  induction reads generalizing frame with
  | nil => rfl
  | cons data reads ih =>
      rw [List.flatten_cons, packetsFrom_walk, asyncLoop]
      cases walk frame data with
      | got pkt rest => rfl
      | more frame => exact ih frame

lemma recvPacketAsync_outcome (leftover : List UInt8) (reads : List (List UInt8)) :
    Outcome (packets (leftover ++ reads.flatten)) (recvPacketAsync leftover reads) := by
  unfold recvPacketAsync
  by_cases h : leftover = []
  · subst h
    rw [if_neg (by simp)]
    exact asyncLoop_outcome [] reads
  · rw [if_pos h, packets, packetsFrom_walk]
    cases walk [] leftover with
    | got pkt rest => rfl
    | more frame => exact asyncLoop_outcome frame reads

/-- Once its buffer is drained, the synchronous loop is the asynchronous one. -/
lemma syncLoop_nil (frame : List UInt8) (reads : List (List UInt8)) :
    syncLoop frame [] reads = asyncLoop frame reads := by
  induction reads generalizing frame with
  | nil => rw [syncLoop]; simp [asyncLoop]
  | cons data reads ih =>
      rw [syncLoop, if_neg (by simp), asyncLoop]
      cases walk frame data with
      | got pkt rest => rfl
      | more frame => exact ih frame

lemma recvPacketSync_eq_async (portbuf : List UInt8) (reads : List (List UInt8)) :
    recvPacketSync portbuf reads = recvPacketAsync portbuf reads := by
  unfold recvPacketSync recvPacketAsync
  by_cases h : portbuf = []
  · subst h
    rw [if_neg (by simp), syncLoop_nil]
  · rw [syncLoop.eq_def, if_pos h, if_pos h]
    cases walk [] portbuf with
    | got pkt rest => rfl
    | more frame => exact syncLoop_nil frame reads

/-- The `n`-th call returns the `n`-th packet of the stream. -/
lemma calls_async (n : ℕ) (leftover : List UInt8) (reads : List (List UInt8)) :
    calls recvPacketAsync n leftover reads = (packets (leftover ++ reads.flatten)).take n := by
  induction n generalizing leftover reads with
  | zero => rfl
  | succ n ih =>
      have h := recvPacketAsync_outcome leftover reads
      rw [calls]
      cases hr : recvPacketAsync leftover reads with
      | none =>
          rw [hr] at h
          rw [show packets (leftover ++ reads.flatten) = [] from h, List.take_nil]
      | some r =>
          rw [hr] at h
          rw [show packets (leftover ++ reads.flatten) = _ from h, List.take_succ_cons]
          exact congrArg _ (ih r.leftover r.reads)

lemma calls_sync (n : ℕ) (portbuf : List UInt8) (reads : List (List UInt8)) :
    calls recvPacketSync n portbuf reads = (packets (portbuf ++ reads.flatten)).take n := by
  have h : recvPacketSync = recvPacketAsync := by
    funext portbuf reads
    exact recvPacketSync_eq_async portbuf reads
  rw [h]
  exact calls_async n portbuf reads

/-! ## The packets of a stream, frame by frame -/

/-- The delimiter-terminated frames of a stream, given the bytes already seen of the first. -/
def framesFrom : List UInt8 → List UInt8 → List (List UInt8)
  | _, [] => []
  | cur, byte :: s => if byte = 0x00 then cur :: framesFrom [] s else framesFrom (cur ++ [byte]) s

/-- The delimiter-terminated frames of a stream. -/
def frames (s : List UInt8) : List (List UInt8) := framesFrom [] s

/-- What the `MAX_PACKET_SIZE` guard leaves of a frame: it drops `MAX_PACKET_SIZE + 1` bytes
at a time, each time the accumulator reaches that many. -/
def guarded (frame : List UInt8) : List UInt8 :=
  frame.drop ((maxPacketSize + 1) * (frame.length / (maxPacketSize + 1)))

lemma guarded_of_length_le {frame : List UInt8} (h : frame.length ≤ maxPacketSize) :
    guarded frame = frame := by
  rw [guarded, Nat.div_eq_of_lt (Nat.lt_succ_of_le h), Nat.mul_zero, List.drop_zero]

lemma accumulate_guarded (frame : List UInt8) (byte : UInt8) :
    accumulate (guarded frame) byte = guarded (frame ++ [byte]) := by
  have hlen : (guarded frame ++ [byte]).length = frame.length % (maxPacketSize + 1) + 1 := by
    simp only [guarded, List.length_append, List.length_drop, List.length_singleton]
    have := Nat.div_add_mod frame.length (maxPacketSize + 1)
    omega
  have hlt : frame.length % (maxPacketSize + 1) < maxPacketSize + 1 :=
    Nat.mod_lt _ (Nat.succ_pos _)
  rw [accumulate, hlen]
  by_cases hfull : frame.length % (maxPacketSize + 1) = maxPacketSize
  · rw [if_pos (by omega)]
    refine (List.drop_eq_nil_of_le ?_).symm
    simp only [List.length_append, List.length_singleton, maxPacketSize] at hfull ⊢
    omega
  · rw [if_neg (by omega)]
    have hdiv : (frame ++ [byte]).length / (maxPacketSize + 1) =
        frame.length / (maxPacketSize + 1) := by
      simp only [List.length_append, List.length_singleton, maxPacketSize] at hfull ⊢
      omega
    rw [guarded, guarded, hdiv, List.drop_append_of_le_length]
    exact Nat.mul_div_le ..

lemma packetsFrom_guarded (cur s : List UInt8) :
    packetsFrom (guarded cur) s =
      (framesFrom cur s).filterMap fun f => (parsePacket (guarded f)).toOption := by
  induction s generalizing cur with
  | nil => rfl
  | cons byte s ih =>
      rw [packetsFrom, framesFrom]
      by_cases hb : byte = 0x00
      · rw [if_pos hb, if_pos hb, List.filterMap_cons]
        have hnil := ih []
        rw [show guarded [] = [] from rfl] at hnil
        cases parsePacket (guarded cur) with
        | ok result => simpa [Except.toOption] using hnil
        | error e => simpa [Except.toOption] using hnil
      · rw [if_neg hb, if_neg hb, accumulate_guarded]
        exact ih _

/-- The packets of a stream are the parses of its guarded frames. -/
lemma packets_eq_frames (s : List UInt8) :
    packets s = (frames s).filterMap fun f => (parsePacket (guarded f)).toOption :=
  packetsFrom_guarded [] s

lemma framesFrom_append_zero (cur s t : List UInt8) :
    framesFrom cur (s ++ 0x00 :: t) = framesFrom cur (s ++ [0x00]) ++ frames t := by
  induction s generalizing cur with
  | nil => simp [framesFrom, frames]
  | cons byte s ih =>
      simp only [List.cons_append, framesFrom]
      split_ifs
      · rw [ih, List.cons_append]
      · exact ih _

lemma framesFrom_of_notMem {f : List UInt8} (hf : (0 : UInt8) ∉ f) (cur : List UInt8) :
    framesFrom cur (f ++ [0x00]) = [cur ++ f] := by
  induction f generalizing cur with
  | nil => simp [framesFrom]
  | cons byte f ih =>
      obtain ⟨hb, hf⟩ := List.ne_and_not_mem_of_not_mem_cons hf
      rw [List.cons_append, framesFrom, if_neg (Ne.symm hb), ih hf]
      simp

/-- A delimiter resynchronises: whatever came before, the packet after it is received. -/
lemma packets_append_buildPacket (g : List UInt8) (cmd : UInt8) (data : List UInt8)
    (hlen : (frameOf cmd data).length ≤ maxPacketSize) :
    packets (g ++ [0x00] ++ buildPacket cmd data) = packets (g ++ [0x00]) ++ [(cmd, data)] := by
  have hlast : frames (buildPacket cmd data) = [frameOf cmd data] :=
    framesFrom_of_notMem (zero_notMem_frameOf cmd data) []
  rw [packets_eq_frames, packets_eq_frames, List.append_assoc, List.singleton_append, frames,
    framesFrom_append_zero, hlast, List.filterMap_append]
  simp [guarded_of_length_le hlen, parsePacket_frameOf, Except.toOption, frames]

end Defib
