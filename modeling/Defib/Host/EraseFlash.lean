import Defib.Agent.FlashCommands

/-!
# The host's eraser

`erase_flash` of the agent client: it waits for the ACK that starts the erase, then for one packet
per sector whatever that packet is, then for the final ACK.  `EraseRun` keeps, beside the result,
what the loop over sectors took for progress and what is left unread.
-/

namespace Defib

/-- `recv_response`: the next packet that is not a `READY`, and what comes after it.  `none` is the
timeout: the packets ran out. -/
def recvResponse : List Packet → Option (Packet × List Packet)
  | [] => none
  | p :: ps => if p.cmd = rspReady then recvResponse ps else some (p, ps)

lemma recvResponse_of_ne {p : Packet} (h : p.cmd ≠ rspReady) (ps : List Packet) :
    recvResponse (p :: ps) = some (p, ps) := by
  rw [recvResponse, if_neg h]

/-- Stale `READY` packets are skipped. -/
lemma recvResponse_replicate_ready (n : ℕ) (ps : List Packet) :
    recvResponse (List.replicate n readyPacket ++ ps) = recvResponse ps := by
  induction n with
  | zero => rfl
  | succ n ih =>
      rw [List.replicate_succ, List.cons_append, recvResponse, if_pos (by decide)]
      exact ih

/-- `cmd == RSP_ACK and resp[0] == ACK_OK`; an ACK without data has no `resp[0]`. -/
def replyOk (p : Packet) : Except String Bool :=
  if p.cmd = rspAck then
    match p.data.head? with
    | none => .error "index out of range"
    | some status => .ok (status = ackOk)
  else .ok false

/-- What a call of `erase_flash` did. -/
structure EraseRun where
  result : Except String Bool
  /-- The packets the loop over sectors took for progress. -/
  progress : List Packet
  unread : List Packet

/-- The text of the transport's timeout. -/
def noPacket : String := "No packet received"

/-- The loop over sectors: one packet each, of any kind.  `none` is the timeout. -/
def eraseProgressLoop : ℕ → List Packet → List Packet × Option (List Packet)
  | 0, ps => ([], some ps)
  | _ + 1, [] => ([], none)
  | n + 1, p :: ps =>
      let rest := eraseProgressLoop n ps
      (p :: rest.1, rest.2)

/-- `erase_flash` after its request, for `num_sectors` sectors. -/
def eraseReceive (numSectors : ℕ) (stream : List Packet) : EraseRun :=
  match recvResponse stream with
  | none => ⟨.error noPacket, [], []⟩
  | some (p, ps) =>
      match replyOk p with
      | .error e => ⟨.error e, [], ps⟩
      | .ok false => ⟨.ok false, [], ps⟩
      | .ok true =>
          match eraseProgressLoop numSectors ps with
          | (progress, none) => ⟨.error noPacket, progress, []⟩
          | (progress, some rest) =>
              match recvResponse rest with
              | none => ⟨.error noPacket, progress, []⟩
              | some (q, unread) => ⟨replyOk q, progress, unread⟩

/-- `erase_flash` of a client whose `_sector_size` is `sectorSize`, against what comes back for its
request.  `struct.pack` refuses arguments of more than 32 bits. -/
def eraseFlash (sectorSize addr size : ℕ) (stream : List UInt8 → List Packet) : EraseRun :=
  if addr < 2 ^ 32 ∧ size < 2 ^ 32 then
    let sectorSz := if sectorSize = 0 then 0x10000 else sectorSize
    eraseReceive (size / sectorSz) (stream (packU32 addr ++ packU32 size))
  else ⟨.error "argument out of range", [], []⟩

/-! ## The loop over sectors -/

/-- A loop that has at least as many packets as sectors takes that many. -/
lemma eraseProgressLoop_of_le {n : ℕ} {ps : List Packet} (h : n ≤ ps.length) :
    eraseProgressLoop n ps = (ps.take n, some (ps.drop n)) := by
  induction n generalizing ps with
  | zero => rfl
  | succ n ih =>
      cases ps with
      | nil => simp at h
      | cons p ps =>
          rw [eraseProgressLoop, ih (by simpa using h)]
          rfl

/-- A loop that runs out of packets takes all there are. -/
lemma eraseProgressLoop_of_lt {n : ℕ} {ps : List Packet} (h : ps.length < n) :
    eraseProgressLoop n ps = (ps, none) := by
  induction n generalizing ps with
  | zero => omega
  | succ n ih =>
      cases ps with
      | nil => rfl
      | cons p ps => rw [eraseProgressLoop, ih (by simpa using h)]

end Defib
