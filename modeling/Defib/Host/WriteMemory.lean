import Defib.Host.WriteFlash
import Defib.Agent.MemoryWrite

/-!
# The host's memory writer

`write_memory` of the agent client.  It settles the rate of the line, cuts the data into blocks of
16 KiB and sends windows of up to 16 blocks without waiting, then reads two ACKs per block.  When
that fails it drains what it can, and retries the blocks of the window one by one with
`_write_block`.

The client is a state machine.  Where it waits for a packet it reads one (`memRecv`) or times out
(`memTimeout`); once the rate is settled it is about to send the first window (`ready`); between a
failed window and its retry it sleeps (`failed`) and is then about to send again (`drained`).
Blocks are pairs of an offset into the data and a length.
-/

namespace Defib

/-- `WRITE_MAX_TRANSFER`. -/
def writeMaxTransfer : ℕ := 16 * 1024

/-- `WRITE_WINDOW`. -/
def writeWindow : ℕ := 16

/-- The arguments of `write_memory`, and the rate of its client. -/
structure MemJob where
  addr : ℕ
  data : List UInt8
  client : BaudClient

/-- Where `write_memory` is: it has been called, is in `_switch_baud`, is about to send the first
window, reads the ACKs of a window, has given up on one, is about to retry it, waits for the first
or the second ACK of a single block, or has ended.  `rest` are the blocks behind the window, `todo`
those of a failed window still to be retried. -/
inductive MemPhase
  | called
  | switching (phase : SwitchPhase)
  | ready
  | window (size : ℕ) (cur rest : List (ℕ × ℕ)) (acks : ℕ)
  | failed (cur rest : List (ℕ × ℕ))
  | drained (cur rest : List (ℕ × ℕ))
  | retryAck (k : ℕ × ℕ) (todo rest : List (ℕ × ℕ))
  | retryCrc (k : ℕ × ℕ) (todo rest : List (ℕ × ℕ))
  | returned (ok : Bool)
  | raised
  deriving DecidableEq, Repr

namespace MemJob

variable (j : MemJob)

/-- The blocks of the data. -/
def blocks : List (ℕ × ℕ) := (Cut.upTo writeMaxTransfer (by decide)).pieces 0 j.data.length

/-- `data[offset:offset + block_size]`. -/
def block (k : ℕ × ℕ) : List UInt8 := (j.data.drop k.1).take k.2

/-- The parameters of the `CMD_WRITE` for a block. -/
def request (k : ℕ × ℕ) : WriteReq := ⟨j.addr + k.1, k.2, (zlibCrc32 (j.block k)).toNat⟩

/-- The `CMD_WRITE` packet for a block. -/
def command (k : ℕ × ℕ) : Packet :=
  ⟨cmdWrite, packU32 (j.request k).addr ++ packU32 (j.request k).size ++
    packU32 (j.request k).crc⟩

/-- Its data packets.  A block has at most 32 of them, so that `struct.pack` never fails. -/
def stream (k : ℕ × ℕ) : List Packet := (sendData (j.block k) 0 (writeChunks 0 k.2)).1

/-- Blocks sent back to back, up to an address that `struct.pack` cannot encode. -/
def sendBlocks : List (ℕ × ℕ) → List Packet × Bool
  | [] => ([], true)
  | k :: ks =>
      if j.addr + k.1 < 2 ^ 32 then
        let rest := sendBlocks ks
        (j.command k :: (j.stream k ++ rest.1), rest.2)
      else ([], false)

/-- The window for the blocks that are left: they are
`(total - offset + WRITE_MAX_TRANSFER - 1) // WRITE_MAX_TRANSFER` many. -/
def windowFor (rest : List (ℕ × ℕ)) : ℕ := min writeWindow rest.length

/-- The head of the loop over windows. -/
def nextWindow (size : ℕ) (rest : List (ℕ × ℕ)) : MemPhase × List Packet :=
  if rest = [] then (.returned true, [])
  else
    let r := j.sendBlocks (rest.take size)
    (if r.2 then .window size (rest.take size) (rest.drop size) 0 else .raised, r.1)

/-- The head of the loop over the blocks of a failed window: `_write_block` up to its first wait,
or the next window. -/
def retry : List (ℕ × ℕ) → List (ℕ × ℕ) → MemPhase × List Packet
  | [], rest => j.nextWindow (windowFor rest) rest
  | k :: todo, rest =>
      if j.addr + k.1 < 2 ^ 32 then (.retryAck k todo rest, [j.command k]) else (.raised, [])

/-- The first statement of `write_memory`. -/
def start : MemPhase × List Packet :=
  if j.client.switches j.data.length then
    (.switching .awaitAck, [setBaudPacket defaultFastBaud])
  else (.ready, [])

/-- `write_memory` in or after `_switch_baud`. -/
def afterSwitch (r : SwitchPhase × List Packet) : MemPhase × List Packet :=
  match r.1 with
  | .over => (.ready, r.2)
  | .raised => (.raised, r.2)
  | phase => (.switching phase, r.2)

/-- `write_memory` from where the rate is settled. -/
def firstWindow : MemPhase × List Packet := j.nextWindow (windowFor j.blocks) j.blocks

end MemJob

/-- Whether the client waits for a packet. -/
def MemPhase.waits : MemPhase → Bool
  | .switching _ => true
  | .window .. => true
  | .retryAck .. => true
  | .retryCrc .. => true
  | _ => false

/-- Whether the client is about to send its first window or to retry one. -/
def MemPhase.sends : MemPhase → Bool
  | .ready => true
  | .drained .. => true
  | _ => false

/-- A reply to `_write_block` that is not a confirmation: `resp[0]` raises on an empty ACK. -/
def blockRefused (p : Packet) : MemPhase :=
  if p.cmd = rspAck ∧ p.data = [] then .raised else .returned false

/-- `write_memory` at one of its waits, with the packet it receives.  In a window every exception
counts as a failure. -/
def memRecv (j : MemJob) : MemPhase → Packet → MemPhase × List Packet
  | .switching phase, p => MemJob.afterSwitch (switchRecv j.client phase p)
  | .window size cur rest acks, p =>
      if p.cmd = rspReady then (.window size cur rest acks, [])
      else if p.isOk then
        if acks + 1 = 2 * cur.length then j.nextWindow size rest
        else (.window size cur rest (acks + 1), [])
      else (.failed cur rest, [])
  | .retryAck k todo rest, p =>
      if p.cmd = rspReady then (.retryAck k todo rest, [])
      else if p.isOk then (.retryCrc k todo rest, j.stream k)
      else (blockRefused p, [])
  | .retryCrc k todo rest, p =>
      if p.cmd = rspReady then (.retryCrc k todo rest, [])
      else if p.isOk then j.retry todo rest
      else (blockRefused p, [])
  | phase, _ => (phase, [])

/-- A wait that times out: caught in the verification of a rate and in a window, not in front of
the former and not in `_write_block`. -/
def memTimeout : MemPhase → MemPhase
  | .switching .awaitAck => .raised
  | .switching .awaitInfo => .ready
  | .window _ cur rest _ => .failed cur rest
  | .retryAck .. => .raised
  | .retryCrc .. => .raised
  | phase => phase

lemma MemJob.retry_cons (j : MemJob) {k : ℕ × ℕ} (todo rest : List (ℕ × ℕ))
    (haddr : j.addr + k.1 < 2 ^ 32) :
    j.retry (k :: todo) rest = (.retryAck k todo rest, [j.command k]) := if_pos haddr

lemma memRecv_retryAck_ok (j : MemJob) (k : ℕ × ℕ) (todo rest : List (ℕ × ℕ)) :
    memRecv j (.retryAck k todo rest) (ackPacket ackOk) = (.retryCrc k todo rest, j.stream k) := rfl

lemma memRecv_retryCrc_ok (j : MemJob) (k : ℕ × ℕ) (todo rest : List (ℕ × ℕ)) :
    memRecv j (.retryCrc k todo rest) (ackPacket ackOk) = j.retry todo rest := rfl

end Defib
