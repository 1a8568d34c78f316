import Defib.Agent.FlashStream

/-!
# Writing memory

`handle_write`: the agent answers `ACK_OK`, copies data packets to RAM until the block is complete,
compares its checksum, and answers again.  Requests that lie inside the flash are passed on to
`handle_flash_write`.  The agent is a state machine on the results of `proto_recv`, where command
`0` stands for a timeout or a corrupt frame; `checks` records every comparison it has completed.

`recv_receiving` and `recv_idle` say once what a packet can do to it.
-/

namespace Defib

/-- A reply that the host takes for a confirmation: `cmd == RSP_ACK and resp[0] == ACK_OK`. -/
def Packet.isOk (p : Packet) : Bool := p.cmd = rspAck && p.data.head? = some ackOk

/-- Requests above the flash go to RAM. -/
lemma WriteReq.toFlash_of_le {b : Board} {r : WriteReq} (h : b.flashInfo.size ≤ r.addr) :
    r.toFlash b = false := by
  simp [WriteReq.toFlash, Nat.not_lt.mpr h]

lemma WriteReq.accepted_of_fits {b : Board} {r : WriteReq} (hne : 0 < r.size)
    (hle : r.size ≤ maxReadSize) (hram : b.soc.ramBase ≤ r.addr)
    (hfits : r.addr + r.size < 2 ^ 32) : r.accepted b = true := by
  have hadd : add32 r.addr r.size = r.addr + r.size := add32_of_lt hfits
  simp only [WriteReq.accepted, hadd, Bool.and_eq_true, decide_eq_true_eq]
  omega

/-- A completed comparison: the range, the checksum expected for it, and the outcome. -/
structure CrcCheck where
  req : WriteReq
  equal : Bool
  deriving DecidableEq, Repr

/-- Where the agent is: in its main loop, in the receive loop of `handle_write`, or in the one of
`handle_flash_write`. -/
inductive WriteAgentPhase
  | idle
  | receiving (req : WriteReq) (received : ℕ)
  | flashing (g : Geometry) (req : WriteReq) (received : ℕ)

/-- The agent, its RAM and the comparisons it has completed. -/
structure WriteAgent where
  ram : Store UInt8
  phase : WriteAgentPhase
  checks : List CrcCheck

namespace WriteAgent

/-- `handle_write` up to its receive loop, for a payload of `len` bytes. -/
def begin (a : WriteAgent) (b : Board) (len : ℕ) (r : WriteReq) : WriteAgent × List Packet :=
  if len < 12 then (a, [ackPacket ackCrcError])
  else if r.toFlash b then
    match b.geometry with
    | none => (a, [ackPacket ackFlashError])
    | some g =>
        if flashWriteAccepted g r.addr r.size then
          ({ a with phase := .flashing g r 0 }, [ackPacket ackOk])
        else (a, [ackPacket ackFlashError])
  else if r.accepted b then ({ a with phase := .receiving r 0 }, [ackPacket ackOk])
  else (a, [ackPacket ackFlashError])

/-- `handle_write` after its receive loop. -/
def finish (a : WriteAgent) (ram : Store UInt8) (r : WriteReq) (received : ℕ) :
    WriteAgent × List Packet :=
  let actual := crc32 0 (ram.load r.addr r.size)
  if actual.toNat = r.crc then
    (⟨ram, .idle, a.checks ++ [⟨r, true⟩]⟩, [ackPacket ackOk])
  else
    (⟨ram, .idle, a.checks ++ [⟨r, false⟩]⟩,
      [⟨rspAck, ackCrcError :: (packU32 actual.toNat ++ packU32 received)⟩])

/-- The receive loop of `handle_write`. -/
def receive (a : WriteAgent) (r : WriteReq) (received : ℕ) (p : Packet) :
    WriteAgent × List Packet :=
  if p.cmd = rspData ∧ p.data.length > 2 then
    let rx := copyIn a.ram r.addr received r.size p.data
    if rx.2 < r.size then (⟨rx.1, .receiving r rx.2, a.checks⟩, [])
    else a.finish rx.1 r rx.2
  else if p.cmd = 0 then
    ({ a with phase := .idle }, [⟨rspAck, ackFlashError :: packU32 received⟩])
  else (a, [])

/-- The receive loop of `handle_flash_write`, which stages the data elsewhere in RAM. -/
def receiveFlash (a : WriteAgent) (b : Board) (chip : Chip) (g : Geometry) (r : WriteReq)
    (received : ℕ) (p : Packet) : WriteAgent × List Packet :=
  let next := flashWriteRecv b g chip r.addr r.size r.crc ⟨a.ram, received⟩ p
  match next.1 with
  | some st => (⟨st.ram, .flashing g r st.received, a.checks⟩, packetsOf next.2)
  | none =>
      let staged := copyIn a.ram (b.soc.ramBase + 0x200000) received r.size p.data
      (⟨if p.cmd = rspData ∧ p.data.length > 2 then staged.1 else a.ram, .idle, a.checks⟩,
        packetsOf next.2)

/-- The agent receives a packet.  `info` is what `handle_info` sends. -/
def recv (b : Board) (chip : Chip) (info : List UInt8) (a : WriteAgent) (p : Packet) :
    WriteAgent × List Packet :=
  match a.phase with
  | .idle =>
      if p.cmd = cmdWrite then a.begin b p.data.length (writeReq p.data)
      else if p.cmd = 0 then (a, [])
      else (a, [mainLoopAnswer info p])
  | .receiving r received => a.receive r received p
  | .flashing g r received => a.receiveFlash b chip g r received p

/-! ## What a packet can do -/

variable {b : Board} (chip : Chip) (info : List UInt8) {a : WriteAgent} {p : Packet}

lemma isOk_ackPacket (status : UInt8) : (ackPacket status).isOk = decide (status = ackOk) := by
  simp [Packet.isOk, ackPacket]

/-- **The main loop.**  A packet that asks for no other rate starts a write, or it changes nothing
and is not confirmed. -/
lemma recv_idle (hidle : a.phase = .idle) (hbaud : p.cmd ≠ cmdSetBaud)
    (hram : p.cmd = cmdWrite → (writeReq p.data).toFlash b = false) :
    (p.cmd = cmdWrite ∧ recv b chip info a p =
      ({ a with phase := .receiving (writeReq p.data) 0 }, [ackPacket ackOk])) ∨
    ((recv b chip info a p).1 = a ∧ ∀ q ∈ (recv b chip info a p).2, q.isOk = false) := by
  have hrefused : ∀ status, status ≠ ackOk → ∀ q ∈ [ackPacket status], q.isOk = false := by
    intro status hne q hq
    rw [List.mem_singleton.mp hq, isOk_ackPacket]
    exact decide_eq_false hne
  rw [recv, hidle]
  simp only
  by_cases hcmd : p.cmd = cmdWrite
  · rw [if_pos hcmd, begin, hram hcmd]
    by_cases hlen : p.data.length < 12
    · rw [if_pos hlen]
      exact .inr ⟨rfl, hrefused _ (by decide)⟩
    · rw [if_neg hlen, if_neg (by decide)]
      cases (writeReq p.data).accepted b with
      | true => exact .inl ⟨hcmd, rfl⟩
      | false => exact .inr ⟨rfl, hrefused _ (by decide)⟩
  · rw [if_neg hcmd]
    split
    · exact .inr ⟨rfl, by simp⟩
    · refine .inr ⟨rfl, ?_⟩
      rw [mainLoopAnswer, if_neg hbaud]
      split
      · intro q hq
        rw [List.mem_singleton.mp hq]
        rfl
      · exact hrefused _ (by decide)

/-- **The receive loop.**  A packet leaves the write open, completes it with an equal checksum and
the second confirmation, or ends it without one. -/
lemma recv_receiving {r : WriteReq} {received : ℕ} (hphase : a.phase = .receiving r received) :
    ((∃ n, (recv b chip info a p).1.phase = .receiving r n) ∧
      (recv b chip info a p).1.checks = a.checks ∧ (recv b chip info a p).2 = []) ∨
    ((recv b chip info a p).1.phase = .idle ∧
      (recv b chip info a p).1.checks = a.checks ++ [⟨r, true⟩] ∧
      (recv b chip info a p).2 = [ackPacket ackOk]) ∨
    ((recv b chip info a p).1.phase = .idle ∧
      ((recv b chip info a p).1.checks = a.checks ∨
        (recv b chip info a p).1.checks = a.checks ++ [⟨r, false⟩]) ∧
      ∀ q ∈ (recv b chip info a p).2, q.isOk = false) := by
  rw [recv, hphase]
  simp only [receive]
  split
  · split
    · exact .inl ⟨⟨_, rfl⟩, rfl, rfl⟩
    · rw [finish]
      split
      · exact .inr (.inl ⟨rfl, rfl, rfl⟩)
      · refine .inr (.inr ⟨rfl, .inr rfl, fun q hq => ?_⟩)
        rw [List.mem_singleton.mp hq]
        rfl
  · split
    · refine .inr (.inr ⟨rfl, .inl rfl, fun q hq => ?_⟩)
      rw [List.mem_singleton.mp hq]
      rfl
    · exact .inl ⟨⟨received, hphase⟩, rfl, rfl⟩

end WriteAgent

end Defib
