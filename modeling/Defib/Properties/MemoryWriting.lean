import Mathlib.Data.List.Nodup
import Defib.Framework.Ledger
import Defib.Host.WriteMemory

/-!
# Writing memory over a lossy link

`write_memory` and the agent joined by two queues that may lose packets.  The agent may at any time
see a timeout or a corrupt frame, and the host may at any time run out of patience, so that every
in-order link with loss and corruption in both directions is covered.

The ACKs are anonymous, and the host only counts them.  The count is sound as long as nothing is
left over when it starts (`Settled`): then the requests of a window and what became of them form a
`Ledger`, and two confirmations per block mean that every block was compared equal.  Neither before
the first window nor after a failed one does the code make sure of that: `writeMemory_confirms` is
what holds when it is so, and `writeMemory_counts_stale_acks` a run where it is not.
-/

namespace Defib

/-! ## The system -/

/-- A call of `write_memory` and its surroundings. -/
structure MemSetup where
  b : Board
  chip : Chip
  /-- Whether the transport has a pyserial `_port`. -/
  hasPort : Bool
  /-- What the agent answers to `CMD_INFO`. -/
  info : List UInt8
  job : MemJob

/-- Host and agent, with what is in flight between them. -/
abbrev MemConfig := Pair MemPhase WriteAgent Packet Packet

/-- What `proto_recv` makes of a timeout or a corrupt frame. -/
def noise : Packet := ⟨0, []⟩

namespace MemSetup

variable (m : MemSetup)

/-- One step.  On a transport with a `_port` the drain of a failed window discards a prefix of what
is on its way to the host, on any other transport nothing; what `_clear_rx_buffers` discards later
is one of the losses. -/
inductive Step : MemConfig → MemConfig → Prop
  | call (a : WriteAgent) (xs ys : List Packet) :
      Step ⟨.called, a, xs, ys⟩ ⟨m.job.start.1, a, xs, ys ++ m.job.start.2⟩
  | begin (a : WriteAgent) (xs ys : List Packet) :
      Step ⟨.ready, a, xs, ys⟩ ⟨m.job.firstWindow.1, a, xs, ys ++ m.job.firstWindow.2⟩
  | hostRecv {h : MemPhase} (hwaits : h.waits = true) (a : WriteAgent) (p : Packet)
      (xs ys : List Packet) :
      Step ⟨h, a, p :: xs, ys⟩ ⟨(memRecv m.job h p).1, a, xs, ys ++ (memRecv m.job h p).2⟩
  | hostTimeout (h : MemPhase) (a : WriteAgent) (xs ys : List Packet) :
      Step ⟨h, a, xs, ys⟩ ⟨memTimeout h, a, xs, ys⟩
  | drain (cur rest : List (ℕ × ℕ)) (a : WriteAgent) (xs ys : List Packet) (n : ℕ)
      (hn : m.hasPort = false → n = 0) :
      Step ⟨.failed cur rest, a, xs, ys⟩ ⟨.drained cur rest, a, xs.drop n, ys⟩
  | retry (cur rest : List (ℕ × ℕ)) (a : WriteAgent) (xs ys : List Packet) :
      Step ⟨.drained cur rest, a, xs, ys⟩
        ⟨(m.job.retry cur rest).1, a, xs, ys ++ (m.job.retry cur rest).2⟩
  | agentRecv (h : MemPhase) (a : WriteAgent) (xs : List Packet) (p : Packet) (ys : List Packet) :
      Step ⟨h, a, xs, p :: ys⟩
        ⟨h, (WriteAgent.recv m.b m.chip m.info a p).1,
          xs ++ (WriteAgent.recv m.b m.chip m.info a p).2, ys⟩
  | agentNoise (h : MemPhase) (a : WriteAgent) (xs ys : List Packet) :
      Step ⟨h, a, xs, ys⟩
        ⟨h, (WriteAgent.recv m.b m.chip m.info a noise).1,
          xs ++ (WriteAgent.recv m.b m.chip m.info a noise).2, ys⟩
  | announce (h : MemPhase) {a : WriteAgent} (hidle : a.phase = .idle) (xs ys : List Packet) :
      Step ⟨h, a, xs, ys⟩ ⟨h, a, xs ++ [readyPacket], ys⟩
  | loseToHost (h : MemPhase) (a : WriteAgent) {xs xs' : List Packet} (hsub : xs'.Sublist xs)
      (ys : List Packet) : Step ⟨h, a, xs, ys⟩ ⟨h, a, xs', ys⟩
  | loseToAgent (h : MemPhase) (a : WriteAgent) (xs : List Packet) {ys ys' : List Packet}
      (hsub : ys'.Sublist ys) : Step ⟨h, a, xs, ys⟩ ⟨h, a, xs, ys'⟩

/-- The last completed comparison of a block's range found the checksum of the block. -/
def Confirmed (checks : List CrcCheck) (k : ℕ × ℕ) : Prop :=
  (checks.filter fun e => e.req.addr = m.job.addr + k.1 ∧ e.req.size = k.2).getLast? =
    some ⟨m.job.request k, true⟩

/-- Nothing is left that could still be confirmed: the agent is idle, no `CMD_WRITE` and no
`CMD_SET_BAUD` is on its way to it, and no `ACK_OK` is on its way back. -/
structure Settled (c : MemConfig) : Prop where
  idle : c.snd.phase = .idle
  no_request : ∀ p ∈ c.toSnd, p.cmd ≠ cmdWrite ∧ p.cmd ≠ cmdSetBaud
  no_ok : ∀ p ∈ c.toFst, p.isOk = false

/-! ## One batch of blocks -/

/-- Whether the main loop may confirm a packet. -/
def isRequest (p : Packet) : Bool := p.cmd = cmdWrite || p.cmd = cmdSetBaud

/-- The request the agent works on, if any. -/
inductive Working : WriteAgentPhase → List Packet → Prop
  | idle : Working .idle []
  | receiving (p : Packet) (received : ℕ) : Working (.receiving (writeReq p.data) received) [p]

/-- The comparisons since the batch started: `done` requests found equal, and at most `spoiled`
others. -/
structure Recorded (asked done : List Packet) (spoiled : ℕ) (new : List CrcCheck) : Prop where
  equal : new.filter CrcCheck.equal = done.map fun p => ⟨writeReq p.data, true⟩
  unequal : (new.filter fun e => !e.equal).length ≤ spoiled
  req : ∀ e ∈ new, ∃ p ∈ asked, e.req = writeReq p.data

/-- **The state of a batch**: the blocks `cur` were sent when the agent had completed the
comparisons `base` and nothing was left over, and `acks` confirmations have been read since. -/
def Batch (cur : List (ℕ × ℕ)) (base : List CrcCheck) (acks : ℕ) (c : MemConfig) : Prop :=
  ∃ done active spoiled new,
    Ledger (cur.map m.job.command) done active (c.toSnd.filter isRequest) spoiled
      (acks + c.toFst.countP Packet.isOk) ∧
    Working c.snd.phase active ∧ c.snd.checks = base ++ new ∧
    Recorded (cur.map m.job.command) done spoiled new

/-- Every request goes to RAM. -/
def ToRam : Prop := ∀ k ∈ m.job.blocks, (m.job.request k).toFlash m.b = false

variable {m}

lemma filter_isRequest_of_settled {c : MemConfig} (h : Settled c) :
    c.toSnd.filter isRequest = [] := by
  refine List.filter_eq_nil_iff.mpr fun p hp => ?_
  simpa [isRequest] using h.no_request p hp

lemma countP_isOk_eq_zero {ps : List Packet} (h : ∀ p ∈ ps, p.isOk = false) :
    ps.countP Packet.isOk = 0 := by
  refine List.countP_eq_zero.mpr fun p hp => ?_
  simp [h p hp]

/-- A batch starts when nothing is left over. -/
lemma Batch.start {c : MemConfig} (h : Settled c) {cur : List (ℕ × ℕ)} {out : List Packet}
    (hout : out.filter isRequest = cur.map m.job.command) (host : MemPhase) :
    m.Batch cur c.snd.checks 0 ⟨host, c.snd, c.toFst, c.toSnd ++ out⟩ := by
  refine ⟨[], [], 0, [], ?_, ?_, by simp, rfl, Nat.le_refl 0, by simp⟩
  · simp only [List.filter_append, filter_isRequest_of_settled h, List.nil_append, hout,
      countP_isOk_eq_zero h.no_ok, Nat.add_zero]
    exact Ledger.start _
  · simp only [h.idle]
    exact .idle

/-! ### The link -/

lemma Batch.lose {cur : List (ℕ × ℕ)} {base : List CrcCheck} {acks acks' : ℕ} {h h' : MemPhase}
    {a : WriteAgent} {xs xs' ys ys' : List Packet}
    (hbatch : m.Batch cur base acks ⟨h, a, xs, ys⟩)
    (hacks : acks' + xs'.countP Packet.isOk ≤ acks + xs.countP Packet.isOk)
    (hys : (ys'.filter isRequest).Sublist (ys.filter isRequest)) :
    m.Batch cur base acks' ⟨h', a, xs', ys'⟩ := by
  obtain ⟨done, active, spoiled, new, hledger, hworking, hchecks, hrec⟩ := hbatch
  exact ⟨done, active, spoiled, new, (hledger.lose hys).mono hacks, hworking, hchecks, hrec⟩

/-! ### The agent -/

section Agent

variable {asked done : List Packet} {spoiled : ℕ} {new : List CrcCheck} {q : Packet}

lemma Recorded.nothing (h : Recorded asked done spoiled new) :
    Recorded asked done (spoiled + 1) new :=
  ⟨h.equal, Nat.le_succ_of_le h.unequal, h.req⟩

lemma Recorded.unequal_snoc (h : Recorded asked done spoiled new) (hq : q ∈ asked) :
    Recorded asked done (spoiled + 1) (new ++ [⟨writeReq q.data, false⟩]) := by
  refine ⟨?_, ?_, fun e he => ?_⟩
  · rw [List.filter_append, h.equal]
    simp
  · have := h.unequal
    rw [List.filter_append, List.length_append]
    simp only [Bool.not_false, List.filter_cons_of_pos, List.filter_nil, List.length_singleton]
    omega
  · rcases List.mem_append.mp he with he | he
    · exact h.req e he
    · rw [List.mem_singleton.mp he]
      exact ⟨q, hq, rfl⟩

lemma Recorded.equal_snoc (h : Recorded asked done spoiled new) (hq : q ∈ asked) :
    Recorded asked (done ++ [q]) spoiled (new ++ [⟨writeReq q.data, true⟩]) := by
  refine ⟨?_, ?_, fun e he => ?_⟩
  · rw [List.filter_append, h.equal, List.map_append]
    rfl
  · have := h.unequal
    rw [List.filter_append, List.length_append]
    simp only [Bool.not_true, Bool.false_eq_true, not_false_eq_true, List.filter_cons_of_neg,
      List.filter_nil, List.length_nil]
    omega
  · rcases List.mem_append.mp he with he | he
    · exact h.req e he
    · rw [List.mem_singleton.mp he]
      exact ⟨q, hq, rfl⟩

end Agent

/-- **One packet to the agent.** -/
lemma Batch.agent {cur : List (ℕ × ℕ)} {base : List CrcCheck} {acks : ℕ} {h : MemPhase}
    {a : WriteAgent} {xs ys : List Packet} {p : Packet}
    (hbatch : m.Batch cur base acks ⟨h, a, xs, p :: ys⟩)
    (hram : ∀ q ∈ cur.map m.job.command, (writeReq q.data).toFlash m.b = false) :
    m.Batch cur base acks ⟨h, (WriteAgent.recv m.b m.chip m.info a p).1,
      xs ++ (WriteAgent.recv m.b m.chip m.info a p).2, ys⟩ := by
  obtain ⟨done, active, spoiled, new, hledger, hworking, hchecks, hrec⟩ := hbatch
  simp only at hledger hworking hchecks
  have htail : (ys.filter isRequest).Sublist ((p :: ys).filter isRequest) :=
    (List.sublist_cons_self p ys).filter _
  have hcount : ∀ {out : List Packet}, (∀ q ∈ out, q.isOk = false) →
      (xs ++ out).countP Packet.isOk = xs.countP Packet.isOk := by
    intro out hout
    rw [List.countP_append, countP_isOk_eq_zero hout, Nat.add_zero]
  have hcount_ok : (xs ++ [ackPacket ackOk]).countP Packet.isOk = xs.countP Packet.isOk + 1 := by
    rw [List.countP_append]
    rfl
  generalize hphase : a.phase = phase at hworking
  cases hworking with
  | idle =>
      have hp : isRequest p = true → p ∈ cur.map m.job.command := by
        intro hreq
        refine hledger.order.subset (List.mem_append_right _ (List.mem_append_right _ ?_))
        exact List.mem_filter.mpr ⟨by simp, hreq⟩
      -- a batch asks for no other rate
      have hbaud : p.cmd ≠ cmdSetBaud := by
        intro hcmd
        obtain ⟨k, -, rfl⟩ := List.mem_map.mp (hp (by simp [isRequest, hcmd]))
        exact absurd hcmd (show cmdWrite ≠ cmdSetBaud by decide)
      rcases WriteAgent.recv_idle m.chip m.info hphase hbaud
          fun hcmd => hram p (hp (by simp [isRequest, hcmd])) with ⟨hcmd, heq⟩ | ⟨hsame, hrefused⟩
      · rw [List.filter_cons_of_pos (show isRequest p = true by simp [isRequest, hcmd])] at hledger
        refine ⟨done, [p], spoiled, new, ?_, ?_, ?_, hrec⟩
        · rw [heq]
          simp only
          rw [hcount_ok, ← Nat.add_assoc]
          exact hledger.accept
        · rw [heq]
          exact .receiving p 0
        · rw [heq]
          exact hchecks
      · refine ⟨done, [], spoiled, new, ?_, ?_, ?_, hrec⟩
        · simp only
          rw [hcount hrefused]
          exact hledger.lose htail
        · rw [hsame, hphase]
          exact .idle
        · rw [hsame]
          exact hchecks
  | receiving q received =>
      have hq : q ∈ cur.map m.job.command :=
        hledger.order.subset (List.mem_append_right _ (by simp))
      rcases WriteAgent.recv_receiving (b := m.b) m.chip m.info (p := p) hphase with
        ⟨⟨n, hopen⟩, hsame, hout⟩ | ⟨hidle, heq, hout⟩ | ⟨hidle, heq, hout⟩
      · refine ⟨done, [q], spoiled, new, ?_, ?_, hsame.trans hchecks, hrec⟩
        · simp only
          rw [hout, List.append_nil]
          exact hledger.lose htail
        · simp only
          rw [hopen]
          exact .receiving q n
      · refine ⟨done ++ [q], [], spoiled, new ++ [⟨writeReq q.data, true⟩], ?_, ?_, ?_,
          hrec.equal_snoc hq⟩
        · simp only
          rw [hout, hcount_ok, ← Nat.add_assoc]
          exact (hledger.lose htail).finish
        · simp only
          rw [hidle]
          exact .idle
        · simp only
          rw [heq, hchecks, List.append_assoc]
      · have hledger' : Ledger (cur.map m.job.command) done [] (ys.filter isRequest) (spoiled + 1)
            (acks + (xs ++ (WriteAgent.recv m.b m.chip m.info a p).2).countP Packet.isOk) := by
          rw [hcount hout]
          exact (hledger.lose htail).spoil
        have hworking : Working (WriteAgent.recv m.b m.chip m.info a p).1.phase [] := by
          rw [hidle]
          exact .idle
        rcases heq with heq | heq
        · exact ⟨done, [], spoiled + 1, new, hledger', hworking, heq.trans hchecks, hrec.nothing⟩
        · refine ⟨done, [], spoiled + 1, new ++ [⟨writeReq q.data, false⟩], hledger', hworking, ?_,
            hrec.unequal_snoc hq⟩
          simp only
          rw [heq, hchecks, List.append_assoc]

/-! ### The end of a batch -/

/-- The agent reads a request as the host meant it. -/
lemma writeReq_command {k : ℕ × ℕ} (haddr : m.job.addr + k.1 < 2 ^ 32) (hk : k ∈ m.job.blocks) :
    writeReq (m.job.command k).data = m.job.request k := by
  have hsize : (m.job.request k).size < 2 ^ 32 := by
    have := (Cut.mem_pieces_upTo (show 0 < writeMaxTransfer by decide) (by simp) hk).2
    have : k.2 < 2 ^ 32 := Nat.lt_of_le_of_lt this (by decide)
    exact this
  have hcrc : (m.job.request k).crc < 2 ^ 32 := BitVec.isLt _
  have haddr' : (m.job.request k).addr < 2 ^ 32 := haddr
  have h8 : (m.job.command k).data.drop 8 = packU32 (m.job.request k).crc := rfl
  have h4 : (m.job.command k).data.drop 4 = packU32 (m.job.request k).size ++
      packU32 (m.job.request k).crc := rfl
  have h0 : (m.job.command k).data = packU32 (m.job.request k).addr ++
      (packU32 (m.job.request k).size ++ packU32 (m.job.request k).crc) := rfl
  rw [writeReq, h8, h4, h0, readLe32_packU32, readLe32_packU32_append, readLe32_packU32_append,
    Nat.mod_eq_of_lt hcrc, Nat.mod_eq_of_lt hsize, Nat.mod_eq_of_lt haddr']

/-- **Two confirmations per block.**  Every block has been compared, with success, in order, and
nothing is left over. -/
lemma Batch.complete {cur : List (ℕ × ℕ)} {base : List CrcCheck} {acks : ℕ} {c : MemConfig}
    (h : m.Batch cur base acks c) (hacks : 2 * cur.length ≤ acks) :
    Settled c ∧ c.snd.checks =
      base ++ cur.map fun k => ⟨writeReq (m.job.command k).data, true⟩ := by
  obtain ⟨done, active, spoiled, new, hledger, hworking, hchecks, hrec⟩ := h
  obtain ⟨rfl, rfl, hqueued, rfl, hcount⟩ := hledger.settled (by rw [List.length_map]; omega)
  rw [List.length_map] at hcount
  constructor
  · refine ⟨?_, fun p hp => ?_, fun p hp => ?_⟩
    · generalize c.snd.phase = phase at hworking
      cases hworking
      rfl
    · have := List.filter_eq_nil_iff.mp hqueued p hp
      simpa [isRequest] using this
    · have hzero : c.toFst.countP Packet.isOk = 0 := by omega
      simpa using List.countP_eq_zero.mp hzero p hp
  · have hall : new.filter CrcCheck.equal = new := by
      refine List.filter_eq_self.mpr fun e he => ?_
      have hnil := List.length_eq_zero_iff.mp (Nat.le_zero.mp hrec.unequal)
      simpa using List.filter_eq_nil_iff.mp hnil e he
    rw [hchecks, ← hall, hrec.equal, List.map_map]
    rfl

lemma Confirmed.append {checks new : List CrcCheck} {k : ℕ × ℕ} (h : m.Confirmed checks k)
    (hne : ∀ e ∈ new, e.req.addr ≠ m.job.addr + k.1) : m.Confirmed (checks ++ new) k := by
  have hnil : new.filter (fun e => e.req.addr = m.job.addr + k.1 ∧ e.req.size = k.2) = [] := by
    refine List.filter_eq_nil_iff.mpr fun e he => ?_
    simp [hne e he]
  rw [Confirmed, List.filter_append, hnil, List.append_nil]
  exact h

/-- The newest comparison of a range decides. -/
lemma confirmed_of_forall {checks new : List CrcCheck} {k : ℕ × ℕ}
    (hmem : (⟨m.job.request k, true⟩ : CrcCheck) ∈ new)
    (hall : ∀ e ∈ new, e.req.addr = m.job.addr + k.1 → e = ⟨m.job.request k, true⟩) :
    m.Confirmed (checks ++ new) k := by
  rw [Confirmed, List.filter_append]
  generalize hl : new.filter (fun e => e.req.addr = m.job.addr + k.1 ∧ e.req.size = k.2) = l
  have hne : l ≠ [] := by
    refine List.ne_nil_of_mem (a := ⟨m.job.request k, true⟩) ?_
    rw [← hl]
    exact List.mem_filter.mpr ⟨hmem, decide_eq_true ⟨rfl, rfl⟩⟩
  have hall' : ∀ e ∈ l, e = ⟨m.job.request k, true⟩ := by
    intro e he
    rw [← hl] at he
    obtain ⟨hnew, hrange⟩ := List.mem_filter.mp he
    exact hall e hnew (of_decide_eq_true hrange).1
  rw [List.getLast?_append_of_ne_nil _ hne, List.getLast?_eq_some_getLast hne,
    hall' _ (List.getLast_mem hne)]

/-! ## Every step -/

/-- The blocks the host has confirmations to count for, the ones behind them, and how many it has
counted. -/
def attempt : MemPhase → Option (List (ℕ × ℕ) × List (ℕ × ℕ) × ℕ)
  | .window _ cur rest acks => some (cur, rest, acks)
  | .failed cur rest => some (cur, rest, 0)
  | .drained cur rest => some (cur, rest, 0)
  | .retryAck k todo rest => some ([k], todo ++ rest, 0)
  | .retryCrc k todo rest => some ([k], todo ++ rest, 1)
  | _ => none

/-- A batch in the middle of the data: everything before it is confirmed. -/
def Pending (m : MemSetup) (cur later : List (ℕ × ℕ)) (acks : ℕ) (c : MemConfig) : Prop :=
  ∃ before base, m.job.blocks = before ++ (cur ++ later) ∧ (∀ k ∈ before, m.Confirmed base k) ∧
    (∀ k ∈ cur, m.job.addr + k.1 < 2 ^ 32) ∧ m.Batch cur base acks c

/-- The data up to some block is confirmed, and nothing is left over. -/
structure Secured (m : MemSetup) (later : List (ℕ × ℕ)) (c : MemConfig) : Prop where
  split : ∃ before, m.job.blocks = before ++ later ∧ ∀ k ∈ before, m.Confirmed c.snd.checks k
  settled : Settled c

/-- **The invariant.** -/
def Inv (m : MemSetup) (c : MemConfig) : Prop :=
  match attempt c.fst with
  | some (cur, later, acks) => m.Pending cur later acks c
  | none => c.fst = .returned true → m.Secured [] c

lemma blocks_pairwise : m.job.blocks.Pairwise fun k k' => k.1 < k'.1 :=
  Cut.pieces_pairwise _ _ _

/-- A complete batch secures its blocks. -/
lemma Pending.complete {cur later : List (ℕ × ℕ)} {acks : ℕ} {c : MemConfig}
    (h : m.Pending cur later acks c) (hacks : 2 * cur.length ≤ acks) : m.Secured later c := by
  obtain ⟨before, base, hsplit, hconf, haddr, hbatch⟩ := h
  obtain ⟨hsettled, hchecks⟩ := hbatch.complete hacks
  have hpair := m.blocks_pairwise
  rw [hsplit, List.pairwise_append, List.pairwise_append] at hpair
  obtain ⟨-, ⟨hcur, -, -⟩, hbefore⟩ := hpair
  have hreq : ∀ k ∈ cur, writeReq (m.job.command k).data = m.job.request k := by
    intro k hk
    refine writeReq_command (haddr k hk) ?_
    rw [hsplit]
    simp [hk]
  refine ⟨⟨before ++ cur, by rw [hsplit, List.append_assoc], fun k hk => ?_⟩, hsettled⟩
  rw [hchecks]
  rcases List.mem_append.mp hk with hk | hk
  · refine (hconf k hk).append fun e he heq => ?_
    obtain ⟨k', hk', rfl⟩ := List.mem_map.mp he
    have hlt := hbefore k hk k' (List.mem_append_left _ hk')
    simp only [hreq k' hk', MemJob.request] at heq
    omega
  · refine confirmed_of_forall ?_ fun e he heq => ?_
    · rw [← hreq k hk]
      exact List.mem_map.mpr ⟨k, hk, rfl⟩
    · obtain ⟨k', hk', rfl⟩ := List.mem_map.mp he
      simp only [hreq k' hk', MemJob.request] at heq
      have hsame : k' = k := by
        have hnodup : (cur.map Prod.fst).Nodup := List.pairwise_map.mpr (hcur.imp Nat.ne_of_lt)
        exact List.inj_on_of_nodup_map hnodup hk' hk (by omega)
      rw [hsame, hreq k hk]

/-- Nothing left over after an incomplete batch: it can be started again. -/
lemma Pending.secured {cur later : List (ℕ × ℕ)} {acks : ℕ} {c : MemConfig}
    (h : m.Pending cur later acks c) (hsettled : Settled c) : m.Secured (cur ++ later) c := by
  obtain ⟨before, base, hsplit, hconf, haddr, _, _, _, new, -, -, hchecks, hrec⟩ := h
  have hpair := m.blocks_pairwise
  rw [hsplit, List.pairwise_append] at hpair
  refine ⟨⟨before, hsplit, fun k hk => ?_⟩, hsettled⟩
  rw [hchecks]
  refine (hconf k hk).append fun e he heq => ?_
  obtain ⟨p, hp, hreq⟩ := hrec.req e he
  obtain ⟨k', hk', rfl⟩ := List.mem_map.mp hp
  have hlt := hpair.2.2 k hk k' (List.mem_append_left _ hk')
  rw [hreq, writeReq_command (haddr k' hk') (by rw [hsplit]; simp [hk'])] at heq
  simp only [MemJob.request] at heq
  omega

/-! ### The host sends -/

lemma filter_isRequest_sendData (data : List UInt8) (seq : ℕ) (ps : List (ℕ × ℕ)) :
    (sendData data seq ps).1.filter isRequest = [] := by
  induction ps generalizing seq with
  | nil => rfl
  | cons p ps ih =>
      rw [sendData]
      split
      · have hdata : isRequest (dataPacket data seq p) = false := rfl
        simp only [List.filter_cons, hdata, ih]
        rfl
      · rfl

lemma sendBlocks_encodes {ks : List (ℕ × ℕ)} (h : (m.job.sendBlocks ks).2 = true) :
    (∀ k ∈ ks, m.job.addr + k.1 < 2 ^ 32) ∧
      (m.job.sendBlocks ks).1.filter isRequest = ks.map m.job.command := by
  induction ks with
  | nil => exact ⟨by simp, rfl⟩
  | cons k ks ih =>
      rw [MemJob.sendBlocks] at h ⊢
      split at h
      · rename_i haddr
        obtain ⟨hrest, hfilter⟩ := ih h
        rw [if_pos haddr]
        refine ⟨fun k' hk' => ?_, ?_⟩
        · rcases List.mem_cons.mp hk' with rfl | hk'
          · exact haddr
          · exact hrest k' hk'
        · simp only [List.filter_cons_of_pos (show isRequest (m.job.command k) = true from rfl),
            List.filter_append, MemJob.stream, filter_isRequest_sendData, List.nil_append, hfilter,
            List.map_cons]
      · cases h

/-- The next window starts from a secured state. -/
lemma Secured.nextWindow {rest : List (ℕ × ℕ)} {c : MemConfig} (h : m.Secured rest c) (size : ℕ) :
    m.Inv ⟨(m.job.nextWindow size rest).1, c.snd, c.toFst,
      c.toSnd ++ (m.job.nextWindow size rest).2⟩ := by
  rw [MemJob.nextWindow]
  by_cases hnil : rest = []
  · subst hnil
    rw [if_pos rfl, List.append_nil]
    exact fun _ => ⟨h.split, h.settled.idle, h.settled.no_request, h.settled.no_ok⟩
  · rw [if_neg hnil]
    simp only
    cases henc : (m.job.sendBlocks (rest.take size)).2 with
    | false => exact fun hret => by cases hret
    | true =>
        obtain ⟨haddr, hfilter⟩ := sendBlocks_encodes henc
        obtain ⟨before, hsplit, hconf⟩ := h.split
        refine ⟨before, c.snd.checks, ?_, hconf, haddr, Batch.start h.settled hfilter _⟩
        rw [hsplit, List.take_append_drop]

/-- So does the retry of a block. -/
lemma Secured.retry {todo rest : List (ℕ × ℕ)} {c : MemConfig} (h : m.Secured (todo ++ rest) c) :
    m.Inv ⟨(m.job.retry todo rest).1, c.snd, c.toFst,
      c.toSnd ++ (m.job.retry todo rest).2⟩ := by
  cases todo with
  | nil => exact h.nextWindow _
  | cons k todo =>
      rw [MemJob.retry]
      split
      · rename_i haddr
        obtain ⟨before, hsplit, hconf⟩ := h.split
        refine ⟨before, c.snd.checks, hsplit, hconf, ?_, Batch.start h.settled rfl _⟩
        intro k' hk'
        rw [List.mem_singleton.mp hk']
        exact haddr
      · exact fun hret => by cases hret

/-! ### The host receives -/

/-- Fewer packets on their way, or fewer counted. -/
lemma Pending.lose {cur later : List (ℕ × ℕ)} {acks acks' : ℕ} {h h' : MemPhase} {a : WriteAgent}
    {xs xs' ys ys' : List Packet} (hpending : m.Pending cur later acks ⟨h, a, xs, ys⟩)
    (hacks : acks' + xs'.countP Packet.isOk ≤ acks + xs.countP Packet.isOk)
    (hys : (ys'.filter isRequest).Sublist (ys.filter isRequest)) :
    m.Pending cur later acks' ⟨h', a, xs', ys'⟩ := by
  obtain ⟨before, base, hsplit, hconf, haddr, hbatch⟩ := hpending
  exact ⟨before, base, hsplit, hconf, haddr, hbatch.lose hacks hys⟩

lemma Pending.skip {cur later : List (ℕ × ℕ)} {acks : ℕ} {h h' : MemPhase} {a : WriteAgent}
    {p : Packet} {xs ys : List Packet} (hpending : m.Pending cur later acks ⟨h, a, p :: xs, ys⟩) :
    m.Pending cur later acks ⟨h', a, xs, ys ++ []⟩ := by
  rw [List.append_nil]
  refine hpending.lose ?_ (List.Sublist.refl _)
  rw [List.countP_cons]
  omega

lemma Pending.count {cur later : List (ℕ × ℕ)} {acks : ℕ} {h h' : MemPhase} {a : WriteAgent}
    {p : Packet} {xs ys out : List Packet}
    (hpending : m.Pending cur later acks ⟨h, a, p :: xs, ys⟩) (hok : p.isOk = true)
    (hout : out.filter isRequest = []) :
    m.Pending cur later (acks + 1) ⟨h', a, xs, ys ++ out⟩ := by
  refine hpending.lose ?_ ?_
  · rw [List.countP_cons_of_pos hok]
    omega
  · rw [List.filter_append, hout, List.append_nil]

/-- **One packet to the host.** -/
lemma inv_hostRecv {h : MemPhase} (hwaits : h.waits = true) {a : WriteAgent} {p : Packet}
    {xs ys : List Packet} (hinv : m.Inv ⟨h, a, p :: xs, ys⟩) :
    m.Inv ⟨(memRecv m.job h p).1, a, xs, ys ++ (memRecv m.job h p).2⟩ := by
  have hrefused : ∀ zs, m.Inv ⟨blockRefused p, a, xs, zs⟩ := by
    intro zs
    rw [blockRefused]
    split <;> exact fun hret => by cases hret
  cases h with
  | called => cases hwaits
  | ready => cases hwaits
  | switching phase =>
      rw [memRecv, MemJob.afterSwitch]
      generalize switchRecv m.job.client phase p = r
      split <;> exact fun hret => by cases hret
  | window size cur rest acks =>
      have hpending : m.Pending cur rest acks ⟨.window size cur rest acks, a, p :: xs, ys⟩ := hinv
      rw [memRecv]
      split
      · exact hpending.skip
      · split
        · rename_i hok
          split
          · rename_i hall
            have hdone : m.Pending cur rest (acks + 1) ⟨.raised, a, xs, ys ++ []⟩ :=
              hpending.count hok rfl
            rw [List.append_nil] at hdone
            exact (hdone.complete (by omega)).nextWindow size
          · exact hpending.count hok rfl
        · rw [List.append_nil]
          refine hpending.lose ?_ (List.Sublist.refl _)
          rw [List.countP_cons]
          omega
  | retryAck k todo rest =>
      have hpending : m.Pending [k] (todo ++ rest) 0 ⟨.retryAck k todo rest, a, p :: xs, ys⟩ := hinv
      rw [memRecv]
      split
      · exact hpending.skip
      · split
        · rename_i hok
          exact hpending.count hok (filter_isRequest_sendData _ _ _)
        · exact hrefused _
  | retryCrc k todo rest =>
      have hpending : m.Pending [k] (todo ++ rest) 1 ⟨.retryCrc k todo rest, a, p :: xs, ys⟩ := hinv
      rw [memRecv]
      split
      · exact hpending.skip
      · split
        · rename_i hok
          have hdone : m.Pending [k] (todo ++ rest) 2 ⟨.raised, a, xs, ys ++ []⟩ :=
            hpending.count hok rfl
          rw [List.append_nil] at hdone
          exact (hdone.complete (Nat.le_refl _)).retry
        · exact hrefused _
  | failed cur rest => cases hwaits
  | drained cur rest => cases hwaits
  | returned ok => cases hwaits
  | raised => cases hwaits

/-! ### The agent and the link move -/

/-- Steps that leave the host alone keep the invariant where they keep its two parts. -/
lemma Inv.frame {h : MemPhase} {a a' : WriteAgent} {xs xs' ys ys' : List Packet}
    (hinv : m.Inv ⟨h, a, xs, ys⟩)
    (hpending : ∀ cur later acks, m.Pending cur later acks ⟨h, a, xs, ys⟩ →
      m.Pending cur later acks ⟨h, a', xs', ys'⟩)
    (hsecured : m.Secured [] ⟨h, a, xs, ys⟩ → m.Secured [] ⟨h, a', xs', ys'⟩) :
    m.Inv ⟨h, a', xs', ys'⟩ := by
  unfold Inv at hinv ⊢
  simp only at hinv ⊢
  generalize attempt h = t at hinv ⊢
  cases t with
  | none => exact fun hret => hsecured (hinv hret)
  | some t => exact hpending _ _ _ hinv

lemma Pending.agent (hram : m.ToRam) {cur later : List (ℕ × ℕ)} {acks : ℕ} {h : MemPhase}
    {a : WriteAgent} {xs ys : List Packet} {p : Packet}
    (hpending : m.Pending cur later acks ⟨h, a, xs, p :: ys⟩) :
    m.Pending cur later acks ⟨h, (WriteAgent.recv m.b m.chip m.info a p).1,
      xs ++ (WriteAgent.recv m.b m.chip m.info a p).2, ys⟩ := by
  obtain ⟨before, base, hsplit, hconf, haddr, hbatch⟩ := hpending
  refine ⟨before, base, hsplit, hconf, haddr, hbatch.agent fun q hq => ?_⟩
  obtain ⟨k, hk, rfl⟩ := List.mem_map.mp hq
  have hmem : k ∈ m.job.blocks := by
    rw [hsplit]
    simp [hk]
  rw [writeReq_command (haddr k hk) hmem]
  exact hram k hmem

/-- Once everything is confirmed, the agent is left alone. -/
lemma Secured.agent {h : MemPhase} {a : WriteAgent} {xs ys : List Packet} {p : Packet}
    (hsecured : m.Secured [] ⟨h, a, xs, p :: ys⟩) :
    m.Secured [] ⟨h, (WriteAgent.recv m.b m.chip m.info a p).1,
      xs ++ (WriteAgent.recv m.b m.chip m.info a p).2, ys⟩ := by
  obtain ⟨hsplit, hidle, hnone, hok⟩ := hsecured
  simp only at hsplit hidle hnone hok
  obtain ⟨hcmd, hbaud⟩ := hnone p (by simp)
  rcases WriteAgent.recv_idle (b := m.b) m.chip m.info hidle hbaud fun h => absurd h hcmd with
    ⟨h, -⟩ | ⟨hsame, hrefused⟩
  · exact absurd h hcmd
  · rw [hsame]
    refine ⟨hsplit, hidle, fun q hq => hnone q (by simp [show q ∈ ys from hq]), fun q hq => ?_⟩
    rcases List.mem_append.mp hq with hq | hq
    · exact hok q hq
    · exact hrefused q hq

lemma Secured.lose {h : MemPhase} {a : WriteAgent} {xs xs' ys ys' : List Packet}
    (hsecured : m.Secured [] ⟨h, a, xs, ys⟩) (hxs : ∀ p ∈ xs', p ∈ xs ∨ p.isOk = false)
    (hys : ∀ p ∈ ys', p ∈ ys ∨ p = noise) : m.Secured [] ⟨h, a, xs', ys'⟩ := by
  obtain ⟨hsplit, hidle, hnone, hok⟩ := hsecured
  refine ⟨hsplit, hidle, fun p hp => ?_, fun p hp => ?_⟩
  · rcases hys p hp with hp | rfl
    · exact hnone p hp
    · decide
  · rcases hxs p hp with hp | hp
    · exact hok p hp
    · exact hp

lemma inv_agent (hram : m.ToRam) {h : MemPhase} {a : WriteAgent} {xs ys : List Packet} {p : Packet}
    (hinv : m.Inv ⟨h, a, xs, p :: ys⟩) :
    m.Inv ⟨h, (WriteAgent.recv m.b m.chip m.info a p).1,
      xs ++ (WriteAgent.recv m.b m.chip m.info a p).2, ys⟩ :=
  hinv.frame (fun _ _ _ => Pending.agent hram) Secured.agent

/-- Loss and background traffic. -/
lemma inv_link {h : MemPhase} {a : WriteAgent} {xs xs' ys ys' : List Packet}
    (hinv : m.Inv ⟨h, a, xs, ys⟩) (hcount : xs'.countP Packet.isOk ≤ xs.countP Packet.isOk)
    (hxs : ∀ p ∈ xs', p ∈ xs ∨ p.isOk = false)
    (hfilter : (ys'.filter isRequest).Sublist (ys.filter isRequest))
    (hys : ∀ p ∈ ys', p ∈ ys ∨ p = noise) : m.Inv ⟨h, a, xs', ys'⟩ :=
  hinv.frame (fun _ _ _ hpending => hpending.lose (by omega) hfilter)
    fun hsecured => hsecured.lose hxs hys

/-! ## Runs on a quiet line -/

/-- A step that sends the first window or retries one only when nothing is left over. -/
def QuietStep (m : MemSetup) (c d : MemConfig) : Prop :=
  m.Step c d ∧ (c.fst.sends = true → Settled c)

/-- **One step.** -/
lemma inv_step (hram : m.ToRam) (c d : MemConfig) (hinv : m.Inv c) (hstep : m.QuietStep c d) :
    m.Inv d := by
  obtain ⟨hstep, hquiet⟩ := hstep
  cases hstep with
  | call a xs ys =>
      rw [MemJob.start]
      split <;> exact fun hret => by cases hret
  | begin a xs ys =>
      have hsecured : m.Secured m.job.blocks ⟨.ready, a, xs, ys⟩ :=
        ⟨⟨[], rfl, by simp⟩, hquiet rfl⟩
      exact hsecured.nextWindow _
  | hostRecv hwaits a p xs ys => exact inv_hostRecv hwaits hinv
  | hostTimeout h a xs ys =>
      cases h with
      | window size cur rest acks =>
          have hpending : m.Pending cur rest acks ⟨.window size cur rest acks, a, xs, ys⟩ := hinv
          exact hpending.lose (by omega) (List.Sublist.refl _)
      | retryAck k todo rest => exact fun hret => by cases hret
      | retryCrc k todo rest => exact fun hret => by cases hret
      | switching phase => cases phase <;> exact fun hret => by cases hret
      | called => exact hinv
      | ready => exact hinv
      | failed cur rest => exact hinv
      | drained cur rest => exact hinv
      | returned ok => exact hinv
      | raised => exact hinv
  | drain cur rest a xs ys n hn =>
      have hpending : m.Pending cur rest 0 ⟨.failed cur rest, a, xs, ys⟩ := hinv
      refine hpending.lose ?_ (List.Sublist.refl _)
      have := (List.drop_sublist n xs).countP_le (p := Packet.isOk)
      omega
  | retry cur rest a xs ys =>
      have hpending : m.Pending cur rest 0 ⟨.drained cur rest, a, xs, ys⟩ := hinv
      exact (hpending.secured (hquiet rfl)).retry
  | agentRecv h a xs p ys => exact inv_agent hram hinv
  | agentNoise h a xs ys =>
      -- a timeout is a packet that nobody sent
      have hnoisy : m.Inv ⟨h, a, xs, noise :: ys⟩ := by
        refine inv_link hinv (Nat.le_refl _) (fun p hp => .inl hp) (List.Sublist.refl _)
          fun p hp => ?_
        rcases List.mem_cons.mp hp with rfl | hp
        · exact .inr rfl
        · exact .inl hp
      exact inv_agent hram hnoisy
  | announce h hidle xs ys =>
      refine inv_link hinv ?_ (fun p hp => ?_) (List.Sublist.refl _) fun p hp => .inl hp
      · rw [List.countP_append]
        exact Nat.le_refl _
      · rcases List.mem_append.mp hp with hp | hp
        · exact .inl hp
        · rw [List.mem_singleton.mp hp]
          exact .inr rfl
  | loseToHost h a hsub ys =>
      exact inv_link hinv hsub.countP_le (fun p hp => .inl (hsub.subset hp)) (List.Sublist.refl _)
        fun p hp => .inl hp
  | loseToAgent h a xs hsub =>
      exact inv_link hinv (Nat.le_refl _) (fun p hp => .inl hp) (hsub.filter _)
        fun p hp => .inl (hsub.subset hp)

/-! ## Some runs -/

/-- A step of the host, with its outcome. -/
lemma Step.host {h h' : MemPhase} {a : WriteAgent} {p : Packet} {xs ys out : List Packet}
    (hwaits : h.waits = true) (heq : memRecv m.job h p = (h', out)) :
    m.Step ⟨h, a, p :: xs, ys⟩ ⟨h', a, xs, ys ++ out⟩ := by
  have hstep := Step.hostRecv (m := m) hwaits a p xs ys
  rwa [heq] at hstep

/-- A step of the agent, with its outcome. -/
lemma Step.agent {h : MemPhase} {a a' : WriteAgent} {p : Packet} {xs ys out : List Packet}
    (heq : WriteAgent.recv m.b m.chip m.info a p = (a', out)) :
    m.Step ⟨h, a, xs, p :: ys⟩ ⟨h, a', xs ++ out, ys⟩ := by
  have hstep := Step.agentRecv (m := m) h a xs p ys
  rwa [heq] at hstep

/-- A step that neither sends the first window nor retries one. -/
lemma QuietStep.of_not_sends {c d : MemConfig} (hstep : m.Step c d) (hsends : c.fst.sends = false) :
    m.QuietStep c d := by
  refine ⟨hstep, fun h => ?_⟩
  rw [hsends] at h
  cases h

/-- A quiet step of the agent, with its outcome. -/
lemma QuietStep.agent {h : MemPhase} {a a' : WriteAgent} {p : Packet} {out : List Packet}
    (heq : WriteAgent.recv m.b m.chip m.info a p = (a', out)) (hsends : h.sends = false)
    (xs ys : List Packet) : m.QuietStep ⟨h, a, xs, p :: ys⟩ ⟨h, a', xs ++ out, ys⟩ :=
  .of_not_sends (.agent heq) hsends

lemma reaches_step_of_quiet {c d : MemConfig} (h : Reaches m.QuietStep c d) : Reaches m.Step c d :=
  h.lift (f := id) fun _ _ hstep => (Reaches.refl _).tail hstep.1

/-- The agent accepts the request for a block in RAM. -/
lemma recv_command {k : ℕ × ℕ} (hk : k ∈ m.job.blocks) (hram : m.ToRam)
    (hbase : m.b.soc.ramBase ≤ m.job.addr) (hfits : m.job.addr + k.1 + k.2 < 2 ^ 32)
    (ram : Store UInt8) (checks : List CrcCheck) :
    WriteAgent.recv m.b m.chip m.info ⟨ram, .idle, checks⟩ (m.job.command k) =
      (⟨ram, .receiving (m.job.request k) 0, checks⟩, [ackPacket ackOk]) := by
  have hpos : 0 < k.2 := (Cut.mem_pieces _ hk).2.1
  have hle := (Cut.mem_pieces_upTo (show 0 < writeMaxTransfer by decide) (by simp) hk).2
  have hmax : writeMaxTransfer ≤ maxReadSize := by decide
  have haddr : (m.job.request k).addr = m.job.addr + k.1 := rfl
  have hsize : (m.job.request k).size = k.2 := rfl
  have hacc : (m.job.request k).accepted m.b = true :=
    WriteReq.accepted_of_fits (by omega) (by omega) (by omega) (by omega)
  have hcmd : (m.job.command k).cmd = cmdWrite := rfl
  have hlen : ¬ (m.job.command k).data.length < 12 := by
    simp only [MemJob.command, List.length_append, length_packU32]
    omega
  rw [WriteAgent.recv]
  simp only
  rw [if_pos hcmd, writeReq_command (by omega) hk, WriteAgent.begin, if_neg hlen, hram k hk,
    if_neg (by decide), if_pos hacc]

lemma length_block {k : ℕ × ℕ} (hk : k ∈ m.job.blocks) : (m.job.block k).length = k.2 := by
  have := (Cut.mem_pieces _ hk).2.2
  rw [MemJob.block, List.length_take, List.length_drop]
  omega

/-- A block that has arrived is found equal. -/
lemma finish_block {k : ℕ × ℕ} (a : WriteAgent) {ram : Store UInt8} {n : ℕ}
    (hload : ram.load (m.job.addr + k.1) k.2 = m.job.block k) :
    a.finish ram (m.job.request k) n =
      (⟨ram, .idle, a.checks ++ [⟨m.job.request k, true⟩]⟩, [ackPacket ackOk]) := by
  have hcrc : (crc32 0 (ram.load (m.job.request k).addr (m.job.request k).size)).toNat =
      (m.job.request k).crc := by
    simp only [MemJob.request, hload, crc32_zero]
  rw [WriteAgent.finish, if_pos hcrc]

/-- **The data of a block**, delivered from byte `r` on, completes it. -/
lemma reaches_checked {h : MemPhase} (hsends : h.sends = false) {k : ℕ × ℕ}
    (hk : k ∈ m.job.blocks) (checks : List CrcCheck) (xs ys : List Packet) (left : ℕ)
    {seq r : ℕ} {ram : Store UInt8} {out : List Packet} (hleft : r + left = k.2) (hpos : 0 < left)
    (hfilled : ram.load (m.job.addr + k.1) r = (m.job.block k).take r)
    (hout : sendData (m.job.block k) seq (writeChunks r left) = (out, true)) :
    ∃ ram', Reaches m.QuietStep
      ⟨h, ⟨ram, .receiving (m.job.request k) r, checks⟩, xs, out ++ ys⟩
      ⟨h, ⟨ram', .idle, checks ++ [⟨m.job.request k, true⟩]⟩, xs ++ [ackPacket ackOk], ys⟩ := by
  induction left using Nat.strongRecOn generalizing seq r ram out with
  | ind left ih =>
      have hlen := length_block hk
      rw [writeChunks, Cut.pieces_of_pos _ _ hpos] at hout
      have hfirst := (Cut.upTo writeChunkSize (by decide)).first_pos r _ hpos
      have hfirst' := (Cut.upTo writeChunkSize (by decide)).first_le r left
      generalize (Cut.upTo writeChunkSize (by decide)).first r left = n at hout hfirst hfirst'
      obtain ⟨rest, rfl, hrest⟩ := sendData_cons_inv hout
      obtain ⟨chunk, hchunk⟩ : ∃ chunk, chunk = ((m.job.block k).drop r).take n := ⟨_, rfl⟩
      have hpacket : dataPacket (m.job.block k) seq (r, n) = ⟨rspData, packU16 seq ++ chunk⟩ := by
        rw [hchunk]
        rfl
      have hn : chunk.length = n := by
        rw [hchunk, List.length_take, List.length_drop]
        omega
      have hsize : (m.job.request k).size = k.2 := rfl
      have hlong : (packU16 seq ++ chunk).length > 2 := by
        simp only [List.length_append, length_packU16]
        omega
      have hcopy : copyIn ram (m.job.request k).addr r (m.job.request k).size
          (packU16 seq ++ chunk) = (ram.write (m.job.addr + k.1 + r) chunk, r + n) := by
        have hdrop : (packU16 seq ++ chunk).drop 2 = chunk := rfl
        rw [copyIn, hdrop, List.take_of_length_le (by omega), hn]
        rfl
      have hload := load_copyIn hfilled (hchunk.trans (by rw [hn]))
      rw [hn] at hload
      have hrecv : WriteAgent.recv m.b m.chip m.info
          ⟨ram, .receiving (m.job.request k) r, checks⟩ (dataPacket (m.job.block k) seq (r, n)) =
          if r + n < k.2 then
            (⟨ram.write (m.job.addr + k.1 + r) chunk, .receiving (m.job.request k) (r + n),
              checks⟩, [])
          else WriteAgent.finish ⟨ram, .receiving (m.job.request k) r, checks⟩
            (ram.write (m.job.addr + k.1 + r) chunk) (m.job.request k) (r + n) := by
        rw [hpacket, WriteAgent.recv]
        simp only
        rw [WriteAgent.receive, if_pos ⟨rfl, hlong⟩]
        simp only [hcopy]
        rfl
      by_cases hlt : r + n < k.2
      · rw [if_pos hlt] at hrecv
        obtain ⟨ram', hreach⟩ := ih (left - n) (by omega) (by omega) (by omega) hload hrest
        have hstep := QuietStep.agent hrecv hsends xs (rest ++ ys)
        rw [List.append_nil] at hstep
        exact ⟨ram', ((Reaches.refl _).tail hstep).trans hreach⟩
      · rw [show r + n = k.2 by omega] at hload
        rw [if_neg hlt, finish_block _ (by rw [hload, List.take_of_length_le (by omega)])] at hrecv
        rw [show left - n = 0 by omega, Cut.pieces_zero, sendData] at hrest
        cases hrest
        exact ⟨_, (Reaches.refl _).tail (.agent hrecv hsends _ _)⟩

/-- The data packets of a block can always be encoded. -/
lemma sendData_block {k : ℕ × ℕ} (hk : k ∈ m.job.blocks) :
    sendData (m.job.block k) 0 (writeChunks 0 k.2) = (m.job.stream k, true) := by
  have hle : k.2 ≤ 16384 :=
    (Cut.mem_pieces_upTo (show 0 < writeMaxTransfer by decide) (by simp) hk).2
  have hdiv : (k.2 + writeChunkSize - 1) / writeChunkSize ≤ k.2 + writeChunkSize - 1 :=
    Nat.div_le_self _ _
  have hchunk : writeChunkSize = 512 := rfl
  refine Prod.ext rfl ((sendData_snd _ _ _).mpr (.inr ?_))
  rw [writeChunks, Cut.length_pieces_upTo]
  omega

/-- **A block that is delivered** is confirmed twice. -/
lemma reaches_block (hram : m.ToRam) (hbase : m.b.soc.ramBase ≤ m.job.addr) {h : MemPhase}
    (hsends : h.sends = false) {k : ℕ × ℕ} (hk : k ∈ m.job.blocks)
    (hfits : m.job.addr + k.1 + k.2 < 2 ^ 32) (ram : Store UInt8) (checks : List CrcCheck)
    (xs ys : List Packet) :
    ∃ ram', Reaches m.QuietStep
      ⟨h, ⟨ram, .idle, checks⟩, xs, m.job.command k :: (m.job.stream k ++ ys)⟩
      ⟨h, ⟨ram', .idle, checks ++ [⟨m.job.request k, true⟩]⟩,
        xs ++ [ackPacket ackOk] ++ [ackPacket ackOk], ys⟩ := by
  have hpos : 0 < k.2 := (Cut.mem_pieces _ hk).2.1
  have hstep := QuietStep.agent (recv_command hk hram hbase hfits ram checks) hsends xs
    (m.job.stream k ++ ys)
  obtain ⟨ram', hreach⟩ := reaches_checked hsends hk checks (xs ++ [ackPacket ackOk]) ys k.2
    (Nat.zero_add _) hpos (by rfl) (sendData_block hk)
  exact ⟨ram', ((Reaches.refl _).tail hstep).trans hreach⟩

/-- RAM lies above every SPI flash. -/
lemma toRam_of_spi (hspi : m.b.flashInfo.flashType ≠ .emmc) (haddr : m.b.soc.ramBase ≤ m.job.addr) :
    m.ToRam := by
  intro k _
  have hflash : m.b.flashReadable = true → m.b.flashInfo.size ≤ (m.job.request k).addr := by
    intro hread
    have hbase := m.b.flashMem_add_le.1
    have hle : (m.job.request k).addr = m.job.addr + k.1 := rfl
    rcases m.b.boot_cases hread with hnor | ⟨hnand, -⟩ | ⟨card, -, -, hinfo⟩
    · have := hnor.size_bounds.2
      omega
    · have : m.b.flashInfo.size = 2 ^ 27 := by rw [hnand]; rfl
      omega
    · rw [hinfo] at hspi
      exact absurd rfl hspi
  cases hread : m.b.flashReadable with
  | true => exact WriteReq.toFlash_of_le (hflash hread)
  | false => simp [WriteReq.toFlash, hread]

lemma Confirmed.exists_mem {checks : List CrcCheck} {k : ℕ × ℕ} (h : m.Confirmed checks k) :
    ∃ e ∈ checks, e.req.addr = m.job.addr + k.1 := by
  obtain ⟨hmem, hrange⟩ := List.mem_filter.mp (List.mem_of_getLast? h)
  exact ⟨_, hmem, (of_decide_eq_true hrange).1⟩

/-- Two blocks, the second of a single byte, for a board with a NOR. -/
def twoBlocks (hasPort : Bool) (client : BaudClient) : MemSetup where
  b := norBoard hi3516ev300 hi3516ev300_mem
  chip := idealChip
  hasPort := hasPort
  info := []
  job := ⟨0x41000000, List.replicate 16385 0x00, client⟩

section TwoBlocks

variable (hasPort : Bool) (client : BaudClient)

lemma twoBlocks_blocks : (twoBlocks hasPort client).job.blocks = [(0, 16384), (16384, 1)] := by
  have hlen : (twoBlocks hasPort client).job.data.length = 16385 := List.length_replicate
  rw [MemJob.blocks, hlen, Cut.pieces_of_pos _ _ (by decide)]
  have h1 : (Cut.upTo writeMaxTransfer (by decide)).first 0 16385 = 16384 := rfl
  rw [h1, Cut.pieces_of_pos _ _ (by decide)]
  rfl

lemma twoBlocks_base : (twoBlocks hasPort client).b.soc.ramBase ≤
    (twoBlocks hasPort client).job.addr := by
  show hi3516ev300.ramBase ≤ 0x41000000
  decide

lemma twoBlocks_toRam : (twoBlocks hasPort client).ToRam := by
  refine toRam_of_spi ?_ (twoBlocks_base _ _)
  show (norBoard hi3516ev300 hi3516ev300_mem).flashInfo.flashType ≠ .emmc
  decide

lemma twoBlocks_firstWindow : (twoBlocks hasPort client).job.firstWindow =
    (.window 2 [(0, 16384), (16384, 1)] [] 0,
      (twoBlocks hasPort client).job.command (0, 16384) ::
        ((twoBlocks hasPort client).job.stream (0, 16384) ++
          ((twoBlocks hasPort client).job.command (16384, 1) ::
            ((twoBlocks hasPort client).job.stream (16384, 1) ++ [])))) := by
  have h1 : (twoBlocks hasPort client).job.addr + (0, 16384).1 < 2 ^ 32 := by
    show 0x41000000 + 0 < 2 ^ 32
    decide
  have h2 : (twoBlocks hasPort client).job.addr + (16384, 1).1 < 2 ^ 32 := by
    show 0x41000000 + 16384 < 2 ^ 32
    decide
  have hall : List.take 2 [((0 : ℕ), 16384), (16384, 1)] = [(0, 16384), (16384, 1)] := rfl
  have hsize : MemJob.windowFor [(0, 16384), (16384, 1)] = 2 := rfl
  rw [MemJob.firstWindow, twoBlocks_blocks, MemJob.nextWindow, if_neg (by decide), hsize, hall,
    MemJob.sendBlocks, if_pos h1, MemJob.sendBlocks, if_pos h2, MemJob.sendBlocks]
  rfl

/-- Either block is confirmed twice when it is delivered. -/
lemma twoBlocks_deliver {h : MemPhase} (hsends : h.sends = false) {k : ℕ × ℕ}
    (hk : k ∈ [((0 : ℕ), 16384), (16384, 1)]) (ram : Store UInt8) (checks : List CrcCheck)
    (xs ys : List Packet) :
    ∃ ram', Reaches (twoBlocks hasPort client).QuietStep
      ⟨h, ⟨ram, .idle, checks⟩, xs, (twoBlocks hasPort client).job.command k ::
        ((twoBlocks hasPort client).job.stream k ++ ys)⟩
      ⟨h, ⟨ram', .idle, checks ++ [⟨(twoBlocks hasPort client).job.request k, true⟩]⟩,
        xs ++ [ackPacket ackOk] ++ [ackPacket ackOk], ys⟩ := by
  refine reaches_block (twoBlocks_toRam _ _) (twoBlocks_base _ _) hsends
    (by rwa [twoBlocks_blocks]) ?_ ram checks xs ys
  show 0x41000000 + k.1 + k.2 < 2 ^ 32
  simp only [List.mem_cons, List.not_mem_nil, or_false] at hk
  rcases hk with rfl | rfl <;> decide

end TwoBlocks

end MemSetup

/-! ## What `True` means -/

/-- **A quiet line makes the count sound.**  In every run whose first window and whose retries are
sent when nothing is left over, `True` means that the last comparison of every block found its
checksum. -/
theorem writeMemory_confirms (m : MemSetup) (hram : m.ToRam) (a : WriteAgent)
    (toHost toAgent : List Packet) (c : MemConfig)
    (hrun : Reaches m.QuietStep ⟨.called, a, toHost, toAgent⟩ c) (hret : c.fst = .returned true) :
    ∀ k ∈ m.job.blocks, m.Confirmed c.snd.checks k := by
  have hinv := hrun.invariant (MemSetup.inv_step hram) fun h => by cases h
  rw [MemSetup.Inv, hret] at hinv
  obtain ⟨before, hsplit, hconf⟩ := (hinv rfl).split
  rw [List.append_nil] at hsplit
  rw [hsplit]
  exact hconf

open MemSetup in
/-- Two blocks over a serial port: a stale announcement is skipped, the rate is settled, and all
four confirmations arrive. -/
theorem writeMemory_confirms_twoBlocks : ∃ c, Reaches (twoBlocks true serialClient).QuietStep
    ⟨.called, ⟨fun _ => 0, .idle, []⟩, [readyPacket], []⟩ c ∧ c.fst = .returned true ∧
      (twoBlocks true serialClient).Confirmed c.snd.checks (0, 16384) ∧
      (twoBlocks true serialClient).Confirmed c.snd.checks (16384, 1) := by
  have hmem := twoBlocks_blocks true serialClient
  have hstart : (twoBlocks true serialClient).job.start =
      (.switching .awaitAck, [setBaudPacket defaultFastBaud]) := by
    have hlen : (twoBlocks true serialClient).job.data.length = 16385 := List.length_replicate
    have hswitches : (twoBlocks true serialClient).job.client.switches 16385 = true := by decide
    rw [MemJob.start, hlen, if_pos hswitches]
  have hbaud : ∀ a : WriteAgent, a.phase = .idle → WriteAgent.recv (twoBlocks true serialClient).b
      (twoBlocks true serialClient).chip (twoBlocks true serialClient).info a
      (setBaudPacket defaultFastBaud) = (a, [ackPacket ackOk]) := by
    intro a hidle
    have hstatus := setBaudStatus_packU32 (show 9600 ≤ defaultFastBaud by decide) (by decide)
    rw [WriteAgent.recv, hidle]
    simp only [setBaudPacket, show cmdSetBaud ≠ cmdWrite by decide,
      show cmdSetBaud ≠ 0 by decide, if_false, mainLoopAnswer, if_true, hstatus]
  have hrun : Reaches (twoBlocks true serialClient).QuietStep
      ⟨.called, ⟨fun _ => 0, .idle, []⟩, [readyPacket], []⟩
      ⟨.called, ⟨fun _ => 0, .idle, []⟩, [readyPacket], []⟩ := .refl _
  -- the rate
  replace hrun := hrun.tail (.of_not_sends (.call _ _ _) rfl)
  rw [hstart] at hrun
  replace hrun := hrun.tail (.of_not_sends (.host rfl
    (show memRecv _ (.switching .awaitAck) readyPacket = (.switching .awaitAck, []) from rfl)) rfl)
  replace hrun := hrun.tail (.of_not_sends (.agent (hbaud _ rfl)) rfl)
  replace hrun := hrun.tail (.of_not_sends (.host rfl
    (show memRecv _ (.switching .awaitAck) (ackPacket ackOk) =
      (.switching .awaitInfo, [infoPacket]) from rfl)) rfl)
  replace hrun := hrun.tail (.of_not_sends (.agent
    (show WriteAgent.recv _ _ _ ⟨fun _ => 0, .idle, []⟩ infoPacket =
      (⟨fun _ => 0, .idle, []⟩, [⟨rspInfo, []⟩]) from rfl)) rfl)
  replace hrun := hrun.tail (.of_not_sends (.host rfl
    (show memRecv _ (.switching .awaitInfo) ⟨rspInfo, []⟩ = (.ready, []) from rfl)) rfl)
  -- the window
  replace hrun := hrun.tail ⟨.begin _ _ _, fun _ => ⟨rfl, by simp, by simp⟩⟩
  rw [twoBlocks_firstWindow] at hrun
  obtain ⟨ram, hfst⟩ := twoBlocks_deliver true serialClient
    (h := .window 2 [(0, 16384), (16384, 1)] [] 0) rfl (k := (0, 16384)) (by simp)
    (fun _ => 0) [] [] ((twoBlocks true serialClient).job.command (16384, 1) ::
      ((twoBlocks true serialClient).job.stream (16384, 1) ++ []))
  obtain ⟨ram', hsnd⟩ := twoBlocks_deliver true serialClient
    (h := .window 2 [(0, 16384), (16384, 1)] [] 0) rfl (k := (16384, 1)) (by simp) ram
    [⟨(twoBlocks true serialClient).job.request (0, 16384), true⟩]
    [ackPacket ackOk, ackPacket ackOk] []
  replace hrun := (hrun.trans hfst).trans hsnd
  -- the confirmations
  replace hrun := hrun.tail (.of_not_sends (.host rfl rfl) rfl)
  replace hrun := hrun.tail (.of_not_sends (.host rfl rfl) rfl)
  replace hrun := hrun.tail (.of_not_sends (.host rfl rfl) rfl)
  replace hrun := hrun.tail (.of_not_sends (.host rfl rfl) rfl)
  have hconf := writeMemory_confirms (twoBlocks true serialClient) (twoBlocks_toRam _ _) _ _ _ _
    hrun rfl
  exact ⟨_, hrun, rfl, hconf _ (by simp [hmem]), hconf _ (by simp [hmem])⟩

namespace MemSetup

/-- `True` means that the last comparison of every block found its checksum, whatever the link does
and whenever the host gives up.  The call finds the agent in its main loop and nothing in flight. -/
def Sound (m : MemSetup) : Prop :=
  ∀ ram checks c, Reaches m.Step ⟨.called, ⟨ram, .idle, checks⟩, [], []⟩ c →
    c.fst = .returned true → ∀ k ∈ m.job.blocks, m.Confirmed c.snd.checks k

end MemSetup

open MemSetup in
/-- Without a quiet line it does not.  The rate is settled already; the data of the first block is
corrupted, the second block goes through, and its two confirmations are still queued when the first
one is retried: they are counted for it although nothing of the retry arrives. -/
theorem writeMemory_counts_stale_acks :
    ¬ (twoBlocks false ⟨true, defaultFastBaud, true⟩).Sound := by
  intro h
  have hmem := twoBlocks_blocks false ⟨true, defaultFastBaud, true⟩
  have hstart : (twoBlocks false ⟨true, defaultFastBaud, true⟩).job.start = (.ready, []) := by
    have hlen : (twoBlocks false ⟨true, defaultFastBaud, true⟩).job.data.length = 16385 :=
      List.length_replicate
    have hswitches : ¬ (twoBlocks false ⟨true, defaultFastBaud, true⟩).job.client.switches 16385 =
        true := by decide
    rw [MemJob.start, hlen, if_neg hswitches]
  have hfirst := twoBlocks_firstWindow false ⟨true, defaultFastBaud, true⟩
  have hram := twoBlocks_toRam false ⟨true, defaultFastBaud, true⟩
  have hbase := twoBlocks_base false ⟨true, defaultFastBaud, true⟩
  have hdeliver := fun (h : MemPhase) (hsends : h.sends = false) =>
    twoBlocks_deliver false ⟨true, defaultFastBaud, true⟩ hsends
      (k := (16384, 1)) (by simp)
  have haddr : (twoBlocks false ⟨true, defaultFastBaud, true⟩).job.addr = 0x41000000 := rfl
  generalize twoBlocks false ⟨true, defaultFastBaud, true⟩ = m at *
  have hsecond : ((16384, 1) : ℕ × ℕ) ∈ m.job.blocks := by simp [hmem]
  have hretry := MemJob.retry_cons m.job [(16384, 1)] []
    (show m.job.addr + ((0, 16384) : ℕ × ℕ).1 < 2 ^ 32 by rw [haddr]; decide)
  have hnext := MemJob.retry_cons m.job [] []
    (show m.job.addr + ((16384, 1) : ℕ × ℕ).1 < 2 ^ 32 by rw [haddr]; decide)
  have hrun : Reaches m.Step ⟨.called, ⟨fun _ => 0, .idle, []⟩, [], []⟩
      ⟨.called, ⟨fun _ => 0, .idle, []⟩, [], []⟩ := .refl _
  replace hrun := hrun.tail (.call _ _ _)
  rw [hstart] at hrun
  replace hrun := hrun.tail (.begin _ _ _)
  rw [hfirst] at hrun
  -- the request for the first block arrives, and its data is corrupted
  replace hrun := hrun.tail (.agent (recv_command (k := (0, 16384)) (by simp [hmem]) hram hbase
    (by rw [haddr]; decide) _ _))
  replace hrun := hrun.tail (.loseToAgent _ _ _ (List.sublist_append_right _ _))
  replace hrun := hrun.tail (.agentNoise _ _ _ _)
  -- the second block goes through
  obtain ⟨ram, hsnd⟩ := hdeliver (.window 2 [(0, 16384), (16384, 1)] [] 0) rfl (fun _ => 0) []
    ([] ++ [ackPacket ackOk] ++ [⟨rspAck, ackFlashError :: packU32 0⟩]) []
  replace hrun := hrun.trans (reaches_step_of_quiet hsnd)
  -- the host gives up on the window; the two confirmations of the second block stay queued
  replace hrun := hrun.tail (.host rfl rfl)
  replace hrun := hrun.tail (.host rfl rfl)
  replace hrun := hrun.tail (.drain _ _ _ _ _ 0 fun _ => rfl)
  replace hrun := hrun.tail (.retry _ _ _ _ _)
  rw [hretry] at hrun
  -- they confirm the first block, of which nothing arrives
  replace hrun := hrun.tail (.loseToAgent _ _ _ (List.nil_sublist _))
  replace hrun := hrun.tail (.host rfl (memRecv_retryAck_ok ..))
  replace hrun := hrun.tail (.loseToAgent _ _ _ (List.nil_sublist _))
  replace hrun := hrun.tail (.host rfl ((memRecv_retryCrc_ok ..).trans hnext))
  -- the second block goes through again
  replace hrun := hrun.tail (.agent (recv_command hsecond hram hbase (by rw [haddr]; decide) _ _))
  replace hrun := hrun.tail (.host rfl (memRecv_retryAck_ok ..))
  obtain ⟨ram', hdata⟩ := reaches_checked (m := m) (h := .retryCrc (16384, 1) [] []) rfl hsecond
    ([] ++ [⟨m.job.request (16384, 1), true⟩]) [] [] 1 (Nat.zero_add _) (by decide) (by rfl)
    (sendData_block hsecond)
  rw [List.append_nil] at hdata
  replace hrun := hrun.trans (reaches_step_of_quiet hdata)
  replace hrun := hrun.tail (.host rfl rfl)
  have hconf := h _ _ _ hrun rfl (0, 16384) (by simp [hmem])
  -- no comparison of the first block was ever completed
  obtain ⟨e, he, hrange⟩ := hconf.exists_mem
  have hlast : e.req.addr = m.job.addr + 16384 := by
    simp only [List.nil_append, List.cons_append, List.mem_cons, List.not_mem_nil, or_false,
      or_self] at he
    rw [he]
    rfl
  simp only at hrange
  omega

end Defib
