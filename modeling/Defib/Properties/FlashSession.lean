import Defib.Host.WriteFlash
import Defib.Agent.FlashStream

/-!
# A flash write over a perfect link

`write_flash` and the agent as two parties joined by two loss-free queues.  The host may run ahead
of the agent or behind it; what they agree on is how many replies the agent has sent and how many
the host has read, and `Joint` says what is in flight at each such point.  `Switching` is the
conversation about the rate in front of it, for a transport that can follow the agent.  Together
they are an invariant of every interleaving, and it carries a bound on the deliveries that are left
(`conforms_ranked`).

`conforms_stuck` and `conforms_returned` read off it how a session ends.
-/

namespace Defib

/-! ## The parties -/

/-- What `flash_init` can report. -/
lemma Board.spi_geometry {b : Board} {g : Geometry} (hg : b.geometry = some g)
    (hspi : b.flashInfo.flashType ≠ .emmc) :
    (g.sectorSize = 0x10000 ∧ g.pageSize = 256 ∨ g.sectorSize = 0x20000 ∧ g.pageSize = 2048) ∧
      g.size ≤ 2 ^ 27 := by
  unfold Board.geometry at hg
  split at hg
  · rename_i hread
    cases hg
    simp only
    rcases b.boot_cases hread with hnor | ⟨hnand, -⟩ | ⟨card, -, -, hinfo⟩
    · have := hnor.size_bounds
      exact ⟨.inl ⟨hnor.2.1, hnor.2.2.1⟩, by omega⟩
    · rw [hnand]
      exact ⟨.inr ⟨rfl, rfl⟩, by decide⟩
    · rw [hinfo] at hspi
      exact absurd rfl hspi
  · cases hg

/-- A call of `write_flash` on a client that knows the sector size of the agent's SPI flash, with
data that fits the flash.  `info` is what the agent answers to `CMD_INFO`. -/
structure WriteJob where
  b : Board
  g : Geometry
  geometry_eq : b.geometry = some g
  spi : b.flashInfo.flashType ≠ .emmc
  client : BaudClient
  info : List UInt8
  addr : ℕ
  data : List UInt8
  data_pos : 0 < data.length
  fits : addr + data.length ≤ g.size

namespace WriteJob

variable (w : WriteJob)

/-- The call, from the host's side. -/
def job : FlashJob := ⟨w.addr, w.data, w.g.sectorSize, w.client⟩

/-- Whether the call settles the rate first. -/
def switches : Bool := w.client.switches w.data.length

/-- If the call asks for another rate, the transport can follow. -/
def CanFollow : Prop := w.switches = true → w.client.canSetBaud = true

/-- What the host sends about the rate. -/
def preamble : List Packet :=
  if w.switches then
    if w.client.canSetBaud then [setBaudPacket defaultFastBaud, infoPacket]
    else [setBaudPacket defaultFastBaud, setBaudPacket fallbackBaud]
  else []

/-- The stream, from the agent's side. -/
def req : StreamReq := ⟨w.addr, w.data.length, w.job.bitmap⟩

/-- Host and agent, with what is in flight between them. -/
abbrev Session := Pair WriteHost StreamAgent Packet Packet

/-- The start of a session: `stale` is how often the agent has announced itself before. -/
def start (flash ram : Store UInt8) (stale : ℕ) : Session :=
  ⟨.start w.job, ⟨flash, .ready ram⟩, List.replicate stale readyPacket,
    (WriteHost.start w.job).sent⟩

/-- One delivery. -/
def Step : Session → Session → Prop :=
  Pair.Step (WriteHost.recv w.job) (StreamAgent.recv w.b w.info)

/-! ## Both sides agree on the sectors -/

lemma geometry_bounds : w.g.sectorSize ∣ 2 ^ 25 ∧ writeChunkSize ∣ w.g.sectorSize ∧
    4 ∣ w.g.pageSize ∧ w.g.sectorSize ≤ 2 ^ 17 ∧ w.addr + w.data.length ≤ 2 ^ 27 := by
  obtain ⟨hcases, hsize⟩ := Board.spi_geometry w.geometry_eq w.spi
  have hfits := w.fits
  rcases hcases with ⟨hsector, hpage⟩ | ⟨hsector, hpage⟩ <;> rw [hsector, hpage] <;>
    exact ⟨by decide, by decide, by decide, by decide, by omega⟩

lemma sectorSz_eq : w.job.sectorSz = w.g.sectorSize := by
  have := w.g.sector_pos
  rw [FlashJob.sectorSz, if_neg]
  · rfl
  · exact Nat.pos_iff_ne_zero.mp this

lemma numSectors_eq : w.req.numSectors w.g = w.job.numSectors := by
  obtain ⟨-, -, -, hsector, hfits⟩ := w.geometry_bounds
  have hpos := w.g.sector_pos
  have hadd : add32 w.data.length (w.g.sectorSize - 1) =
      w.data.length + w.g.sectorSize - 1 := by
    rw [add32_of_lt (by omega)]
    omega
  rw [FlashJob.numSectors, w.sectorSz_eq]
  exact congrArg (· / w.g.sectorSize) hadd

lemma numSectors_pos : 0 < w.job.numSectors := by
  have := w.data_pos
  have hpos := w.job.sectorSz_pos
  exact Nat.div_pos (by simp only [job] at this ⊢; omega) hpos

lemma sector_lt {s : ℕ} (hs : s < w.job.numSectors) : s * w.g.sectorSize < w.data.length := by
  have := w.job.sector_lt hs
  rwa [w.sectorSz_eq] at this

lemma lt_numSectors {s : ℕ} (hs : s * w.g.sectorSize < w.data.length) : s < w.job.numSectors := by
  have hpos := w.g.sector_pos
  rw [FlashJob.numSectors, w.sectorSz_eq, Nat.lt_iff_add_one_le, Nat.le_div_iff_mul_le hpos,
    Nat.add_mul, Nat.one_mul]
  simp only [job]
  omega

lemma sectorBytes_eq (s : ℕ) :
    w.req.sectorBytes w.g s = min w.g.sectorSize (w.data.length - s * w.g.sectorSize) := by
  unfold StreamReq.sectorBytes req
  split_ifs with h <;> simp only at h ⊢ <;> omega

lemma length_sectorData (s : ℕ) : (w.job.sectorData s).length = w.req.sectorBytes w.g s := by
  rw [FlashJob.length_sectorData, w.sectorSz_eq, w.sectorBytes_eq]
  rfl

lemma announced_eq {s : ℕ} (hs : s < w.job.numSectors) :
    bitmapBit w.req.bitmap s = w.job.nonEmpty s := w.job.bitmapBit_bitmap hs

/-- The agent reads the request as the host meant it. -/
lemma streamReq_request : streamReq w.job.request.data = w.req := by
  obtain ⟨-, -, -, -, hfits⟩ := w.geometry_bounds
  have haddr : w.addr % 2 ^ 32 = w.addr := Nat.mod_eq_of_lt (by omega)
  have hlen : w.data.length % 2 ^ 32 = w.data.length := Nat.mod_eq_of_lt (by omega)
  have h4 : w.job.request.data.drop 4 = packU32 w.data.length ++
      (packU32 (zlibCrc32 w.data).toNat ++ w.job.bitmap) := rfl
  have h0 : w.job.request.data = packU32 w.addr ++ (packU32 w.data.length ++
      (packU32 (zlibCrc32 w.data).toNat ++ w.job.bitmap)) := rfl
  have h12 : w.job.request.data.drop 12 = w.job.bitmap := rfl
  rw [streamReq, h4, h12, readLe32_packU32_append, hlen, h0, readLe32_packU32_append, haddr]
  rfl

lemma length_request : w.job.request.data.length = 12 + (w.job.numSectors + 7) / 8 := by
  simp only [FlashJob.request, List.length_append, length_packU32, w.job.length_bitmap]

/-! ## The joint invariant -/

/-- Where the host is after it has read `h` replies. -/
def hostAt (h : ℕ) : WritePhase :=
  if h = 0 then .awaitAck
  else if h ≤ w.job.numSectors then .awaitProgress (h - 1)
  else if h = w.job.numSectors + 1 then .awaitFinal
  else .returned true

/-- Where the agent is after it has sent `e` replies: it has `r` bytes of the current sector. -/
inductive AgentAt (init : Store UInt8) : StreamAgent → ℕ → ℕ → Prop
  | ready (ram : Store UInt8) : AgentAt init ⟨init, .ready ram⟩ 0 0
  | stream {flash : Store UInt8} {next : Option StreamState} {e r : ℕ}
      (h : StreamAt w.b w.g w.req w.job.sectorData init flash next e r) :
      AgentAt init ⟨flash, StreamAgent.phaseOf w.g w.req next⟩ e r

/-- What is in flight to the agent: the request, the rest of the sector it waits for, or nothing
because the host has yet to read replies. -/
inductive InFlight (h : ℕ) : ℕ → ℕ → List Packet → Prop
  | request : InFlight h 0 0 [w.job.request]
  | sector (s r seq : ℕ) {out : List Packet} (hh : h = s + 1)
      (hout : sendData w.data seq (writeChunks (s * w.g.sectorSize + r)
        (w.req.sectorBytes w.g s - r)) = (out, true)) : InFlight h (s + 1) r out
  | behind {e : ℕ} (he : 0 < e) (hh : h < e ∨ e = w.job.numSectors + 2) : InFlight h e 0 []

/-- **The joint invariant**: the host has read `h` replies of the `e` the agent has sent, `k`
announcements are still in front of them, and `n` bounds the deliveries that are left. -/
structure Joint (init : Store UInt8) (n : ℕ) (c : Session) (h e r k : ℕ) : Prop where
  phase : c.fst.phase = w.hostAt h
  sent : c.fst.sent = w.preamble ++ w.job.request ::
    (List.range (min h w.job.numSectors)).flatMap fun s => (w.job.sendSector s).1
  encoded : ∀ s < min h w.job.numSectors, (w.job.sendSector s).2 = true
  le : h ≤ e
  agent : w.AgentAt init c.snd e r
  front : h = 0 ∨ k = 0
  toHost : c.toFst = List.replicate k readyPacket ++ streamReplies w.job.numSectors h e
  toAgent : w.InFlight h e r c.toSnd
  skipped : ∀ i, h ≤ i → i + 1 < e → i < w.job.numSectors → w.job.nonEmpty i = false
  rank : n + h + e * w.g.sectorSize + r = k + (w.job.numSectors + 2) +
    (w.job.numSectors + 2) * w.g.sectorSize

/-- The bound on the deliveries from the request on. -/
def deliveries : ℕ := w.job.numSectors + 2 + (w.job.numSectors + 2) * w.g.sectorSize

/-- **The conversation about the rate**, on a transport that can follow.  When the host empties its
buffers, nothing is in them: it has read the `ACK_OK` behind all announcements. -/
inductive Switching (init : Store UInt8) : ℕ → Session → Prop
  | asked (ram : Store UInt8) (k : ℕ) : Switching init (w.deliveries + 4 + k)
      ⟨⟨.switching .awaitAck, [setBaudPacket defaultFastBaud]⟩, ⟨init, .ready ram⟩,
        List.replicate k readyPacket, [setBaudPacket defaultFastBaud]⟩
  | acked (ram : Store UInt8) (k : ℕ) : Switching init (w.deliveries + 3 + k)
      ⟨⟨.switching .awaitAck, [setBaudPacket defaultFastBaud]⟩, ⟨init, .ready ram⟩,
        List.replicate k readyPacket ++ [ackPacket ackOk], []⟩
  | verifying (ram : Store UInt8) : Switching init (w.deliveries + 2)
      ⟨⟨.switching .awaitInfo, [setBaudPacket defaultFastBaud, infoPacket]⟩,
        ⟨init, .ready ram⟩, [], [infoPacket]⟩
  | verified (ram : Store UInt8) : Switching init (w.deliveries + 1)
      ⟨⟨.switching .awaitInfo, [setBaudPacket defaultFastBaud, infoPacket]⟩,
        ⟨init, .ready ram⟩, [⟨rspInfo, w.info⟩], []⟩

/-- The invariant at some point of the conversation. -/
def Conforms (init : Store UInt8) (n : ℕ) (c : Session) : Prop :=
  (∃ h e r k, w.Joint init n c h e r k) ∨
    w.switches = true ∧ w.client.canSetBaud = true ∧ w.Switching init n c

/-! ### The agent's steps -/

lemma request_accepted : streamAccepted w.g w.req = true ∧
    ¬ w.job.request.data.length < 12 + (w.req.numSectors w.g + 7) / 8 := by
  obtain ⟨-, -, -, -, hfits⟩ := w.geometry_bounds
  have hpos := w.data_pos
  have hle := w.fits
  constructor
  · have hadd : add32 w.addr w.data.length = w.addr + w.data.length := add32_of_lt (by omega)
    have hne : w.data.length ≠ 0 := by omega
    simp only [streamAccepted, req, hadd, hle, hne, ne_eq, not_false_eq_true, decide_true,
      Bool.and_self]
  · rw [w.length_request, w.numSectors_eq]
    omega

lemma streamBegin_request (ram : Store UInt8) :
    streamBegin w.b w.g idealChip ram w.job.request.data.length w.req =
      .ok (streamAdvance w.b w.g idealChip w.req (w.req.numSectors w.g)
        ⟨ram, 0, false, none, 0, 0⟩) := by
  obtain ⟨hacc, hlen⟩ := w.request_accepted
  rw [streamBegin, if_pos hacc, if_neg hlen]

lemma length_request_ge : ¬ w.job.request.data.length < 12 := by
  rw [w.length_request]
  omega

/-- The request is accepted before anything else is done. -/
lemma react_request (ram : Store UInt8) : ∃ phase events,
    StreamAgent.react w.b w.info (.ready ram) w.job.request =
      (phase, sendAck ackOk :: events) :=
  ⟨_, _, StreamAgent.react_stream w.info w.geometry_eq rfl w.length_request_ge w.streamReq_request
    (w.streamBegin_request ram)⟩

/-- The request starts the stream. -/
lemma recv_request (flash ram : Store UInt8) :
    ∃ next e', StreamAgent.recv w.b w.info ⟨flash, .ready ram⟩ w.job.request =
      StreamAgent.resume w.g w.req flash next ∧ 0 < e' ∧
      Advanced w.b w.g w.req w.job.sectorData flash flash 0 0 next e' 0 := by
  have hbegin := w.streamBegin_request ram
  have hbehind : CaughtUp w.b w.g w.req w.job.sectorData flash flash ram false none 0 :=
    ⟨rfl, by simp⟩
  obtain ⟨e', hle, hreplies, hskipped, hreached⟩ := streamAdvance_advanced
    (fun s hs => w.sector_lt (by rwa [w.numSectors_eq] at hs)) (w.req.numSectors w.g)
    ⟨ram, 0, false, none, 0, 0⟩ flash (Nat.zero_add _) hbehind
  generalize streamAdvance w.b w.g idealChip w.req (w.req.numSectors w.g)
    ⟨ram, 0, false, none, 0, 0⟩ = next at hbegin hreplies hreached
  refine ⟨(next.1, sendAck ackOk :: next.2), e',
    StreamAgent.recv_stream w.info w.geometry_eq rfl w.length_request_ge w.streamReq_request hbegin,
    hle, Nat.zero_le _, ?_, hskipped, hreached⟩
  rw [sendAck, packetsOf_send, hreplies, streamReplies_cons (e := 0) _ hle, streamReply,
    if_pos (.inl rfl)]

lemma AgentAt.zero_inv {init : Store UInt8} {a : StreamAgent} {e r : ℕ}
    (h : w.AgentAt init a e r) (he : e = 0) : ∃ ram, a = ⟨init, .ready ram⟩ := by
  cases h with
  | ready ram => exact ⟨ram, rfl⟩
  | stream h =>
      cases h with
      | waiting st h => omega
      | done h => omega

lemma AgentAt.succ_inv {init : Store UInt8} {a : StreamAgent} {s e r : ℕ}
    (h : w.AgentAt init a e r) (he : e = s + 1) (hs : s < w.job.numSectors) :
    ∃ st, a.phase = .streaming w.g w.req st ∧ st.s = s ∧ st.bufReceived = r ∧
      Receiving w.b w.g w.req w.job.sectorData init a.flash st := by
  cases h with
  | ready ram => omega
  | stream h =>
      cases h with
      | waiting st h => exact ⟨st, rfl, by omega, rfl, h⟩
      | done h =>
          rw [w.numSectors_eq] at he
          omega

/-- The chunks of a sector, as parts of the content the agent expects. -/
lemma chunk_eq {s r k : ℕ} (hk : r + k ≤ w.req.sectorBytes w.g s) :
    (w.data.drop (s * w.g.sectorSize + r)).take k = ((w.job.sectorData s).drop r).take k ∧
      ((w.data.drop (s * w.g.sectorSize + r)).take k).length = k := by
  rw [w.sectorBytes_eq] at hk
  constructor
  · rw [FlashJob.sectorData, w.sectorSz_eq, List.drop_take, List.take_take, List.drop_drop,
      Nat.min_eq_left (by omega)]
    rfl
  · rw [List.length_take, List.length_drop]
    omega

/-- What the agent does with a packet: it answers with the next replies, and what is left in flight
is what it waits for now. -/
def AgentStep (init : Store UInt8) (h e r : ℕ) (a : StreamAgent) (p : Packet) (ps : List Packet)
    (e' r' : ℕ) : Prop :=
  w.AgentAt init (StreamAgent.recv w.b w.info a p).1 e' r' ∧
    (StreamAgent.recv w.b w.info a p).2 = streamReplies w.job.numSectors e e' ∧ e ≤ e' ∧
    w.InFlight h e' r' ps ∧ e * w.g.sectorSize + r < e' * w.g.sectorSize + r' ∧
    ∀ i, e ≤ i → i + 1 < e' → i < w.job.numSectors → w.job.nonEmpty i = false

variable {w}

/-- A step of the stream is a step of the agent. -/
lemma AgentStep.of_advanced {init : Store UInt8} {h e r e' r' : ℕ} {a : StreamAgent} {p : Packet}
    {ps : List Packet} {next : Option StreamState × List FlashEvent}
    (heq : StreamAgent.recv w.b w.info a p = StreamAgent.resume w.g w.req a.flash next)
    (hadv : Advanced w.b w.g w.req w.job.sectorData init a.flash e e next e' r')
    (hflight : w.InFlight h e' r' ps)
    (hlt : e * w.g.sectorSize + r < e' * w.g.sectorSize + r') :
    w.AgentStep init h e r a p ps e' r' := by
  rw [AgentStep, heq]
  refine ⟨.stream hadv.reached, ?_, hadv.le, hflight, hlt, fun i hi hlt hnum => ?_⟩
  · rw [← w.numSectors_eq]
    exact hadv.replies
  · rw [← w.announced_eq hnum]
    exact hadv.skipped i hi hlt (by rwa [w.numSectors_eq])

/-- A data packet of the sector the agent waits for. -/
lemma agentStep_sector {init : Store UInt8} {a : StreamAgent} {s r seq : ℕ} {p : Packet}
    {ps : List Packet} (hagent : w.AgentAt init a (s + 1) r)
    (hout : sendData w.data seq (writeChunks (s * w.g.sectorSize + r)
      (w.req.sectorBytes w.g s - r)) = (p :: ps, true)) :
    ∃ e' r', w.AgentStep init (s + 1) (s + 1) r a p ps e' r' := by
  have hleft : 0 < w.req.sectorBytes w.g s - r := by
    by_contra hzero
    rw [Nat.eq_zero_of_not_pos hzero, writeChunks, Cut.pieces_zero, sendData] at hout
    cases hout
  have hbytes := w.sectorBytes_eq s
  have hs : s < w.job.numSectors := w.lt_numSectors (by omega)
  obtain ⟨st, hphase, rfl, rfl, hrecv⟩ := AgentAt.succ_inv w hagent rfl hs
  rw [writeChunks, Cut.pieces_of_pos _ _ hleft] at hout
  have hpos := (Cut.upTo writeChunkSize (by decide)).first_pos
    (st.s * w.g.sectorSize + st.bufReceived) _ hleft
  have hfirst := (Cut.upTo writeChunkSize (by decide)).first_le
    (st.s * w.g.sectorSize + st.bufReceived) (w.req.sectorBytes w.g st.s - st.bufReceived)
  generalize (Cut.upTo writeChunkSize (by decide)).first
    (st.s * w.g.sectorSize + st.bufReceived) (w.req.sectorBytes w.g st.s - st.bufReceived) = k
    at hout hpos hfirst
  obtain ⟨rest, hp, hrest⟩ := sendData_cons_inv hout
  cases hp
  obtain ⟨hchunk, hlen⟩ := w.chunk_eq (s := st.s) (r := st.bufReceived) (k := k) (by omega)
  have heq : StreamAgent.recv w.b w.info a
      (dataPacket w.data seq (st.s * w.g.sectorSize + st.bufReceived, k)) =
      StreamAgent.resume w.g w.req a.flash (streamRecv w.b w.g idealChip w.req st
        (dataPacket w.data seq (st.s * w.g.sectorSize + st.bufReceived, k))) :=
    StreamAgent.recv_streaming w.info w.geometry_eq hphase
  have hstep := streamRecv_advanced
    (fun s hs => w.sector_lt (by rwa [w.numSectors_eq] at hs))
    (fun s _ => w.length_sectorData s) hrecv (packU16 seq)
    ((w.data.drop (st.s * w.g.sectorSize + st.bufReceived)).take k) rfl
    (List.ne_nil_of_length_pos (by omega)) (by rw [hlen]; exact hchunk) (by omega)
  rw [hlen] at hstep
  rcases hstep with ⟨hlt, hadv⟩ | ⟨hfull, e', he', hadv⟩
  · refine ⟨_, _, .of_advanced heq hadv (.sector _ _ (seq + 1) rfl ?_) (by omega)⟩
    rw [writeChunks, ← Nat.add_assoc, ← Nat.sub_sub]
    exact hrest
  · refine ⟨e', 0, .of_advanced heq hadv ?_ ?_⟩
    · rw [Nat.sub_sub, hfull, Nat.sub_self, Cut.pieces_zero, sendData] at hrest
      cases hrest
      exact .behind (by omega) (.inl he')
    · have := Nat.mul_le_mul_right w.g.sectorSize he'
      have hle := w.req.sectorBytes_le_sector (g := w.g) st.s
      rw [Nat.succ_mul] at this
      omega

/-- **One delivery to the agent.** -/
lemma agentStep {init : Store UInt8} {a : StreamAgent} {h e r : ℕ} {p : Packet}
    {ps : List Packet} (hle : h ≤ e) (hagent : w.AgentAt init a e r)
    (hflight : w.InFlight h e r (p :: ps)) :
    h = e ∧ ∃ e' r', w.AgentStep init h e r a p ps e' r' := by
  generalize hflying : p :: ps = flying at hflight
  cases hflight with
  | request =>
      cases hflying
      obtain ⟨ram, rfl⟩ := AgentAt.zero_inv w hagent rfl
      obtain ⟨next, e', heq, he', hadv⟩ := w.recv_request init ram
      have hlt := Nat.mul_lt_mul_of_pos_right he' w.g.sector_pos
      exact ⟨by omega, e', 0,
        .of_advanced heq hadv (.behind he' (.inl (by omega))) (by omega)⟩
  | sector s r seq hh hout =>
      cases hflying
      subst hh
      exact ⟨rfl, agentStep_sector hagent hout⟩
  | behind he hh => cases hflying

/-! ### The host's steps -/

lemma recv_ready (h : ℕ) : writeFlashRecv w.job (w.hostAt h) readyPacket = (w.hostAt h, []) := by
  unfold hostAt
  split_ifs <;> rfl

/-- A reply moves the host to its next turn. -/
lemma recv_reply {h : ℕ} (hh : h ≤ w.job.numSectors) :
    writeFlashRecv w.job (w.hostAt h) (streamReply w.job.numSectors h) = w.job.turn h := by
  rcases Nat.eq_zero_or_pos h with rfl | hpos
  · rfl
  · rw [hostAt, if_neg (by omega), if_pos hh, streamReply, if_neg (by omega)]
    simp only [writeFlashRecv, progressPacket, show rspData ≠ rspReady by decide, if_false, if_true,
      List.length_append, length_packU16, show ¬ (2 + 2 < 4) by decide]
    rw [Nat.sub_add_cancel hpos]

lemma recv_finalReply : writeFlashRecv w.job (w.hostAt (w.job.numSectors + 1))
    (streamReply w.job.numSectors (w.job.numSectors + 1)) = (.returned true, []) := by
  rw [hostAt, if_neg (by omega), if_neg (by omega), if_pos rfl, streamReply, if_pos (.inr rfl)]
  rfl

/-- What the host sends after reply `h`. -/
def sectorPackets (w : WriteJob) (h : ℕ) : List Packet :=
  if h < w.job.numSectors then (w.job.sendSector h).1 else []

lemma turn_eq {h : ℕ} (hh : h ≤ w.job.numSectors)
    (henc : h < w.job.numSectors → (w.job.sendSector h).2 = true) :
    w.job.turn h = (w.hostAt (h + 1), w.sectorPackets h) := by
  rw [FlashJob.turn, sectorPackets, hostAt, if_neg (show h + 1 ≠ 0 by omega)]
  by_cases hlt : h < w.job.numSectors
  · rw [if_pos hlt, if_pos hlt, if_pos (show h + 1 ≤ _ from hlt)]
    simp only [henc hlt, if_true, Nat.add_sub_cancel]
  · rw [if_neg hlt, if_neg hlt, if_neg (show ¬ h + 1 ≤ _ from hlt), if_pos (by omega)]

lemma turn_raises {h : ℕ} (hh : h < w.job.numSectors) (henc : (w.job.sendSector h).2 = false) :
    (w.job.turn h).1 = .raised := by
  rw [FlashJob.turn, if_pos hh]
  simp [henc]

/-- **One reply to the host.**  It goes on, or it raises on a sector it cannot encode. -/
lemma host_reply {h : ℕ} (hh : h < w.job.numSectors + 2) :
    (∃ s < w.job.numSectors, (w.job.sendSector s).2 = false ∧
      (writeFlashRecv w.job (w.hostAt h) (streamReply w.job.numSectors h)).1 = .raised) ∨
    ((h < w.job.numSectors → (w.job.sendSector h).2 = true) ∧
      writeFlashRecv w.job (w.hostAt h) (streamReply w.job.numSectors h) =
        (w.hostAt (h + 1), w.sectorPackets h)) := by
  by_cases hlast : h = w.job.numSectors + 1
  · subst hlast
    refine .inr ⟨fun h => by omega, ?_⟩
    rw [recv_finalReply, hostAt, if_neg (by omega), if_neg (by omega), if_neg (by omega),
      sectorPackets, if_neg (by omega)]
  · have hle : h ≤ w.job.numSectors := by omega
    rw [recv_reply hle]
    by_cases henc : h < w.job.numSectors → (w.job.sendSector h).2 = true
    · exact .inr ⟨henc, turn_eq hle henc⟩
    · simp only [Classical.not_imp, Bool.not_eq_true] at henc
      exact .inl ⟨h, henc.1, henc.2, turn_raises henc.1 henc.2⟩

/-! ### Every interleaving -/

lemma AgentAt.bounds {init : Store UInt8} {a : StreamAgent} {e r : ℕ}
    (h : w.AgentAt init a e r) : (e ≤ w.job.numSectors ∨ e = w.job.numSectors + 2) ∧
      e * w.g.sectorSize + r ≤ (w.job.numSectors + 2) * w.g.sectorSize := by
  cases h with
  | ready ram => exact ⟨by omega, by omega⟩
  | stream h =>
      cases h with
      | waiting st h =>
          have hs := h.s_lt
          have hr := h.partly
          have hle := w.req.sectorBytes_le_sector (g := w.g) st.s
          rw [w.numSectors_eq] at hs
          have := Nat.mul_le_mul_right w.g.sectorSize 
            (show st.s + 1 + 1 ≤ w.job.numSectors + 2 by omega)
          rw [Nat.add_mul (st.s + 1)] at this
          exact ⟨by omega, by omega⟩
      | done h =>
          rw [w.numSectors_eq]
          exact ⟨.inr rfl, Nat.le_refl _⟩

/-- The request goes out: everything is as at the start of the stream. -/
lemma announce_eq : w.job.announce = (.awaitAck, [w.job.request]) := by
  obtain ⟨-, -, -, -, hfits⟩ := w.geometry_bounds
  exact if_pos ⟨show w.addr < _ by omega, show w.data.length < _ by omega⟩

/-- The request is out, and nothing of the stream has happened. -/
lemma joint_requested (init ram : Store UInt8) (k : ℕ) : w.Joint init (w.deliveries + k)
    ⟨⟨.awaitAck, w.preamble ++ [w.job.request]⟩, ⟨init, .ready ram⟩,
      List.replicate k readyPacket, [w.job.request]⟩ 0 0 0 k := by
  constructor
  · rfl
  · rw [Nat.zero_min]
    rfl
  · intro s hs
    omega
  · exact Nat.le_refl _
  · exact .ready ram
  · exact .inl rfl
  · rw [streamReplies_self, List.append_nil]
  · exact .request
  · intro i _ hi
    omega
  · unfold deliveries
    omega

/-- The start of every session. -/
lemma conforms_start (hfollow : w.CanFollow) (flash ram : Store UInt8) (stale : ℕ) :
    ∃ n, w.Conforms flash n (w.start flash ram stale) := by
  by_cases hswitches : w.switches = true
  · have hstart : WriteHost.start w.job =
        ⟨.switching .awaitAck, [setBaudPacket defaultFastBaud]⟩ := if_pos hswitches
    refine ⟨w.deliveries + 4 + stale, .inr ⟨hswitches, hfollow hswitches, ?_⟩⟩
    rw [start, hstart]
    exact .asked ram stale
  · have hstart : WriteHost.start w.job = ⟨.awaitAck, [w.job.request]⟩ := by
      rw [WriteHost.start, announce_eq]
      exact if_neg hswitches
    have hjoint := w.joint_requested flash ram stale
    rw [preamble, if_neg hswitches] at hjoint
    refine ⟨w.deliveries + stale, .inl ⟨0, 0, 0, stale, ?_⟩⟩
    rw [start, hstart]
    exact hjoint

/-! ### The conversation about the rate -/

lemma recv_setBaud (flash ram : Store UInt8) {baud : ℕ} (hlo : 9600 ≤ baud)
    (hhi : baud ≤ 3000000) :
    StreamAgent.recv w.b w.info ⟨flash, .ready ram⟩ (setBaudPacket baud) =
      (⟨flash, .ready ram⟩, [ackPacket ackOk]) := by
  rw [StreamAgent.recv_ready w.info (show cmdSetBaud ≠ cmdFlashStream by decide),
    mainLoopAnswer, if_pos (show (setBaudPacket baud).cmd = cmdSetBaud from rfl)]
  have hstatus := setBaudStatus_packU32 hlo hhi
  rw [setBaudPacket, hstatus]

lemma recv_info (flash ram : Store UInt8) :
    StreamAgent.recv w.b w.info ⟨flash, .ready ram⟩ infoPacket =
      (⟨flash, .ready ram⟩, [⟨rspInfo, w.info⟩]) := by
  rw [StreamAgent.recv_ready w.info (by decide)]
  rfl

/-- A delivery of that conversation to the agent. -/
lemma Switching.agent_step {init : Store UInt8} {n : ℕ} {s : WriteHost} {a : StreamAgent}
    {xs ps : List Packet} {p : Packet} (h : w.Switching init n ⟨s, a, xs, p :: ps⟩) :
    ∃ m < n, w.Switching init m ⟨s, (StreamAgent.recv w.b w.info a p).1,
      xs ++ (StreamAgent.recv w.b w.info a p).2, ps⟩ := by
  cases h with
  | asked ram k =>
      rw [recv_setBaud init ram (by decide) (by decide)]
      exact ⟨_, by omega, .acked ram k⟩
  | verifying ram =>
      rw [recv_info]
      exact ⟨_, by omega, .verified ram⟩

/-- A delivery of that conversation to the host; the last one starts the stream. -/
lemma Switching.host_step (hswitches : w.switches = true) (hcan : w.client.canSetBaud = true)
    {init : Store UInt8} {n : ℕ} {s : WriteHost} {a : StreamAgent} {xs ys : List Packet}
    {p : Packet} (h : w.Switching init n ⟨s, a, p :: xs, ys⟩) :
    ∃ m < n, w.Conforms init m ⟨(WriteHost.recv w.job s p).1, a, xs,
      ys ++ (WriteHost.recv w.job s p).2⟩ := by
  generalize hqueue : p :: xs = queue at h
  cases h with
  | asked ram k =>
      cases k with
      | zero => cases hqueue
      | succ k =>
          cases hqueue
          exact ⟨_, by omega, .inr ⟨hswitches, hcan, .asked ram k⟩⟩
  | acked ram k =>
      cases k with
      | zero =>
          cases hqueue
          have hnext : writeFlashRecv w.job (.switching .awaitAck) (ackPacket ackOk) =
              (.switching .awaitInfo, [infoPacket]) := by
            have hrecv : switchRecv w.client .awaitAck (ackPacket ackOk) =
                (.awaitInfo, [infoPacket]) := by
              simp [switchRecv, ackPacket, hcan, show rspAck ≠ rspReady by decide]
            rw [writeFlashRecv, FlashJob.afterSwitch]
            simp only [job, hrecv]
          rw [WriteHost.recv, hnext]
          exact ⟨_, by omega, .inr ⟨hswitches, hcan, .verifying ram⟩⟩
      | succ k =>
          cases hqueue
          exact ⟨_, by omega, .inr ⟨hswitches, hcan, .acked ram k⟩⟩
  | verifying ram => cases hqueue
  | verified ram =>
      cases hqueue
      have hnext : writeFlashRecv w.job (.switching .awaitInfo) ⟨rspInfo, w.info⟩ =
          (.awaitAck, [w.job.request]) := by
        have hrecv : switchRecv w.job.client .awaitInfo ⟨rspInfo, w.info⟩ = (.over, []) := by
          rw [switchRecv, if_neg (show rspInfo ≠ rspReady by decide)]
        rw [writeFlashRecv, FlashJob.afterSwitch, hrecv]
        exact announce_eq
      have hjoint := w.joint_requested init ram 0
      rw [preamble, if_pos hswitches, if_pos hcan] at hjoint
      rw [WriteHost.recv, hnext]
      exact ⟨_, by omega, .inl ⟨0, 0, 0, 0, hjoint⟩⟩

/-! ### The stream -/

/-- A delivery to the agent keeps the invariant. -/
lemma Joint.agent_step {init : Store UInt8} {n h e r k : ℕ} {s : WriteHost} {a : StreamAgent}
    {xs ps : List Packet} {p : Packet} (hJ : w.Joint init n ⟨s, a, xs, p :: ps⟩ h e r k) :
    ∃ m < n, w.Conforms init m ⟨s, (StreamAgent.recv w.b w.info a p).1,
      xs ++ (StreamAgent.recv w.b w.info a p).2, ps⟩ := by
  obtain ⟨rfl, e', r', hagent, hout, hle, hflight, hlt, hskip⟩ :=
    agentStep hJ.le hJ.agent hJ.toAgent
  have hrank := hJ.rank
  have hbounds := hJ.agent.bounds
  have hbounds' := hagent.bounds
  obtain ⟨m, hm⟩ : ∃ m, m + h + e' * w.g.sectorSize + r' = k + (w.job.numSectors + 2) +
      (w.job.numSectors + 2) * w.g.sectorSize :=
    ⟨k + (w.job.numSectors + 2) + (w.job.numSectors + 2) * w.g.sectorSize -
      (h + e' * w.g.sectorSize + r'), by omega⟩
  refine ⟨m, by omega, .inl ⟨h, e', r', k, hJ.phase, hJ.sent, hJ.encoded, hle, hagent, hJ.front,
    ?_, hflight, hskip, hm⟩⟩
  have hxs := hJ.toHost
  simp only at hxs ⊢
  rw [hxs, hout, List.append_assoc, streamReplies_append _ hJ.le hle]

/-- What the host sends after a reply is what the agent waits for. -/
lemma InFlight.next {init : Store UInt8} {a : StreamAgent} {h e r : ℕ} {out : List Packet}
    (hflight : w.InFlight h e r out) (hagent : w.AgentAt init a e r) (hlt : h < e)
    (hskip : ∀ i, h ≤ i → i + 1 < e → i < w.job.numSectors → w.job.nonEmpty i = false)
    (henc : h < w.job.numSectors → (w.job.sendSector h).2 = true) :
    w.InFlight (h + 1) e r (out ++ w.sectorPackets h) := by
  cases hflight with
  | request => omega
  | sector s r seq hh hout => omega
  | behind he hh =>
      rw [List.nil_append, sectorPackets]
      by_cases hnum : h < w.job.numSectors
      · rw [if_pos hnum]
        by_cases hnext : e = h + 1
        · -- the agent waits for this very sector
          subst hnext
          obtain ⟨st, -, rfl, -, hrecv⟩ := AgentAt.succ_inv w hagent rfl hnum
          have hbit : bitmapBit w.job.bitmap st.s = true := hrecv.announced
          have hout := henc hnum
          rw [FlashJob.sendSector] at hout ⊢
          simp only [hbit, if_true, w.sectorSz_eq] at hout ⊢
          refine .sector st.s 0 (st.s * w.g.sectorSize / writeChunkSize) rfl ?_
          rw [Nat.sub_zero, Nat.add_zero, w.sectorBytes_eq]
          exact Prod.ext rfl hout
        · -- the agent has passed it, so it is empty and nothing goes out
          have hbit : bitmapBit w.job.bitmap h = false := by
            rw [w.job.bitmapBit_bitmap hnum]
            exact hskip h (Nat.le_refl _) (by omega) hnum
          rw [FlashJob.sendSector]
          simp only [hbit, Bool.false_eq_true, if_false]
          exact .behind he (.inl (by omega))
      · rw [if_neg hnum]
        have := hagent.bounds.1
        exact .behind he (by omega)

/-- A delivery to the host keeps the invariant, or the host raises. -/
lemma Joint.host_step {init : Store UInt8} {n h e r k : ℕ} {s : WriteHost} {a : StreamAgent}
    {xs ys : List Packet} {p : Packet} (hJ : w.Joint init n ⟨s, a, p :: xs, ys⟩ h e r k) :
    (∃ m < n, w.Conforms init m ⟨(WriteHost.recv w.job s p).1, a, xs,
      ys ++ (WriteHost.recv w.job s p).2⟩) ∨
    ((WriteHost.recv w.job s p).1.phase = .raised ∧
      ∃ s < w.job.numSectors, (w.job.sendSector s).2 = false) := by
  have hphase : s.phase = w.hostAt h := hJ.phase
  have hsent := hJ.sent
  have hxs := hJ.toHost
  have hrank := hJ.rank
  have hbounds := hJ.agent.bounds
  have hle := hJ.le
  have hflight := hJ.toAgent
  simp only at hxs hsent
  cases k with
  | succ k =>
      rw [List.replicate_succ, List.cons_append, List.cons.injEq] at hxs
      obtain ⟨rfl, rfl⟩ := hxs
      simp only [WriteHost.recv, hphase, recv_ready, List.append_nil]
      exact .inl ⟨n - 1, by omega, .inl ⟨h, e, r, k, rfl, hsent, hJ.encoded, hle, hJ.agent,
        .inl (by have := hJ.front; omega), rfl, hflight, hJ.skipped, by omega⟩⟩
  | zero =>
      rw [List.replicate_zero, List.nil_append] at hxs
      have hlt : h < e := by
        by_contra hge
        rw [show e = h by omega, streamReplies_self] at hxs
        cases hxs
      rw [streamReplies_cons _ hlt, List.cons.injEq] at hxs
      obtain ⟨rfl, rfl⟩ := hxs
      simp only [WriteHost.recv, hphase]
      rcases host_reply (w := w) (h := h) (by omega) with ⟨i, hi, henc, hraised⟩ | ⟨henc, heq⟩
      · exact .inr ⟨hraised, i, hi, henc⟩
      · rw [heq]
        refine .inl ⟨n - 1, by omega, .inl ⟨h + 1, e, r, 0, rfl, ?_, ?_, hlt, hJ.agent, .inr rfl,
          ?_, ?_, ?_, ?_⟩⟩
        · simp only [hsent, sectorPackets, List.append_assoc, List.cons_append]
          split_ifs with hnum
          · rw [Nat.min_eq_left (by omega), Nat.min_eq_left (by omega), List.range_succ,
              List.flatMap_append, List.flatMap_cons, List.flatMap_nil, List.append_nil]
          · rw [Nat.min_eq_right (by omega), Nat.min_eq_right (by omega), List.append_nil]
        · intro i hi
          by_cases hih : i = h
          · subst hih
            exact henc (by omega)
          · exact hJ.encoded i (by omega)
        · rw [List.replicate_zero, List.nil_append]
        · exact InFlight.next hflight hJ.agent hlt hJ.skipped henc
        · intro i hi hie hnum
          exact hJ.skipped i (by omega) hie hnum
        · omega

/-- The host has raised, and there is a sector it cannot encode. -/
def Overrun (w : WriteJob) (c : Session) : Prop :=
  c.fst.phase = .raised ∧ ∃ s < w.job.numSectors, (w.job.sendSector s).2 = false

/-- **Every interleaving conforms** until the host raises. -/
lemma conforms_ranked (init : Store UInt8) : Ranked w.Step (w.Conforms init) w.Overrun := by
  rintro n c d (⟨h, e, r, k, hJ⟩ | ⟨hswitches, hcan, hswitching⟩) hstep
  · cases hstep with
    | fst s t x xs ys => exact hJ.host_step
    | snd s t xs y ys => exact .inl hJ.agent_step
  · cases hstep with
    | fst s t x xs ys => exact .inl (hswitching.host_step hswitches hcan)
    | snd s t xs y ys =>
        obtain ⟨m, hlt, hm⟩ := hswitching.agent_step
        exact .inl ⟨m, hlt, .inr ⟨hswitches, hcan, hm⟩⟩

lemma overrun_absorbing (c d : Session) (hc : w.Overrun c) (hstep : w.Step c d) :
    w.Overrun d := by
  cases hstep with
  | fst s t x xs ys =>
      refine ⟨?_, hc.2⟩
      have hraised : s.phase = .raised := hc.1
      simp only [WriteHost.recv, hraised, writeFlashRecv]
  | snd s t xs y ys => exact hc

/-! ### How a session ends -/

/-- A session that is done: everything has been sent, the last reply has been read, and every
sector is in the flash. -/
structure Done (w : WriteJob) (init : Store UInt8) (c : Session) : Prop where
  returned : c.fst.phase = .returned true
  sent : c.fst.sent = w.preamble ++ w.job.request ::
    (List.range w.job.numSectors).flatMap fun s => (w.job.sendSector s).1
  encoded : ∀ s < w.job.numSectors, (w.job.sendSector s).2 = true
  finished : c.snd.phase = .finished
  read : c.toFst = []
  flash : c.snd.flash = flashAfter w.g w.req w.job.sectorData init w.job.numSectors

lemma Joint.done {init : Store UInt8} {n h e r k : ℕ} {c : Session}
    (hJ : w.Joint init n c h e r k) (hh : h = w.job.numSectors + 2) : w.Done init c := by
  have hmin : min h w.job.numSectors = w.job.numSectors := by omega
  have hle := hJ.le
  have hfront := hJ.front
  have hbounds := hJ.agent.bounds.1
  have hagent : c.snd.phase = .finished ∧
      c.snd.flash = flashAfter w.g w.req w.job.sectorData init w.job.numSectors := by
    have hagent := hJ.agent
    generalize c.snd = a at hagent
    cases hagent with
    | ready ram => omega
    | stream hat =>
        cases hat with
        | waiting st hrecv =>
            have := hrecv.s_lt
            rw [w.numSectors_eq] at this
            omega
        | done hflash => exact ⟨rfl, by rwa [w.numSectors_eq] at hflash⟩
  refine ⟨?_, by rw [hJ.sent, hmin], fun s hs => hJ.encoded s (by omega), hagent.1, ?_, hagent.2⟩
  · rw [hJ.phase, hostAt, if_neg (by omega), if_neg (by omega), if_neg (by omega)]
  · rw [hJ.toHost, show k = 0 by omega, show e = h by omega, streamReplies_self]
    rfl

/-- The conversation about the rate is no end: something is in flight. -/
lemma Switching.unfinished {init : Store UInt8} {n : ℕ} {c : Session} (h : w.Switching init n c) :
    (∃ phase, c.fst.phase = .switching phase) ∧ (c.toFst ≠ [] ∨ c.toSnd ≠ []) := by
  cases h with
  | asked ram k => exact ⟨⟨_, rfl⟩, .inr (by simp)⟩
  | acked ram k => exact ⟨⟨_, rfl⟩, .inl (by simp)⟩
  | verifying ram => exact ⟨⟨_, rfl⟩, .inr (by simp)⟩
  | verified ram => exact ⟨⟨_, rfl⟩, .inl (by simp)⟩

/-- A call that conforms has not raised, and returns nothing but `True`. -/
lemma conforms_phase {init : Store UInt8} {n : ℕ} {c : Session} (hc : w.Conforms init n c) :
    c.fst.phase ≠ .raised ∧ c.fst.phase ≠ .returned false := by
  obtain ⟨h, e, r, k, hJ⟩ | ⟨-, -, hswitching⟩ := hc
  · rw [hJ.phase, hostAt]
    split_ifs <;> simp
  · obtain ⟨phase, hphase⟩ := hswitching.unfinished.1
    rw [hphase]
    simp

/-- The host returns `True` only when the session is done. -/
lemma conforms_returned {init : Store UInt8} {n : ℕ} {c : Session} (hc : w.Conforms init n c)
    (hret : c.fst.phase = .returned true) : w.Done init c := by
  obtain ⟨h, e, r, k, hJ⟩ | ⟨-, -, hswitching⟩ := hc
  · refine hJ.done ?_
    have hphase := hJ.phase
    have hle := hJ.le
    have hbounds := hJ.agent.bounds.1
    rw [hret, hostAt] at hphase
    split_ifs at hphase
    omega
  · obtain ⟨phase, hphase⟩ := hswitching.unfinished.1
    exact absurd (hret.symm.trans hphase) (by simp)

/-- The stream stops only when it is done. -/
lemma Joint.stuck {init : Store UInt8} {n h e r k : ℕ} {c : Session}
    (hJ : w.Joint init n c h e r k) (hfst : c.toFst = []) (hsnd : c.toSnd = []) :
    w.Done init c := by
  refine hJ.done ?_
  have hhost := hJ.toHost
  have hflight := hJ.toAgent
  have hle := hJ.le
  rw [hfst] at hhost
  rw [hsnd] at hflight
  have hhe : h = e := by
    by_contra hne
    rw [streamReplies_cons _ (show h < e by omega)] at hhost
    simp at hhost
  generalize hnil : ([] : List Packet) = out at hflight
  cases hflight with
  | request => cases hnil
  | sector s r seq hh hout =>
      subst hnil
      rcases hJ.agent.bounds.1 with hs | hs
      · -- the agent waits for the rest of a sector, so something is in flight
        obtain ⟨st, -, rfl, rfl, hrecv⟩ := AgentAt.succ_inv w hJ.agent rfl hs
        have hleft : 0 < w.req.sectorBytes w.g st.s - st.bufReceived := by
          have := hrecv.partly
          omega
        rw [writeChunks, Cut.pieces_of_pos _ _ hleft] at hout
        obtain ⟨rest, hrest, -⟩ := sendData_cons_inv hout
        cases hrest
      · omega
  | behind he hh => omega

/-- A session stops only when it is done. -/
lemma conforms_stuck {init : Store UInt8} {n : ℕ} {c : Session} (hc : w.Conforms init n c)
    (hstuck : ∀ d, ¬ w.Step c d) : w.Done init c := by
  obtain ⟨hfst, hsnd⟩ := Pair.queues_nil_of_stuck hstuck
  obtain ⟨h, e, r, k, hJ⟩ | ⟨-, -, hswitching⟩ := hc
  · exact hJ.stuck hfst hsnd
  · rcases hswitching.unfinished.2 with hne | hne
    · exact absurd hfst hne
    · exact absurd hsnd hne

end WriteJob

end Defib
