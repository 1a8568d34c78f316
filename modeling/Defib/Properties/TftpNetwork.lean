import Defib.Framework.Runs
import Defib.Net.TftpClient

/-!
# Transfers over a network that loses, repeats and reorders

Any number of clients, each with an address and a request of its own, and one server.  Datagrams
are never used up: whatever was sent may arrive at any time, any number of times, or never.  A
client may repeat its request and the ACK of any block that it has stored whenever it likes.

A client that has stopped holds its file, a transfer is counted when its client holds the file,
and what the server sends to an address depends on what comes from that address alone
(`tftp_transfers_correct`).
-/

namespace Defib.Tftp

variable {α : Type}

/-! ## The system -/

/-- Clients with their requests, each for a file of at most 65535 blocks. -/
structure Network (α : Type) where
  cfg : Config
  request : α → List UInt8
  plan : α → Plan
  length_request : ∀ a, 2 ≤ (request a).length
  opcode_request : ∀ a, readBe16 (request a) = opcodeRrq
  plan_eq : ∀ a, rrqPlan cfg (request a) = .ok (plan a)
  blocks_le : ∀ a, (plan a).blocks ≤ 65535

/-- The parties, and everything that was ever sent. -/
structure NetState (α : Type) where
  server : Server α
  clients : α → Client
  toServer : List (α × List UInt8)
  toClients : List (α × List UInt8)

namespace Network

lemma answer_request (w : Network α) (a : α) (x : Option Download) :
    answer w.cfg x (w.request a) = (w.plan a).answer := by
  rw [answer, if_neg (Nat.not_lt.mpr (w.length_request a)), if_pos (w.opcode_request a),
    w.plan_eq a]

lemma bounds (w : Network α) (a : α) : 8 ≤ (w.plan a).blocksize ∧ (w.plan a).blocksize ≤ 65464 ∧
    ((w.plan a).oack = false → (w.plan a).blocksize = defaultBlocksize) :=
  rrqPlan_bounds (w.plan_eq a)

lemma blocks_lt (w : Network α) (a : α) : (w.plan a).blocks < 2 ^ 16 :=
  Nat.lt_succ_of_le (w.blocks_le a)

variable [DecidableEq α]

def start : NetState α := ⟨.init, fun _ => .init, [], []⟩

inductive Step (w : Network α) : NetState α → NetState α → Prop
  | request (c : NetState α) (a : α) :
      Step w c { c with toServer := (a, w.request a) :: c.toServer }
  /-- A client ACKs a block that it has stored, or, as block 0, what told it the block size. -/
  | ack (c : NetState α) (a : α) (k : ℕ) (hk : k ≤ (c.clients a).count)
      (hzero : k = 0 → (c.clients a).blksize ≠ none) :
      Step w c { c with toServer := (a, ackPacket k) :: c.toServer }
  | server (c : NetState α) (a : α) (d : List UInt8) (h : (a, d) ∈ c.toServer) :
      Step w c { c with
        server := (datagramReceived w.cfg c.server d a).server
        toClients := (datagramReceived w.cfg c.server d a).sent ++ c.toClients }
  | client (c : NetState α) (a : α) (d : List UInt8) (h : (a, d) ∈ c.toClients) :
      Step w c { c with clients := Function.update c.clients a ((c.clients a).recv d) }

end Network

/-! ## What a client can receive -/

/-- What the server sends to a client; it sends blocks to clients that know the block size. -/
def Plan.Sends (plan : Plan) (ready : Prop) (d : List UInt8) : Prop :=
  (plan.oack = true ∧ d = oackPacket plan.blocksize) ∨
    ∃ n < plan.blocks, d = dataPacket (n + 1) (blockOf plan.data plan.blocksize (n + 1)) ∧
      (plan.oack = true → ready)

lemma Plan.Sends.mono {plan : Plan} {ready ready' : Prop} {d : List UInt8}
    (h : plan.Sends ready d) (himp : ready → ready') : plan.Sends ready' d := by
  rcases h with h | ⟨n, hn, hd, hready⟩
  · exact .inl h
  · exact .inr ⟨n, hn, hd, fun hoack => himp (hready hoack)⟩

section Client

variable {plan : Plan} {c : Client}

/-- **What a datagram of the server does to a client.** -/
lemma Client.Ok.recv (h : c.Ok plan) (hbounds : 8 ≤ plan.blocksize ∧ plan.blocksize ≤ 65464 ∧
      (plan.oack = false → plan.blocksize = defaultBlocksize)) (hblocks : plan.blocks < 2 ^ 16)
    {d : List UInt8} (hd : plan.Sends (c.blksize = some plan.blocksize) d) :
    (c.recv d).Ok plan ∧ c.count ≤ (c.recv d).count ∧
      (c.blksize ≠ none → (c.recv d).blksize ≠ none) := by
  obtain ⟨hlow, hhigh, hdefault⟩ := hbounds
  rcases hd with ⟨-, rfl⟩ | ⟨n, hn, rfl, hready⟩
  · have hbound : plan.blocksize < 10 ^ 5 := by omega
    rcases Client.recv_oack c hbound with heq | ⟨hcount, hdone, heq⟩
    · rw [heq]
      exact ⟨h, le_rfl, id⟩
    · rw [heq]
      exact ⟨⟨h.le, h.stored, fun _ => rfl, h.done⟩, le_rfl, fun _ => Option.some_ne_none _⟩
  · have hsize : c.blksize.getD defaultBlocksize = plan.blocksize := by
      cases hoack : plan.oack with
      | true => rw [hready hoack, Option.getD_some]
      | false =>
          by_cases hnone : c.blksize = none
          · rw [hnone, Option.getD_none, hdefault hoack]
          · rw [h.blksize hnone, Option.getD_some]
    by_cases hnext : n = c.count
    · subst hnext
      rw [Client.recv_next h hsize (by omega) hn]
      exact ⟨⟨hn, rfl, fun _ => rfl, rfl⟩, Nat.le_succ _, fun _ => Option.some_ne_none _⟩
    · rw [Client.recv_other hblocks h hn hnext]
      exact ⟨h, le_rfl, id⟩

end Client

/-! ## What the server does -/

/-- What is going on with an address; blocks were sent to clients that know the block size. -/
structure Download.Going (plan : Plan) (ready : Prop) (x : Download) : Prop extends x.Ok plan where
  ready : plan.oack = true → 0 < x.blockNum → ready
  started : plan.oack = false → 0 < x.blockNum

/-- An answer goes on with the transfer. -/
structure Answer.Ok (plan : Plan) (ready : Prop) (ans : Answer) : Prop where
  download : ∀ x ∈ ans.download, x.Going plan ready
  sent : ∀ d ∈ ans.sent, plan.Sends ready d

section Answer

variable {plan : Plan} {ready : Prop}

lemma Answer.ok_silent (completed : Bool) :
    Answer.Ok plan ready ⟨none, [], completed, none⟩ where
  download x hx := by cases hx
  sent d hd := by cases hd

lemma Download.Ok.answer_advance {x : Download} (h : x.Ok plan) (hpos : 0 < plan.blocksize)
    (hblocks : plan.blocks < 2 ^ 16) (hlt : x.blockNum < plan.blocks)
    (hready : plan.oack = true → ready) : x.advance.Ok plan ready := by
  obtain ⟨x', hx', hnum, heq⟩ := h.advance hpos hlt (by omega)
  rw [heq]
  constructor
  · intro y hy
    obtain rfl := Option.some.inj hy
    exact ⟨hx', fun hoack _ => hready hoack, fun _ => by omega⟩
  · intro d hd
    rw [List.mem_singleton.mp hd]
    exact .inr ⟨x.blockNum, hlt, rfl, hready⟩

/-- The answer to a request. -/
lemma Plan.answer_ok (plan : Plan) (ready : Prop) (hpos : 0 < plan.blocksize)
    (hblocks : plan.blocks < 2 ^ 16) : plan.answer.Ok plan ready := by
  rw [Plan.answer]
  by_cases hoack : plan.oack = true
  · rw [if_pos hoack]
    constructor
    · intro x hx
      obtain rfl := Option.some.inj hx
      exact ⟨plan.ok_start, fun _ h => absurd h (Nat.lt_irrefl 0), fun h => by simp [hoack] at h⟩
    · intro d hd
      exact .inl ⟨hoack, List.mem_singleton.mp hd⟩
  · rw [if_neg hoack]
    exact plan.ok_start.answer_advance hpos hblocks (Nat.succ_pos _) fun h => absurd h hoack

/-- The answer to an ACK.  It counts the transfer when it is the ACK of the last block. -/
lemma Download.Going.ack {x : Download} (h : x.Going plan ready) (hpos : 0 < plan.blocksize)
    (hblocks : plan.blocks < 2 ^ 16) {k : ℕ} (hzero : k = 0 → plan.oack = true → ready) :
    (x.ack k).Ok plan ready ∧ ((x.ack k).completed = true → k = plan.blocks) := by
  have hadvance : x.blockNum < plan.blocks → k = x.blockNum →
      x.advance.Ok plan ready ∧ (x.advance.completed = true → k = plan.blocks) := by
    intro hlt hk
    obtain ⟨x', -, -, heq⟩ := h.toOk.advance hpos hlt (by omega)
    refine ⟨h.toOk.answer_advance hpos hblocks hlt fun hoack => ?_, ?_⟩
    · rcases Nat.eq_zero_or_pos x.blockNum with hnum | hnum
      · exact hzero (by omega) hoack
      · exact h.ready hoack hnum
    · rw [heq]
      exact fun hfalse => absurd hfalse Bool.false_ne_true
  rw [Download.ack]
  split
  · rename_i hboth
    exact hadvance (by rw [hboth.2]; exact Nat.succ_pos _) (by omega)
  · split
    · rename_i hk
      split
      · rename_i hcomplete
        refine ⟨Answer.ok_silent true, fun _ => ?_⟩
        rw [h.complete, decide_eq_true_eq] at hcomplete
        omega
      · rename_i hcomplete
        rw [h.complete, decide_eq_true_eq] at hcomplete
        have hle := h.le
        exact hadvance (by omega) hk
    · refine ⟨⟨fun y hy => ?_, fun d hd => ?_⟩, fun hfalse => absurd hfalse Bool.false_ne_true⟩
      · rw [← Option.some.inj hy]
        exact h
      · cases hd

end Answer

/-! ## The invariant -/

namespace Network

variable [DecidableEq α]

/-- What is on the way from a client: its request, and ACKs of what it has stored. -/
def FromClient (w : Network α) (a : α) (c : Client) (d : List UInt8) : Prop :=
  d = w.request a ∨ ∃ k, d = ackPacket k ∧ k ≤ c.count ∧ (k = 0 → c.blksize ≠ none)

structure Inv (w : Network α) (c : NetState α) : Prop where
  wellAddressed : c.server.WellAddressed
  going : ∀ a, ∀ x ∈ c.server.downloadOf a,
    x.Going (w.plan a) ((c.clients a).blksize = some (w.plan a).blocksize)
  clients : ∀ a, (c.clients a).Ok (w.plan a)
  toClients : ∀ a d, (a, d) ∈ c.toClients →
    (w.plan a).Sends ((c.clients a).blksize = some (w.plan a).blocksize) d
  toServer : ∀ a d, (a, d) ∈ c.toServer → w.FromClient a (c.clients a) d

lemma inv_start (w : Network α) : w.Inv start where
  wellAddressed := wellAddressed_init
  going a x hx := by cases hx
  clients a := Client.ok_init _
  toClients a d h := by cases h
  toServer a d h := by cases h

/-- **What the server does with a datagram of a client.** -/
lemma Inv.answer {w : Network α} {c : NetState α} (h : w.Inv c) {a : α} {d : List UInt8}
    (hd : w.FromClient a (c.clients a) d) :
    (answer w.cfg (c.server.downloadOf a) d).Ok (w.plan a)
        ((c.clients a).blksize = some (w.plan a).blocksize) ∧
      ((answer w.cfg (c.server.downloadOf a) d).completed = true →
        (c.clients a).count = (w.plan a).blocks) := by
  have hpos : 0 < (w.plan a).blocksize := by
    have := w.bounds a
    omega
  rcases hd with rfl | ⟨k, rfl, hk, hzero⟩
  · rw [w.answer_request a]
    refine ⟨Plan.answer_ok _ _ hpos (w.blocks_lt a), fun hcompleted => ?_⟩
    rw [Plan.answer] at hcompleted
    split at hcompleted
    · cases hcompleted
    · obtain ⟨x, -, -, heq⟩ := (w.plan a).ok_start.advance hpos (Nat.succ_pos _)
        (show 0 + 1 < 2 ^ 16 by decide)
      rw [heq] at hcompleted
      cases hcompleted
  · have hle := (h.clients a).le
    have hblocks := w.blocks_lt a
    rw [answer_ackPacket _ _ (by omega)]
    cases hx : c.server.downloadOf a with
    | none =>
        exact ⟨Answer.ok_silent false, fun hfalse => absurd hfalse Bool.false_ne_true⟩
    | some x =>
        obtain ⟨hok, hcompleted⟩ := (h.going a x hx).ack hpos hblocks (k := k) fun hk0 _ =>
          (h.clients a).blksize (hzero hk0)
        refine ⟨hok, fun hc => ?_⟩
        have := hcompleted hc
        omega

lemma inv_step {w : Network α} {c c' : NetState α} (h : w.Inv c) (hstep : w.Step c c') :
    w.Inv c' := by
  cases hstep with
  | request a =>
      refine { h with toServer := fun b d hd => ?_ }
      rcases List.mem_cons.mp hd with heq | hd
      · obtain ⟨rfl, rfl⟩ := Prod.mk.inj heq
        exact .inl rfl
      · exact h.toServer b d hd
  | ack a k hk hzero =>
      refine { h with toServer := fun b d hd => ?_ }
      rcases List.mem_cons.mp hd with heq | hd
      · obtain ⟨rfl, rfl⟩ := Prod.mk.inj heq
        exact .inr ⟨k, rfl, hk, hzero⟩
      · exact h.toServer b d hd
  | server a d hd =>
      have hreact := datagramReceived_refines w.cfg h.wellAddressed d a
      obtain ⟨hok, -⟩ := h.answer (h.toServer a d hd)
      refine ⟨hreact.wellAddressed, fun b x hx => ?_, h.clients, fun b d' hd' => ?_, h.toServer⟩
      · by_cases hb : b = a
        · subst hb
          exact hok.download x (hreact.download ▸ hx)
        · exact h.going b x (hreact.frame b hb ▸ hx)
      · rcases List.mem_append.mp hd' with hd' | hd'
        · rw [hreact.sent] at hd'
          obtain ⟨d₀, hd₀, heq⟩ := List.mem_map.mp hd'
          obtain ⟨rfl, rfl⟩ := Prod.mk.inj heq
          exact hok.sent d₀ hd₀
        · exact h.toClients b d' hd'
  | client a d hd =>
      obtain ⟨hok, hcount, hsome⟩ := (h.clients a).recv (w.bounds a) (w.blocks_lt a)
        (h.toClients a d hd)
      -- what a client knows and holds stays
      have hready : ∀ b, (c.clients b).blksize = some (w.plan b).blocksize →
          (Function.update c.clients a ((c.clients a).recv d) b).blksize =
            some (w.plan b).blocksize := by
        intro b hb
        by_cases hba : b = a
        · subst hba
          rw [Function.update_self]
          exact hok.blksize (hsome (by rw [hb]; exact Option.some_ne_none _))
        · rwa [Function.update_of_ne hba]
      have hclients : ∀ b, (Function.update c.clients a ((c.clients a).recv d) b).Ok
          (w.plan b) := by
        intro b
        by_cases hba : b = a
        · subst hba
          rw [Function.update_self]
          exact hok
        · rw [Function.update_of_ne hba]
          exact h.clients b
      have hfrom : ∀ b d', w.FromClient b (c.clients b) d' →
          w.FromClient b (Function.update c.clients a ((c.clients a).recv d) b) d' := by
        rintro b d' (heq | ⟨k, heq, hk, hzero⟩)
        · exact .inl heq
        · refine .inr ⟨k, heq, ?_⟩
          by_cases hba : b = a
          · subst hba
            rw [Function.update_self]
            exact ⟨hk.trans hcount, fun hk0 => hsome (hzero hk0)⟩
          · rw [Function.update_of_ne hba]
            exact ⟨hk, hzero⟩
      refine ⟨h.wellAddressed, fun b x hx => ?_, hclients, fun b d' hd' =>
        (h.toClients b d' hd').mono (hready b), fun b d' hd' => hfrom b d' (h.toServer b d' hd')⟩
      have hgoing := h.going b x hx
      exact { hgoing with ready := fun hoack hnum => hready b (hgoing.ready hoack hnum) }

end Network

/-- **Transfers are correct and do not touch each other.** -/
theorem tftp_transfers_correct [DecidableEq α] (w : Network α) :
    (∀ c, Reaches w.Step Network.start c →
      (∀ a, (c.clients a).done = true → (c.clients a).stored = (w.plan a).data) ∧
      ∀ a d, (a, d) ∈ c.toServer →
        (datagramReceived w.cfg c.server d a).server.stats.transfersComplete ≠
          c.server.stats.transfersComplete →
        (c.clients a).count = (w.plan a).blocks ∧ (c.clients a).stored = (w.plan a).data) ∧
    ∀ (received : List (α × List UInt8)) (a : α),
      (sentDuring w.cfg .init received).filter (·.1 = a) =
        sentDuring w.cfg .init (received.filter (·.1 = a)) := by
  constructor
  · intro c hreach
    have hinv : w.Inv c := hreach.invariant (fun _ _ h hstep => w.inv_step h hstep) w.inv_start
    have hpos : ∀ a, 0 < (w.plan a).blocksize := fun a => by
      have := w.bounds a
      omega
    refine ⟨fun a hdone => ?_, fun a d hd hchanged => ?_⟩
    · rw [(hinv.clients a).done, decide_eq_true_eq] at hdone
      exact (hinv.clients a).stored_of_done (hpos a) hdone
    · have hreact := datagramReceived_refines w.cfg hinv.wellAddressed d a
      have hcompleted : (answer w.cfg (c.server.downloadOf a) d).completed = true := by
        rw [hreact.completed] at hchanged
        cases hans : (answer w.cfg (c.server.downloadOf a) d).completed with
        | true => rfl
        | false =>
            rw [hans] at hchanged
            exact absurd rfl hchanged
      have hcount := (hinv.answer (hinv.toServer a d hd)).2 hcompleted
      exact ⟨hcount, (hinv.clients a).stored_of_done (hpos a) hcount⟩
  · intro received a
    exact sentDuring_filter w.cfg a wellAddressed_init wellAddressed_init rfl received

/-! ## Two clients -/

/-- Two clients of a server of two files: one asks for blocks of 8 bytes, the other for none. -/
def twoClients : Network Bool where
  cfg := ⟨[(['u'], [1, 2, 3, 4, 5, 6, 7, 8, 9, 10, 11]), (['k'], [12, 13])], none, 2, id⟩
  request a := if a then rrqPacket ['u'] (some [0x38]) else rrqPacket ['k'] none
  plan a := if a then ⟨[1, 2, 3, 4, 5, 6, 7, 8, 9, 10, 11], 8, true⟩ else ⟨[12, 13], 512, false⟩
  length_request := by decide
  opcode_request := by decide
  plan_eq a := by cases a <;> rfl
  blocks_le := by decide

/-- Both get their files, although the first block of one arrives twice and its ACK too. -/
theorem tftp_transfers_correct_twoClients : ∃ c, Reaches twoClients.Step Network.start c ∧
    ∀ a, (c.clients a).done = true ∧ (c.clients a).stored = (twoClients.plan a).data := by
  have hrun : Reaches twoClients.Step Network.start Network.start := .refl _
  replace hrun := hrun.tail (.request _ true)
  replace hrun := hrun.tail (.request _ false)
  replace hrun := hrun.tail (.server _ true (rrqPacket ['u'] (some [0x38])) (by decide))
  replace hrun := hrun.tail (.client _ true (oackPacket 8) (by decide))
  replace hrun := hrun.tail (.ack _ true 0 (by decide) fun _ => by decide)
  replace hrun := hrun.tail (.server _ true (ackPacket 0) (by decide))
  replace hrun := hrun.tail (.client _ true (dataPacket 1 [1, 2, 3, 4, 5, 6, 7, 8]) (by decide))
  replace hrun := hrun.tail (.client _ true (dataPacket 1 [1, 2, 3, 4, 5, 6, 7, 8]) (by decide))
  replace hrun := hrun.tail (.ack _ true 1 (by decide) fun h => by cases h)
  replace hrun := hrun.tail (.server _ true (ackPacket 1) (by decide))
  replace hrun := hrun.tail (.server _ false (rrqPacket ['k'] none) (by decide))
  replace hrun := hrun.tail (.server _ true (ackPacket 1) (by decide))
  replace hrun := hrun.tail (.client _ false (dataPacket 1 [12, 13]) (by decide))
  replace hrun := hrun.tail (.client _ true (dataPacket 2 [9, 10, 11]) (by decide))
  have hcorrect := ((tftp_transfers_correct twoClients).1 _ hrun).1
  refine ⟨_, hrun, forall_imp (fun a hdone => ⟨hdone, hcorrect a hdone⟩) ?_⟩
  decide

end Defib.Tftp
