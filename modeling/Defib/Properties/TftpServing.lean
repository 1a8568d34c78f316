import Defib.Framework.Runs
import Defib.Net.TftpClient

/-!
# One file over a loss-free link

A client fetches a file of any size from the server over a link that delivers everything in order.
A block is in flight, or its ACK is, until the client has the file and the transfer is counted;
unless the file has more than 65535 blocks, in which case the server raises on the block whose
number does not fit its field (`tftp_serves_iff`).
-/

namespace Defib.Tftp

variable {α : Type} [DecidableEq α]

/-! ## The two parties -/

/-- What a client answers after a datagram that changed it: one ACK for a block, and ACK 0 for an
OACK. -/
def Client.reply (c c' : Client) : List (List UInt8) :=
  if c'.count ≠ c.count then [ackPacket c'.count]
  else if c'.blksize ≠ c.blksize then [ackPacket 0]
  else []

/-- A client as a party of a session. -/
def Client.step (c : Client) (d : List UInt8) : Client × List (List UInt8) :=
  (c.recv d, c.reply (c.recv d))

/-- An OACK is answered with ACK 0. -/
lemma Client.step_init_oack {blocksize : ℕ} (hbound : blocksize < 10 ^ 5) :
    Client.init.step (oackPacket blocksize) =
      ({ Client.init with blksize := some blocksize }, [ackPacket 0]) := by
  have hrecv : Client.init.recv (oackPacket blocksize) =
      { Client.init with blksize := some blocksize } := by
    rcases Client.recv_oack Client.init hbound with h | h
    · rw [Client.recv, readBe16_oackPacket, oackBlksize_oackPacket hbound] at h
      exact absurd (congrArg Client.blksize h) (Option.some_ne_none _)
    · exact h.2.2
  rw [Client.step, hrecv]
  rfl

/-- The block that is next in sequence is stored and answered with its ACK. -/
lemma Client.step_next {plan : Plan} {c : Client} (h : c.Ok plan)
    (hsize : c.blksize.getD defaultBlocksize = plan.blocksize) (hpos : 0 < plan.blocksize)
    (hlt : c.count < plan.blocks) :
    c.step (dataPacket (c.count + 1) (blockOf plan.data plan.blocksize (c.count + 1))) =
      (⟨some plan.blocksize, c.count + 1, plan.data.take ((c.count + 1) * plan.blocksize),
        decide (c.count + 1 = plan.blocks)⟩, [ackPacket (c.count + 1)]) := by
  rw [Client.step, Client.recv_next h hsize hpos hlt, Client.reply,
    if_pos (Nat.succ_ne_self _)]

/-- A server, and whether it has raised an exception. -/
structure Party (α : Type) where
  server : Server α
  raised : Bool

/-- The server as a party of a session with an address. -/
def Party.step (cfg : Config) (a : α) (p : Party α) (d : List UInt8) :
    Party α × List (List UInt8) :=
  let r := datagramReceived cfg p.server d a
  (⟨r.server, p.raised || r.raised.isSome⟩, (r.sent.filter (·.1 = a)).map Prod.snd)

/-- A client at an address that fetches a file by its name, with any value for the option `blksize`
or none, from a server with any other transfers going on. -/
structure Fetch (α : Type) [DecidableEq α] where
  cfg : Config
  server : Server α
  wellAddressed : server.WellAddressed
  addr : α
  filename : Text
  ascii : ∀ c ∈ filename, 0 < c.toNat ∧ c.toNat < 128
  blksize : Option (List UInt8)
  value : ∀ value ∈ blksize, (0 : UInt8) ∉ value
  file : List UInt8
  resolves : resolveFile cfg filename = some file

namespace Fetch

/-- The block size of the transfer. -/
def blocksize (f : Fetch α) : ℕ :=
  f.blksize.elim defaultBlocksize fun value => clampBlksize (decodeAsciiReplace value)

def plan (f : Fetch α) : Plan where
  data := f.file
  blocksize := f.blocksize
  oack := f.blksize.elim false fun value =>
    clampBlksize (decodeAsciiReplace value) ≠ defaultBlocksize

def request (f : Fetch α) : List UInt8 := rrqPacket f.filename f.blksize

abbrev Session (α : Type) := Pair Client (Party α) (List UInt8) (List UInt8)

def Step (f : Fetch α) : Session α → Session α → Prop :=
  Pair.Step Client.step (Party.step f.cfg f.addr)

def start (f : Fetch α) : Session α := ⟨.init, ⟨f.server, false⟩, [], [f.request]⟩

/-- What a session is to do. -/
structure Serves (f : Fetch α) : Prop where
  never_raises : ∀ c, Reaches f.Step f.start c → c.snd.raised = false
  bounded : ∃ bound, ∀ n c, Run f.Step n f.start c → n ≤ bound
  /-- When nothing is left to deliver, the client has the file and one more transfer is counted. -/
  received : ∀ c, Reaches f.Step f.start c → (∀ d, ¬ f.Step c d) →
    c.fst.done = true ∧ c.fst.stored = f.file ∧
      c.snd.server.stats.transfersComplete = f.server.stats.transfersComplete + 1

/-! ## The course of a session -/

/-- The server with a download for the client. -/
structure Serving (f : Fetch α) (x : Option Download) (completed : ℕ) (p : Party α) : Prop where
  wellAddressed : p.server.WellAddressed
  raised : p.raised = false
  download : p.server.downloadOf f.addr = x
  completed : p.server.stats.transfersComplete = f.server.stats.transfersComplete + completed

/-- The states of a session, with the number of deliveries that are left. -/
inductive At (f : Fetch α) : ℕ → Session α → Prop
  | asked (p : Party α) (hp : f.Serving (f.server.downloadOf f.addr) 0 p) :
      At f (2 * f.plan.blocks + 3) ⟨.init, p, [], [f.request]⟩
  | oack (p : Party α) (hp : f.Serving (some f.plan.start) 0 p) :
      At f (2 * f.plan.blocks + 2) ⟨.init, p, [oackPacket f.blocksize], []⟩
  | oackAcked (p : Party α) (hp : f.Serving (some f.plan.start) 0 p) :
      At f (2 * f.plan.blocks + 1)
        ⟨{ Client.init with blksize := some f.blocksize }, p, [], [ackPacket 0]⟩
  | data (c : Client) (x : Download) (p : Party α) (hc : c.Ok f.plan) (hx : x.Ok f.plan)
      (hsize : c.blksize.getD defaultBlocksize = f.blocksize) (hnum : x.blockNum = c.count + 1)
      (hfits : x.blockNum < 2 ^ 16) (hp : f.Serving (some x) 0 p) :
      At f (2 * (f.plan.blocks - c.count)) ⟨c, p, [dataPacket (c.count + 1)
        (blockOf f.file f.blocksize (c.count + 1))], []⟩
  | acked (c : Client) (x : Download) (p : Party α) (hc : c.Ok f.plan) (hx : x.Ok f.plan)
      (hsize : c.blksize = some f.blocksize) (hnum : x.blockNum = c.count) (hpos : 0 < c.count)
      (hfits : c.count < 2 ^ 16) (hp : f.Serving (some x) 0 p) :
      At f (2 * (f.plan.blocks - c.count) + 1) ⟨c, p, [], [ackPacket c.count]⟩
  | finished (c : Client) (p : Party α) (hc : c.Ok f.plan) (hcount : c.count = f.plan.blocks)
      (hfits : f.plan.blocks < 2 ^ 16) (hp : f.Serving none 1 p) :
      At f 0 ⟨c, p, [], []⟩

/-- The server raised, on a file of too many blocks. -/
def Overrun (f : Fetch α) (c : Session α) : Prop :=
  c.snd.raised = true ∧ 2 ^ 16 ≤ f.plan.blocks

lemma rrqPlan_request (f : Fetch α) : rrqPlan f.cfg f.request = .ok f.plan :=
  rrqPlan_rrqPacket f.ascii f.value f.resolves

lemma bounds (f : Fetch α) : 8 ≤ f.blocksize ∧ f.blocksize ≤ 65464 ∧
    (f.plan.oack = false → f.blocksize = defaultBlocksize) :=
  rrqPlan_bounds f.rrqPlan_request

lemma answer_request (f : Fetch α) (x : Option Download) :
    answer f.cfg x f.request = f.plan.answer := by
  have hopcode : readBe16 f.request = opcodeRrq := by
    rw [request, rrqPacket, List.append_assoc, readBe16_packBe16_append]
    decide
  have hlength : 2 ≤ f.request.length := by
    rw [request, rrqPacket, List.append_assoc, List.length_append]
    exact Nat.le_add_right _ _
  rw [answer, if_neg (Nat.not_lt.mpr hlength), if_pos hopcode, f.rrqPlan_request]

/-- What the server does with a datagram of the client. -/
lemma Serving.step {f : Fetch α} {x : Option Download} {completed : ℕ} {p : Party α}
    (hp : f.Serving x completed p) {d : List UInt8} {ans : Answer} (hans : answer f.cfg x d = ans) :
    (p.step f.cfg f.addr d).2 = ans.sent ∧
      (p.step f.cfg f.addr d).1.raised = ans.raised.isSome ∧
      (ans.raised = none → f.Serving ans.download (completed + ans.completed.toNat)
        (p.step f.cfg f.addr d).1) := by
  have hreact := datagramReceived_refines f.cfg hp.wellAddressed d f.addr
  rw [hp.download, hans] at hreact
  have hraised : (p.step f.cfg f.addr d).1.raised = ans.raised.isSome := by
    rw [Party.step, hp.raised, hreact.raised, Bool.false_or]
  refine ⟨?_, hraised, fun hnone => ⟨hreact.wellAddressed, ?_, hreact.download, ?_⟩⟩
  · rw [Party.step, hreact.sent, List.filter_eq_self.mpr (by simp), List.map_map]
    exact List.map_id _
  · rw [hraised, hnone]
    rfl
  · rw [Party.step, hreact.completed, hp.completed, Nat.add_assoc]

lemma blocksize_pos (f : Fetch α) : 0 < f.plan.blocksize :=
  Nat.lt_of_lt_of_le (by decide) f.bounds.1

/-- The server sends the next block, or raises. -/
lemma Serving.advance {f : Fetch α} {x₀ : Option Download} {p : Party α} (hp : f.Serving x₀ 0 p)
    {d : List UInt8} {x : Download} (hans : answer f.cfg x₀ d = x.advance) (hx : x.Ok f.plan)
    (hlt : x.blockNum < f.plan.blocks) {c : Client} (hc : c.Ok f.plan)
    (hcount : x.blockNum = c.count)
    (hsize : c.blksize.getD defaultBlocksize = f.blocksize) (hle : c.count < 2 ^ 16) {n : ℕ}
    (hn : 2 * (f.plan.blocks - c.count) < n) :
    (∃ m < n, f.At m ⟨c, (p.step f.cfg f.addr d).1, (p.step f.cfg f.addr d).2, []⟩) ∨
      f.Overrun ⟨c, (p.step f.cfg f.addr d).1, (p.step f.cfg f.addr d).2, []⟩ := by
  obtain ⟨hsent, hraised, hserving⟩ := hp.step hans
  by_cases hfits : x.blockNum + 1 < 2 ^ 16
  · obtain ⟨x', hx', hnum, heq⟩ := hx.advance f.blocksize_pos hlt hfits
    rw [heq] at hserving hsent
    rw [hsent, hcount]
    exact .inl ⟨_, hn, .data c x' _ hc hx' hsize (by omega) (by omega) (hserving rfl)⟩
  · refine .inr ⟨?_, by omega⟩
    rw [hraised, Download.advance, if_neg hfits]
    rfl

/-- **One delivery.** -/
lemma at_ranked (f : Fetch α) : Ranked f.Step f.At f.Overrun := by
  have hbounds := f.bounds
  intro n c d hat hstep
  cases hat with
  | asked p hp =>
      cases hstep
      rw [List.nil_append]
      have hans := f.answer_request (f.server.downloadOf f.addr)
      rw [Plan.answer] at hans
      by_cases hoack : f.plan.oack = true
      · rw [if_pos hoack] at hans
        obtain ⟨hsent, -, hserving⟩ := hp.step hans
        refine .inl ⟨_, Nat.lt_succ_self _, ?_⟩
        rw [hsent]
        exact .oack _ (hserving rfl)
      · rw [if_neg hoack] at hans
        have hsize : Client.init.blksize.getD defaultBlocksize = f.blocksize :=
          (hbounds.2.2 (by simpa using hoack)).symm
        refine hp.advance hans f.plan.ok_start (Nat.succ_pos _) (Client.ok_init _) rfl hsize
          (show 0 < 2 ^ 16 by decide)
          (Nat.lt_of_le_of_lt (Nat.mul_le_mul_left 2 (Nat.sub_le _ _)) ?_)
        omega
  | oack p hp =>
      cases hstep
      rw [Client.step_init_oack (show f.blocksize < 10 ^ 5 by omega)]
      exact .inl ⟨_, Nat.lt_succ_self _, .oackAcked p hp⟩
  | oackAcked p hp =>
      cases hstep
      rw [List.nil_append]
      have hans := answer_ackPacket f.cfg (some f.plan.start) (k := 0) (by decide)
      rw [Option.elim_some, Download.ack, if_pos ⟨rfl, rfl⟩] at hans
      have hc : Client.Ok f.plan { Client.init with blksize := some f.blocksize } :=
        { Client.ok_init f.plan with blksize := fun _ => rfl }
      refine hp.advance hans f.plan.ok_start (Nat.succ_pos _) hc rfl rfl
        (show 0 < 2 ^ 16 by decide) (Nat.lt_of_le_of_lt (Nat.mul_le_mul_left 2 (Nat.sub_le _ _)) ?_)
      omega
  | data c x p hc hx hsize hnum hfits hp =>
      cases hstep
      have hlt : c.count < f.plan.blocks := by
        have := hx.le
        omega
      have hnext := Client.step_next hc hsize f.blocksize_pos hlt
      change c.step (dataPacket (c.count + 1) (blockOf f.file f.blocksize (c.count + 1))) = _
        at hnext
      rw [hnext]
      refine .inl ⟨2 * (f.plan.blocks - (c.count + 1)) + 1, by omega, ?_⟩
      exact .acked ⟨some f.blocksize, c.count + 1, _, _⟩ x p ⟨hlt, rfl, fun _ => rfl, rfl⟩ hx rfl
        hnum (Nat.succ_pos _) (show c.count + 1 < 2 ^ 16 by omega) hp
  | acked c x p hc hx hsize hnum hcpos hfits hp =>
      cases hstep
      rw [List.nil_append]
      have hans := answer_ackPacket f.cfg (some x) hfits
      rw [Option.elim_some, Download.ack, if_neg (by omega), if_pos hnum.symm, hx.complete] at hans
      by_cases hlast : x.blockNum = f.plan.blocks
      · rw [if_pos (by simpa using hlast)] at hans
        obtain ⟨hsent, -, hserving⟩ := hp.step hans
        refine .inl ⟨0, by omega, ?_⟩
        rw [hsent]
        exact .finished c _ hc (by omega) (by omega) (hserving rfl)
      · rw [if_neg (by simpa using hlast)] at hans
        have hlt : x.blockNum < f.plan.blocks := by
          have := hx.le
          omega
        exact hp.advance hans hx hlt hc hnum (by rw [hsize]; rfl) hfits (Nat.lt_succ_self _)
  | finished c p hc hcount hfits hp => cases hstep

lemma overrun_absorbing (f : Fetch α) (c d : Session α) (h : f.Overrun c) (hstep : f.Step c d) :
    f.Overrun d := by
  obtain ⟨hraised, hblocks⟩ := h
  refine ⟨?_, hblocks⟩
  cases hstep with
  | fst s t x xs ys => exact hraised
  | snd s t xs y ys =>
      rw [Party.step]
      simp only at hraised ⊢
      rw [hraised]
      rfl

lemma at_start (f : Fetch α) : f.At (2 * f.plan.blocks + 3) f.start :=
  .asked _ ⟨f.wellAddressed, rfl, rfl, rfl⟩

/-- A session that goes on has something to deliver. -/
lemma At.stuck {f : Fetch α} {n : ℕ} {c : Session α} (h : f.At n c) (hstuck : ∀ d, ¬ f.Step c d) :
    c.fst.done = true ∧ c.fst.stored = f.file ∧ f.plan.blocks < 2 ^ 16 ∧
      c.snd.server.stats.transfersComplete = f.server.stats.transfersComplete + 1 := by
  obtain ⟨hfst, hsnd⟩ := Pair.queues_nil_of_stuck hstuck
  have hpos : 0 < f.plan.blocksize := by
    have := f.bounds.1
    change 0 < f.blocksize
    omega
  cases h with
  | asked p hp => cases hsnd
  | oack p hp => cases hfst
  | oackAcked p hp => cases hsnd
  | data c x p hc hx hsize hnum hfits hp => cases hfst
  | acked c x p hc hx hsize hnum hcpos hfits hp => cases hsnd
  | finished c p hc hcount hfits hp =>
      refine ⟨?_, hc.stored_of_done hpos hcount, hfits, hp.completed⟩
      rw [hc.done]
      exact decide_eq_true hcount

lemma At.raised {f : Fetch α} {n : ℕ} {c : Session α} (h : f.At n c) : c.snd.raised = false := by
  cases h with
  | asked p hp => exact hp.raised
  | oack p hp => exact hp.raised
  | oackAcked p hp => exact hp.raised
  | data c x p hc hx hsize hnum hfits hp => exact hp.raised
  | acked c x p hc hx hsize hnum hcpos hfits hp => exact hp.raised
  | finished c p hc hcount hfits hp => exact hp.raised

/-- A file of too many blocks makes the server raise. -/
lemma fits_of_serves {f : Fetch α} (h : f.Serves) : f.plan.blocks < 2 ^ 16 := by
  obtain ⟨c, hreach, hover | ⟨⟨m, hm⟩, hstuck⟩⟩ := exists_stuck f.at_ranked _ f.at_start
  · have hraised := h.never_raises c hreach
    rw [hover.1] at hraised
    cases hraised
  · exact (hm.stuck hstuck).2.2.1

lemma serves_of_fits {f : Fetch α} (h : f.plan.blocks < 2 ^ 16) : f.Serves := by
  have hrank : ∀ n c, Run f.Step n f.start c →
      ∃ m, f.At m c ∧ m + n ≤ 2 * f.plan.blocks + 3 := by
    intro n c hrun
    rcases hrun.ranked f.at_ranked f.overrun_absorbing f.at_start with hat | hover
    · exact hat
    · exact absurd hover.2 (Nat.not_le.mpr h)
  constructor
  · rintro c ⟨n, hrun⟩
    obtain ⟨m, hm, -⟩ := hrank n c hrun
    exact hm.raised
  · exact ⟨2 * f.plan.blocks + 3, fun n c hrun => by
      obtain ⟨m, -, hle⟩ := hrank n c hrun
      omega⟩
  · rintro c ⟨n, hrun⟩ hstuck
    obtain ⟨m, hm, -⟩ := hrank n c hrun
    obtain ⟨hdone, hstored, -, hcompleted⟩ := hm.stuck hstuck
    exact ⟨hdone, hstored, hcompleted⟩

end Fetch

/-- **A file is served exactly when it has at most 65535 blocks.** -/
theorem tftp_serves_iff (f : Fetch α) :
    f.Serves ↔ f.file.length / f.blocksize + 1 ≤ 65535 := by
  have hblocks : f.plan.blocks = f.file.length / f.blocksize + 1 := rfl
  rw [← hblocks]
  exact ⟨fun h => Nat.le_of_lt_succ (Fetch.fits_of_serves h),
    fun h => Fetch.serves_of_fits (Nat.lt_succ_of_le h)⟩

/-- A file of zeros, asked for without the option. -/
def zerosFetch (length : ℕ) : Fetch Unit where
  cfg := ⟨[], some (List.replicate length 0), 1, id⟩
  server := .init
  wellAddressed := wellAddressed_init
  addr := ()
  filename := "firmware.bin".toList
  ascii := forall_mem_of_all (by decide)
  blksize := none
  value := by simp
  file := List.replicate length 0
  resolves := rfl

/-- The server raises on a file of 32 MiB less 512 bytes. -/
theorem tftp_raises_on_large_file : ¬ (zerosFetch (65535 * 512)).Serves := by
  intro h
  have hblocks : ∀ n, (zerosFetch n).plan.blocks = n / 512 + 1 := by
    intro n
    rw [Plan.blocks, blocksOf, Fetch.plan, zerosFetch, List.length_replicate]
    rfl
  have hfits := Fetch.fits_of_serves h
  rw [hblocks] at hfits
  omega

end Defib.Tftp
