import Defib.Net.TftpClient

/-!
# A block that is lost

A lost block can be asked for again: the client repeats what it sent last, its request or an ACK.
The server answers a repeated request as it did before.  A repeated ACK it ignores, since it
compares the number with the block that it has counted as sent.  So the transfer goes on after a
loss exactly when what was lost is the answer to the request (`tftp_recovers_iff`).
-/

namespace Defib.Tftp

variable {α : Type} [DecidableEq α]

/-- A DATA or OACK datagram. -/
def IsBlockOrOack (d : List UInt8) : Prop := readBe16 d = opcodeData ∨ readBe16 d = opcodeOack

/-- After `received`, a transfer to an address is going on, and the block (or OACK) that the server
sent last to it is `reply`, which answered `d`. -/
def Outstanding (cfg : Config) (received : List (α × List UInt8)) (a : α)
    (d reply : List UInt8) : Prop :=
  ∃ before after, received = before ++ (a, d) :: after ∧
    (datagramReceived cfg (serverAfter cfg .init before) d a).sent = [(a, reply)] ∧
    IsBlockOrOack reply ∧
    (∀ reply', (a, reply') ∈ sentDuring cfg (serverAfter cfg .init (before ++ [(a, d)])) after →
      ¬ IsBlockOrOack reply') ∧
    (serverAfter cfg .init received).downloadOf a ≠ none

/-- When the address sends `d` again, the server sends `reply` again. -/
def Recovers (cfg : Config) (received : List (α × List UInt8)) (a : α)
    (d reply : List UInt8) : Prop :=
  (datagramReceived cfg (serverAfter cfg .init received) d a).sent = [(a, reply)]

/-! ## Answers -/

lemma Download.advance_blockNum (x : Download) :
    ∃ x' : Download, x.advance.download = some x' ∧ x'.blockNum = x.blockNum + 1 := by
  rw [Download.advance]
  split
  · exact ⟨_, rfl, rfl⟩
  · exact ⟨_, rfl, rfl⟩

/-- An ACK that is answered moves the counter past it. -/
lemma Download.ack_sent {x : Download} {k : ℕ} (h : (x.ack k).sent ≠ []) :
    ∃ x' : Download, (x.ack k).download = some x' ∧ k < x'.blockNum := by
  obtain ⟨x', hx', hnum⟩ := x.advance_blockNum
  rw [Download.ack] at h ⊢
  split
  · rename_i hzero
    exact ⟨x', hx', by omega⟩
  · rename_i hzero
    rw [if_neg hzero] at h
    split
    · rename_i hk
      rw [if_pos hk] at h
      split
      · rename_i hcomplete
        rw [if_pos hcomplete] at h
        exact absurd rfl h
      · exact ⟨x', hx', by omega⟩
    · rename_i hk
      rw [if_neg hk] at h
      exact absurd rfl h

/-- An ACK of a block before the current one is ignored. -/
lemma Download.ack_of_lt {x : Download} {k : ℕ} (h : k < x.blockNum) : (x.ack k).sent = [] := by
  rw [Download.ack, if_neg (by omega), if_neg (by omega)]

lemma isBlockOrOack_dataPacket (n : ℕ) (block : List UInt8) :
    IsBlockOrOack (dataPacket n block) := .inl (readBe16_dataPacket n block).1

lemma not_isBlockOrOack_errorPacket (code : ℕ) (msg : Text) :
    ¬ IsBlockOrOack (errorPacket code msg) := by
  have hopcode : readBe16 (errorPacket code msg) = opcodeError := by
    rw [errorPacket, List.append_assoc, List.append_assoc, readBe16_packBe16_append]
    decide
  rintro (h | h)
  · exact absurd (hopcode.symm.trans h) (by decide)
  · exact absurd (hopcode.symm.trans h) (by decide)

/-- The counter of a download does not go back. -/
lemma Download.le_of_ack {x : Download} {k : ℕ} {x' : Download}
    (h : (x.ack k).download = some x') : x.blockNum ≤ x'.blockNum := by
  obtain ⟨y, hy, hnum⟩ := x.advance_blockNum
  have hadvance : x.advance.download = some x' → x.blockNum ≤ x'.blockNum := by
    intro h
    rw [hy] at h
    rw [← Option.some.inj h]
    omega
  rw [Download.ack] at h
  split at h
  · exact hadvance h
  · split at h
    · split at h
      · cases h
      · exact hadvance h
    · rw [Option.some.inj h]

/-- A request that is served is answered with a block or an OACK. -/
lemma Plan.answer_sent (plan : Plan) : ∃ reply ∈ plan.answer.sent, IsBlockOrOack reply := by
  rw [Plan.answer]
  split
  · exact ⟨_, List.mem_singleton_self _, .inr (readBe16_oackPacket _)⟩
  · refine ⟨_, ?_, isBlockOrOack_dataPacket 1 (blockOf plan.data plan.blocksize 1)⟩
    have hfits : plan.start.blockNum + 1 < 2 ^ 16 := show 0 + 1 < 2 ^ 16 by decide
    rw [Download.advance, if_pos hfits]
    exact List.mem_singleton_self _

/-- Without a block or an OACK being sent, a download does not go back behind a block. -/
lemma lt_of_answer {cfg : Config} {k : ℕ} {x : Option Download} {d : List UInt8}
    (hx : ∀ y ∈ x, k < y.blockNum)
    (hsent : ∀ reply ∈ (answer cfg x d).sent, ¬ IsBlockOrOack reply) :
    ∀ y ∈ (answer cfg x d).download, k < y.blockNum := by
  intro y hy
  rcases answer_cases cfg x d with h | ⟨code, msg, h⟩ | ⟨-, plan, h⟩ | ⟨-, k', h⟩ | h
  · rw [h] at hy
    exact hx y hy
  · rw [h] at hy
    exact hx y hy
  · obtain ⟨reply, hreply, hblock⟩ := plan.answer_sent
    rw [h] at hsent
    exact absurd hblock (hsent reply hreply)
  · rw [h] at hy
    cases x with
    | none => cases hy
    | some x =>
        have hlt := hx x rfl
        have hle := Download.le_of_ack hy
        omega
  · rw [h] at hy
    cases hy

/-- The same for a run of the server. -/
lemma lt_of_sentDuring {cfg : Config} {a : α} {k : ℕ} {s : Server α} (hs : s.WellAddressed)
    (hx : ∀ y ∈ s.downloadOf a, k < y.blockNum) (received : List (α × List UInt8))
    (hsent : ∀ reply, (a, reply) ∈ sentDuring cfg s received → ¬ IsBlockOrOack reply) :
    ∀ y ∈ (serverAfter cfg s received).downloadOf a, k < y.blockNum := by
  induction received generalizing s with
  | nil => exact hx
  | cons d received ih =>
      obtain ⟨b, data⟩ := d
      have hreact := datagramReceived_refines cfg hs data b
      rw [sentDuring] at hsent
      refine ih hreact.wellAddressed ?_ fun reply hreply =>
        hsent reply (List.mem_append_right _ hreply)
      by_cases hb : a = b
      · subst hb
        rw [hreact.download]
        refine lt_of_answer hx fun reply hreply => hsent reply (List.mem_append_left _ ?_)
        rw [hreact.sent]
        exact List.mem_map.mpr ⟨reply, hreply, rfl⟩
      · rw [hreact.frame a hb]
        exact hx

lemma serverAfter_append (cfg : Config) (s : Server α)
    (received received' : List (α × List UInt8)) :
    serverAfter cfg s (received ++ received') =
      serverAfter cfg (serverAfter cfg s received) received' := List.foldl_append

/-- **The server recovers exactly from the loss of what answers a request.** -/
theorem tftp_recovers_iff (cfg : Config) (received : List (α × List UInt8)) (a : α)
    (d reply : List UInt8) (h : Outstanding cfg received a d reply) :
    Recovers cfg received a d reply ↔ readBe16 d = opcodeRrq := by
  obtain ⟨before, after, rfl, hsent, hblock, hnone, hactive⟩ := h
  have hbefore : (serverAfter cfg .init before).WellAddressed :=
    wellAddressed_serverAfter cfg (wellAddressed_init (α := α)) before
  have hnow : (serverAfter cfg .init (before ++ (a, d) :: after)).WellAddressed :=
    wellAddressed_serverAfter cfg (wellAddressed_init (α := α)) _
  have hreact := datagramReceived_refines cfg hbefore d a
  have hagain := datagramReceived_refines cfg hnow d a
  rw [hreact.sent] at hsent
  have hanswered : (answer cfg ((serverAfter cfg .init before).downloadOf a) d).sent = [reply] := by
    have hsnd := congrArg (List.map Prod.snd) hsent
    rw [List.map_map] at hsnd
    exact (List.map_id _).symm.trans hsnd
  rw [Recovers, hagain.sent]
  rcases answer_cases cfg ((serverAfter cfg .init before).downloadOf a) d with
    h | ⟨code, msg, h⟩ | ⟨hrrq, plan, h⟩ | ⟨hack, k, h⟩ | h
  · rw [h] at hanswered
    cases hanswered
  · rw [h] at hanswered
    rw [← (List.cons.inj hanswered).1] at hblock
    exact absurd hblock (not_isBlockOrOack_errorPacket code msg)
  · rw [h, ← h ((serverAfter cfg .init before).downloadOf a), hanswered]
    exact ⟨fun _ => hrrq, fun _ => rfl⟩
  · -- the counter has moved past the ACK, and stays there
    have hpast : ∀ y ∈ (serverAfter cfg .init (before ++ (a, d) :: after)).downloadOf a,
        k < y.blockNum := by
      have hsplit : before ++ (a, d) :: after = (before ++ [(a, d)]) ++ after := by simp
      rw [hsplit, serverAfter_append]
      refine lt_of_sentDuring (wellAddressed_serverAfter cfg wellAddressed_init _) ?_ after hnone
      rw [serverAfter_append]
      change ∀ y ∈ (datagramReceived cfg (serverAfter cfg .init before) d a).server.downloadOf a, _
      rw [hreact.download, h]
      rw [h] at hanswered
      cases hx : (serverAfter cfg .init before).downloadOf a with
      | none =>
          rw [hx] at hanswered
          cases hanswered
      | some x =>
          rw [hx] at hanswered
          obtain ⟨x', hx', hlt⟩ := Download.ack_sent (x := x) (k := k) (by
            rw [show (x.ack k).sent = [reply] from hanswered]
            exact List.cons_ne_nil _ _)
          intro y hy
          rw [Option.elim_some, hx'] at hy
          rw [← Option.some.inj hy]
          exact hlt
    rw [h]
    obtain ⟨y, hy⟩ := Option.ne_none_iff_exists'.mp hactive
    rw [hy, Option.elim_some, Download.ack_of_lt (hpast y hy)]
    refine ⟨fun hnil => ?_, fun hrrq => absurd (hrrq.symm.trans hack) (by decide)⟩
    cases hnil
  · rw [h] at hanswered
    cases hanswered

/-- A server of one file of eleven bytes. -/
def smallConfig : Config := ⟨[], some [1, 2, 3, 4, 5, 6, 7, 8, 9, 10, 11], 1, id⟩

/-- A client that asks for blocks of 8 bytes, up to the second of its two blocks, and another one
that asks in between. -/
def twoRequests : List (Bool × List UInt8) :=
  [(true, rrqPacket ['f'] (some [0x38])), (false, rrqPacket ['f'] none)]

/-- Its OACK is sent again, and its second block is not. -/
theorem tftp_recovers_oack :
    (Outstanding smallConfig twoRequests true (rrqPacket ['f'] (some [0x38])) (oackPacket 8) ∧
      Recovers smallConfig twoRequests true (rrqPacket ['f'] (some [0x38])) (oackPacket 8)) ∧
    Outstanding smallConfig (twoRequests ++ [(true, ackPacket 0), (true, ackPacket 1)]) true
        (ackPacket 1) (dataPacket 2 [9, 10, 11]) ∧
      ¬ Recovers smallConfig (twoRequests ++ [(true, ackPacket 0), (true, ackPacket 1)]) true
        (ackPacket 1) (dataPacket 2 [9, 10, 11]) := by
  have hoack : Outstanding smallConfig twoRequests true (rrqPacket ['f'] (some [0x38]))
      (oackPacket 8) :=
    ⟨[], [(false, rrqPacket ['f'] none)], rfl, by decide, .inr (by decide),
      fun reply hmem => by
        have hsent : sentDuring smallConfig (serverAfter smallConfig .init
            ([] ++ [(true, rrqPacket ['f'] (some [0x38]))])) [(false, rrqPacket ['f'] none)] =
          [(false, dataPacket 1 [1, 2, 3, 4, 5, 6, 7, 8, 9, 10, 11])] := by decide
        rw [hsent] at hmem
        simp at hmem, by decide⟩
  have hblock : Outstanding smallConfig
      (twoRequests ++ [(true, ackPacket 0), (true, ackPacket 1)]) true (ackPacket 1)
      (dataPacket 2 [9, 10, 11]) :=
    ⟨twoRequests ++ [(true, ackPacket 0)], [], rfl, by decide, isBlockOrOack_dataPacket _ _,
      fun _ hmem => absurd hmem List.not_mem_nil, by decide⟩
  refine ⟨⟨hoack, (tftp_recovers_iff _ _ _ _ _ hoack).mpr (by decide)⟩, hblock, fun h => ?_⟩
  exact absurd ((tftp_recovers_iff _ _ _ _ _ hblock).mp h) (by decide)

/-- The block that answers the ACK of an OACK is not sent again. -/
theorem tftp_stuck_after_lost_block :
    let received := [((), rrqPacket ['f'] (some [0x38])), ((), ackPacket 0)]
    Outstanding smallConfig received () (ackPacket 0) (dataPacket 1 [1, 2, 3, 4, 5, 6, 7, 8]) ∧
      ¬ Recovers smallConfig received () (ackPacket 0)
        (dataPacket 1 [1, 2, 3, 4, 5, 6, 7, 8]) := by
  refine ⟨⟨[((), rrqPacket ['f'] (some [0x38]))], [], rfl, by decide, isBlockOrOack_dataPacket _ _,
    fun _ hmem => absurd hmem List.not_mem_nil, by decide⟩, ?_⟩
  rw [Recovers]
  decide

end Defib.Tftp
