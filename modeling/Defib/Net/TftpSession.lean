import Defib.Net.Tftp

/-!
# The server as one party per address

The transfers of a server are kept by address, and a datagram concerns the transfer of the address
it comes from.  `answer` is what the server looks like from one address: a `Download`, if one is
going on, and what a datagram does to it.  `datagramReceived_refines` connects the two: a server is
a family of such parties, one for each address, that do not touch each other, and
`sentDuring_filter` is what follows for runs.

A download has at most `blocks` blocks to send, of which the last one is short; `Download.Ok` is
the invariant that says which are left.
-/

namespace Defib.Tftp

/-- A transfer without its address. -/
structure Download where
  data : List UInt8
  blocksize : ℕ
  blockNum : ℕ
  complete : Bool
  deriving DecidableEq, Repr

/-- What one address sees of the reaction to a datagram. -/
structure Answer where
  download : Option Download
  sent : List (List UInt8)
  completed : Bool
  raised : Option String
  deriving DecidableEq, Repr

/-- The next block. -/
def Download.advance (x : Download) : Answer :=
  let blockNum := x.blockNum + 1
  let blockData := blockOf x.data x.blocksize blockNum
  if blockNum < 2 ^ 16 then
    let complete := x.complete || blockData.length < x.blocksize
    ⟨some { x with blockNum := blockNum, complete := complete }, [dataPacket blockNum blockData],
      false, none⟩
  else
    ⟨some { x with blockNum := blockNum }, [], false,
      some "'H' format requires 0 <= number <= 65535"⟩

/-- An ERROR datagram. -/
def errorPacket (code : ℕ) (msg : Text) : List UInt8 :=
  packBe16 opcodeError ++ packBe16 code ++ encodeAscii msg ++ [0]

/-- The download a plan starts. -/
def Plan.start (plan : Plan) : Download := ⟨plan.data, plan.blocksize, 0, false⟩

def Plan.answer (plan : Plan) : Answer :=
  if plan.oack then ⟨some plan.start, [oackPacket plan.blocksize], false, none⟩
  else plan.start.advance

def Download.ack (x : Download) (blockNum : ℕ) : Answer :=
  if blockNum = 0 ∧ x.blockNum = 0 then x.advance
  else if blockNum = x.blockNum then
    if x.complete then ⟨none, [], true, none⟩ else x.advance
  else ⟨some x, [], false, none⟩

/-- The answer to a datagram from the address of a download. -/
def answer (cfg : Config) (x : Option Download) (data : List UInt8) : Answer :=
  if data.length < 2 then ⟨x, [], false, none⟩
  else if readBe16 data = opcodeRrq then
    match rrqPlan cfg data with
    | .error (code, msg) => ⟨x, [errorPacket code msg], false, none⟩
    | .ok plan => plan.answer
  else if readBe16 data = opcodeAck then
    if data.length < 4 then ⟨x, [], false, none⟩
    else x.elim ⟨none, [], false, none⟩ fun x => x.ack (readBe16 (data.drop 2))
  else if readBe16 data = opcodeError then ⟨none, [], false, none⟩
  else ⟨x, [errorPacket errIllegalOp "Unsupported operation".toList], false, none⟩

/-- What an answer can be. -/
lemma answer_cases (cfg : Config) (x : Option Download) (data : List UInt8) :
    answer cfg x data = ⟨x, [], false, none⟩ ∨
    (∃ code msg, answer cfg x data = ⟨x, [errorPacket code msg], false, none⟩) ∨
    (readBe16 data = opcodeRrq ∧ ∃ plan : Plan, ∀ y, answer cfg y data = plan.answer) ∨
    (readBe16 data = opcodeAck ∧ ∃ k, ∀ y : Option Download,
      answer cfg y data = y.elim ⟨none, [], false, none⟩ fun y => y.ack k) ∨
    answer cfg x data = ⟨none, [], false, none⟩ := by
  by_cases hshort : data.length < 2
  · exact .inl (by rw [answer, if_pos hshort])
  · by_cases hrrq : readBe16 data = opcodeRrq
    · have hanswer : ∀ y, answer cfg y data = match rrqPlan cfg data with
          | .error (code, msg) => ⟨y, [errorPacket code msg], false, none⟩
          | .ok plan => plan.answer := fun y => by
        rw [answer, if_neg hshort, if_pos hrrq]
      cases hplan : rrqPlan cfg data with
      | error e => exact .inr (.inl ⟨e.1, e.2, by rw [hanswer, hplan]⟩)
      | ok plan => exact .inr (.inr (.inl ⟨hrrq, plan, fun y => by rw [hanswer, hplan]⟩))
    · by_cases hack : readBe16 data = opcodeAck
      · by_cases hlength : data.length < 4
        · exact .inl (by rw [answer, if_neg hshort, if_neg hrrq, if_pos hack, if_pos hlength])
        · exact .inr (.inr (.inr (.inl ⟨hack, readBe16 (data.drop 2), fun y => by
            rw [answer, if_neg hshort, if_neg hrrq, if_pos hack, if_neg hlength]⟩)))
      · by_cases herror : readBe16 data = opcodeError
        · exact .inr (.inr (.inr (.inr (by
            rw [answer, if_neg hshort, if_neg hrrq, if_neg hack, if_pos herror]))))
        · exact .inr (.inl ⟨_, _, by
            rw [answer, if_neg hshort, if_neg hrrq, if_neg hack, if_neg herror]⟩)

/-! ## The server is a family of parties -/

variable {α : Type} [DecidableEq α]

def Transfer.download (t : Transfer α) : Download := ⟨t.data, t.blocksize, t.blockNum, t.complete⟩

/-- Every transfer is kept under its address. -/
def Server.WellAddressed (s : Server α) : Prop :=
  ∀ a t, s.transfers.get? a = some t → t.addr = a

/-- What is going on with an address. -/
def Server.downloadOf (s : Server α) (a : α) : Option Download :=
  (s.transfers.get? a).map Transfer.download

/-- A reaction of the server is the answer to one address, and nothing to the others. -/
structure Refines (s : Server α) (a : α) (r : Reaction α) (ans : Answer) : Prop where
  sent : r.sent = ans.sent.map fun d => (a, d)
  raised : r.raised = ans.raised
  completed : r.server.stats.transfersComplete =
    s.stats.transfersComplete + ans.completed.toNat
  download : r.server.downloadOf a = ans.download
  frame : ∀ a', a' ≠ a → r.server.downloadOf a' = s.downloadOf a'
  wellAddressed : r.server.WellAddressed

lemma wellAddressed_init : (Server.init : Server α).WellAddressed := by
  intro a t h
  cases h

lemma wellAddressed_set {transfers : Dict α (Transfer α)} {a : α} {t : Transfer α}
    (hs : ∀ a t, transfers.get? a = some t → t.addr = a) (ht : t.addr = a) (a' : α)
    (t' : Transfer α) (h : (transfers.set a t).get? a' = some t') : t'.addr = a' := by
  rw [Dict.get?_set] at h
  split at h
  · rename_i heq
    rw [← Option.some.inj h, ht, heq]
  · exact hs a' t' h

lemma wellAddressed_del {transfers : Dict α (Transfer α)} {a : α}
    (hs : ∀ a t, transfers.get? a = some t → t.addr = a) (a' : α)
    (t' : Transfer α) (h : (transfers.del a).get? a' = some t') : t'.addr = a' := by
  rw [Dict.get?_del] at h
  split at h
  · cases h
  · exact hs a' t' h

lemma Refines.unanswered {s : Server α} (hs : s.WellAddressed) (a : α) :
    Refines s a ⟨s, [], none⟩ ⟨s.downloadOf a, [], false, none⟩ :=
  ⟨rfl, rfl, rfl, rfl, fun _ _ => rfl, hs⟩

lemma Refines.error {s : Server α} (hs : s.WellAddressed) (a : α) (code : ℕ) (msg : Text) :
    Refines s a (sendError s a code msg)
      ⟨s.downloadOf a, [errorPacket code msg], false, none⟩ :=
  ⟨rfl, rfl, rfl, rfl, fun _ _ => rfl, hs⟩

/-- A counter of the statistics does not matter to a download. -/
lemma Refines.of_stats {s s' : Server α} {a : α} {r : Reaction α} {ans : Answer}
    (h : Refines s' a r ans) (htransfers : s'.transfers = s.transfers)
    (hcomplete : s'.stats.transfersComplete = s.stats.transfersComplete) : Refines s a r ans where
  sent := h.sent
  raised := h.raised
  completed := by rw [h.completed, hcomplete]
  download := h.download
  frame a' ha' := by rw [h.frame a' ha', Server.downloadOf, Server.downloadOf, htransfers]
  wellAddressed := h.wellAddressed

lemma Refines.advance {s : Server α} (hs : s.WellAddressed) {a : α} {t : Transfer α}
    (ht : t.addr = a) : Refines s a (sendDataBlock s a t) t.download.advance := by
  rw [sendDataBlock, Download.advance]
  by_cases h : t.blockNum + 1 < 2 ^ 16
  · rw [if_pos h, if_pos (show t.download.blockNum + 1 < 2 ^ 16 from h)]
    refine ⟨by rw [ht]; rfl, rfl, rfl, ?_, fun a' ha' => ?_, wellAddressed_set hs ht⟩
    · rw [Server.downloadOf, Dict.get?_set_self]
      rfl
    · rw [Server.downloadOf, Dict.get?_set_of_ne _ _ ha'.symm, Server.downloadOf]
  · rw [if_neg h, if_neg (show ¬ t.download.blockNum + 1 < 2 ^ 16 from h)]
    refine ⟨rfl, rfl, rfl, ?_, fun a' ha' => ?_, wellAddressed_set hs ht⟩
    · rw [Server.downloadOf, Dict.get?_set_self]
      rfl
    · rw [Server.downloadOf, Dict.get?_set_of_ne _ _ ha'.symm, Server.downloadOf]

lemma Refines.plan {s : Server α} (hs : s.WellAddressed) (a : α) (plan : Plan) :
    Refines s a
      (if plan.oack then
        ⟨{ s with transfers := s.transfers.set a ⟨a, plan.data, plan.blocksize, 0, false⟩ },
          [(a, oackPacket plan.blocksize)], none⟩
      else sendDataBlock
        { s with transfers := s.transfers.set a ⟨a, plan.data, plan.blocksize, 0, false⟩ } a
        ⟨a, plan.data, plan.blocksize, 0, false⟩) plan.answer := by
  have hset : Server.WellAddressed
      { s with transfers := s.transfers.set a ⟨a, plan.data, plan.blocksize, 0, false⟩ } :=
    wellAddressed_set hs rfl
  have hframe : ∀ a', a' ≠ a → Server.downloadOf
      { s with transfers := s.transfers.set a ⟨a, plan.data, plan.blocksize, 0, false⟩ } a' =
        s.downloadOf a' := fun a' ha' => by
    rw [Server.downloadOf, Dict.get?_set_of_ne _ _ ha'.symm, Server.downloadOf]
  rw [Plan.answer]
  split
  · refine ⟨rfl, rfl, rfl, ?_, hframe, hset⟩
    rw [Server.downloadOf, Dict.get?_set_self]
    rfl
  · have h := Refines.advance hset (t := ⟨a, plan.data, plan.blocksize, 0, false⟩) rfl
    exact ⟨h.sent, h.raised, h.completed, h.download,
      fun a' ha' => (h.frame a' ha').trans (hframe a' ha'), h.wellAddressed⟩

lemma Refines.remove {s : Server α} (hs : s.WellAddressed) (a : α) (stats : Stats) (done : Bool)
    (completed : Bool)
    (hstats : stats.transfersComplete = s.stats.transfersComplete + completed.toNat) :
    Refines s a ⟨⟨s.transfers.del a, stats, done⟩, [], none⟩ ⟨none, [], completed, none⟩ where
  sent := rfl
  raised := rfl
  completed := hstats
  download := by
    rw [Server.downloadOf, Dict.get?_del, if_pos rfl]
    rfl
  frame a' ha' := by
    rw [Server.downloadOf, Dict.get?_del, if_neg ha'.symm, Server.downloadOf]
  wellAddressed := wellAddressed_del hs

lemma handleAck_refines (cfg : Config) {s : Server α} (hs : s.WellAddressed)
    (data : List UInt8) (hlength : ¬ data.length < 4) (a : α) :
    Refines s a (handleAck cfg s data a) ((s.downloadOf a).elim ⟨none, [], false, none⟩
      fun x => x.ack (readBe16 (data.drop 2))) := by
  rw [handleAck, if_neg hlength]
  have hnone := Refines.unanswered hs a
  rw [Server.downloadOf] at hnone ⊢
  cases htransfer : s.transfers.get? a with
  | none =>
      rw [htransfer] at hnone
      exact hnone
  | some t =>
      have ht : t.addr = a := hs a t htransfer
      rw [htransfer] at hnone
      simp only [Option.map_some, Option.elim_some, Download.ack]
      by_cases hzero : readBe16 (data.drop 2) = 0 ∧ t.blockNum = 0
      · rw [if_pos hzero, if_pos (show _ ∧ t.download.blockNum = 0 from hzero)]
        exact Refines.advance hs ht
      · rw [if_neg hzero, if_neg (show ¬ (_ ∧ t.download.blockNum = 0) from hzero)]
        by_cases hcurrent : readBe16 (data.drop 2) = t.blockNum
        · rw [if_pos hcurrent, if_pos (show _ = t.download.blockNum from hcurrent)]
          by_cases hcomplete : t.complete = true
          · rw [if_pos hcomplete, if_pos (show t.download.complete = true from hcomplete)]
            exact Refines.remove hs a _ _ true rfl
          · rw [if_neg hcomplete, if_neg (show ¬ t.download.complete = true from hcomplete)]
            exact Refines.advance hs ht
        · rw [if_neg hcurrent, if_neg (show ¬ _ = t.download.blockNum from hcurrent)]
          exact hnone

/-- **A server is a family of parties, one for each address.** -/
lemma datagramReceived_refines (cfg : Config) {s : Server α} (hs : s.WellAddressed)
    (data : List UInt8) (a : α) :
    Refines s a (datagramReceived cfg s data a) (answer cfg (s.downloadOf a) data) := by
  rw [datagramReceived, answer]
  by_cases hshort : data.length < 2
  · rw [if_pos hshort, if_pos hshort]
    exact Refines.unanswered hs a
  · rw [if_neg hshort, if_neg hshort]
    by_cases hrrq : readBe16 data = opcodeRrq
    · rw [if_pos hrrq, if_pos hrrq, handleRrq]
      have hs' : Server.WellAddressed
          { s with stats := { s.stats with requests := s.stats.requests + 1 } } := hs
      cases rrqPlan cfg data with
      | error e => exact (Refines.error hs' a e.1 e.2).of_stats rfl rfl
      | ok plan => exact (Refines.plan hs' a plan).of_stats rfl rfl
    · rw [if_neg hrrq, if_neg hrrq]
      by_cases hack : readBe16 data = opcodeAck
      · rw [if_pos hack, if_pos hack]
        by_cases hlength : data.length < 4
        · rw [handleAck, if_pos hlength, if_pos hlength]
          exact Refines.unanswered hs a
        · rw [if_neg hlength]
          exact handleAck_refines cfg hs data hlength a
      · rw [if_neg hack, if_neg hack]
        by_cases herror : readBe16 data = opcodeError
        · rw [if_pos herror, if_pos herror]
          exact Refines.remove hs a _ _ false rfl
        · rw [if_neg herror, if_neg herror]
          exact Refines.error hs a _ _

/-! ## Runs -/

lemma wellAddressed_serverAfter (cfg : Config) {s : Server α} (hs : s.WellAddressed)
    (received : List (α × List UInt8)) : (serverAfter cfg s received).WellAddressed := by
  induction received generalizing s with
  | nil => exact hs
  | cons d received ih => exact ih (datagramReceived_refines cfg hs d.2 d.1).wellAddressed

/-- What is sent to an address depends on what is going on with it, and on what comes from it. -/
lemma sentDuring_filter (cfg : Config) (a : α) {s s' : Server α} (hs : s.WellAddressed)
    (hs' : s'.WellAddressed) (h : s.downloadOf a = s'.downloadOf a)
    (received : List (α × List UInt8)) :
    (sentDuring cfg s received).filter (·.1 = a) =
      sentDuring cfg s' (received.filter (·.1 = a)) := by
  induction received generalizing s s' with
  | nil => rfl
  | cons d received ih =>
      obtain ⟨b, data⟩ := d
      have hd := datagramReceived_refines cfg hs data b
      rw [sentDuring, List.filter_append, hd.sent]
      by_cases hb : b = a
      · subst hb
        have hd' := datagramReceived_refines cfg hs' data b
        rw [List.filter_cons_of_pos (by simp), sentDuring, hd'.sent, h,
          List.filter_eq_self.mpr (by simp)]
        congr 1
        refine ih hd.wellAddressed hd'.wellAddressed ?_
        rw [hd.download, hd'.download, h]
      · rw [List.filter_cons_of_neg (by simpa using hb), List.filter_eq_nil_iff.mpr (by simpa using
          fun _ _ => hb), List.nil_append]
        refine ih hd.wellAddressed hs' ?_
        rw [hd.frame a (Ne.symm hb), h]

/-! ## Blocks -/

/-- The number of blocks of a file, the short last one included. -/
def blocksOf (data : List UInt8) (blocksize : ℕ) : ℕ := data.length / blocksize + 1

lemma length_blockOf (data : List UInt8) (blocksize n : ℕ) :
    (blockOf data blocksize (n + 1)).length = min blocksize (data.length - n * blocksize) := by
  rw [blockOf, List.length_take, List.length_drop, Nat.add_sub_cancel]

/-- The last block is the one that is short. -/
lemma length_blockOf_lt_iff {data : List UInt8} {blocksize : ℕ} (hpos : 0 < blocksize) (n : ℕ) :
    (blockOf data blocksize (n + 1)).length < blocksize ↔ blocksOf data blocksize ≤ n + 1 := by
  rw [length_blockOf, blocksOf, Nat.add_le_add_iff_right, Nat.div_le_iff_le_mul hpos]
  omega

/-- The blocks up to one are the beginning of the file. -/
lemma take_append_blockOf (data : List UInt8) (blocksize n : ℕ) :
    data.take (n * blocksize) ++ blockOf data blocksize (n + 1) =
      data.take ((n + 1) * blocksize) := by
  rw [blockOf, Nat.add_sub_cancel, Nat.succ_mul, List.take_add]

lemma take_blocksOf {data : List UInt8} {blocksize : ℕ} (hpos : 0 < blocksize) :
    data.take (blocksOf data blocksize * blocksize) = data := by
  refine List.take_of_length_le ?_
  have h := Nat.lt_div_mul_add (a := data.length) hpos
  rw [blocksOf, Nat.succ_mul]
  omega

def Plan.blocks (plan : Plan) : ℕ := blocksOf plan.data plan.blocksize

/-- A download of a plan.  It has sent `blockNum` blocks, and is complete when these are all. -/
structure Download.Ok (plan : Plan) (x : Download) : Prop where
  data : x.data = plan.data
  blocksize : x.blocksize = plan.blocksize
  le : x.blockNum ≤ plan.blocks
  complete : x.complete = decide (x.blockNum = plan.blocks)

lemma Plan.ok_start (plan : Plan) : plan.start.Ok plan where
  data := rfl
  blocksize := rfl
  le := Nat.zero_le _
  complete := by
    rw [Plan.blocks, blocksOf]
    simp [Plan.start]

/-- **The next block of a download**, as long as its number fits. -/
lemma Download.Ok.advance {plan : Plan} {x : Download} (h : x.Ok plan)
    (hpos : 0 < plan.blocksize) (hlt : x.blockNum < plan.blocks)
    (hfits : x.blockNum + 1 < 2 ^ 16) :
    ∃ x' : Download, x'.Ok plan ∧ x'.blockNum = x.blockNum + 1 ∧
      x.advance = ⟨some x', [dataPacket (x.blockNum + 1)
        (blockOf plan.data plan.blocksize (x.blockNum + 1))], false, none⟩ := by
  have hcomplete : x.complete = false := by
    rw [h.complete]
    simpa using Nat.ne_of_lt hlt
  refine ⟨⟨plan.data, plan.blocksize, x.blockNum + 1, decide (plan.blocks ≤ x.blockNum + 1)⟩,
    ⟨rfl, rfl, Nat.succ_le_of_lt hlt, ?_⟩, rfl, ?_⟩
  · rw [decide_eq_decide]
    exact ⟨fun hle => Nat.le_antisymm (Nat.succ_le_of_lt hlt) hle, fun heq => heq.ge⟩
  · have hshort : decide ((blockOf plan.data plan.blocksize (x.blockNum + 1)).length <
        plan.blocksize) = decide (plan.blocks ≤ x.blockNum + 1) :=
      decide_eq_decide.mpr (length_blockOf_lt_iff hpos x.blockNum)
    rw [Download.advance, if_pos hfits, hcomplete, h.data, h.blocksize, hshort, Bool.false_or]

/-! ## Plans -/

lemma clampBlksize_bounds (value : Text) : 8 ≤ clampBlksize value ∧ clampBlksize value ≤ 65464 := by
  rw [clampBlksize]
  split
  · omega
  · exact ⟨by decide, by decide⟩

/-- What a plan can be. -/
lemma rrqPlan_bounds {cfg : Config} {data : List UInt8} {plan : Plan}
    (h : rrqPlan cfg data = .ok plan) : 8 ≤ plan.blocksize ∧ plan.blocksize ≤ 65464 ∧
      (plan.oack = false → plan.blocksize = defaultBlocksize) := by
  rw [rrqPlan] at h
  split at h
  · split at h
    · cases h
    · obtain rfl := Except.ok.inj h
      have hbounds : ∀ options, 8 ≤ negotiate options ∧ negotiate options ≤ 65464 ∧
          (options = [] → negotiate options = defaultBlocksize) := by
        intro options
        rw [negotiate]
        split
        · rename_i value hvalue
          refine ⟨(clampBlksize_bounds value).1, (clampBlksize_bounds value).2, ?_⟩
          rintro rfl
          cases hvalue
        · exact ⟨by decide, by decide, fun _ => rfl⟩
      obtain ⟨hlow, hhigh, hnil⟩ := hbounds
        (Dict.setAll [] (parseOptions (((data.drop 2).splitOn 0).drop 2)))
      refine ⟨hlow, hhigh, fun hoack => ?_⟩
      simp only [Bool.and_eq_false_iff, decide_eq_false_iff_not, not_not] at hoack
      exact hoack.elim hnil id
  · cases h

end Defib.Tftp
