import Defib.Net.TftpSession

/-!
# A TFTP client

A read client as the TFTP standards have it, and not part of the repository: it asks for a file,
stores every block that is next in sequence (numbers are modulo `2 ^ 16`), and stops at the first
block that is shorter than the block size, which is the one of the OACK if one came, and else 512.
-/

namespace Defib.Tftp

/-! ## Datagrams of a client -/

/-- A read request for a file, with a value for the option `blksize`, or without. -/
def rrqPacket (filename : Text) (blksize : Option (List UInt8)) : List UInt8 :=
  packBe16 opcodeRrq ++ encodeAscii filename ++ 0 :: (encodeAscii "octet".toList ++ 0 ::
    blksize.elim [] fun value => encodeAscii blksizeName ++ 0 :: (value ++ [0]))

/-- An ACK. -/
def ackPacket (blockNum : ℕ) : List UInt8 := packBe16 opcodeAck ++ packBe16 blockNum

/-! ## The client -/

/-- What a client knows: the block size, once there is an answer, and the blocks it has stored. -/
structure Client where
  blksize : Option ℕ
  count : ℕ
  stored : List UInt8
  done : Bool
  deriving DecidableEq, Repr

def Client.init : Client := ⟨none, 0, [], false⟩

/-- The block size that an OACK names. -/
def oackBlksize (data : List UInt8) : Option ℕ :=
  (Dict.get? (parseOptions ((data.drop 2).splitOn 0)) blksizeName).bind fun value =>
    (parseInt value).map Int.toNat

/-- A client receives a datagram. -/
def Client.recv (c : Client) (data : List UInt8) : Client :=
  if c.done then c
  else if readBe16 data = opcodeData then
    let blocksize := c.blksize.getD defaultBlocksize
    let payload := data.drop 4
    if readBe16 (data.drop 2) = (c.count + 1) % 2 ^ 16 then
      ⟨some blocksize, c.count + 1, c.stored ++ payload, payload.length < blocksize⟩
    else c
  else if readBe16 data = opcodeOack ∧ c.count = 0 then
    (oackBlksize data).elim c fun blocksize => { c with blksize := some blocksize }
  else c

/-! ## What a client reads -/

lemma readBe16_dataPacket (n : ℕ) (block : List UInt8) :
    readBe16 (dataPacket n block) = opcodeData ∧
      readBe16 ((dataPacket n block).drop 2) = n % 2 ^ 16 ∧
      (dataPacket n block).drop 4 = block := by
  refine ⟨?_, ?_, rfl⟩
  · rw [dataPacket, List.append_assoc, readBe16_packBe16_append]
    decide
  · exact readBe16_packBe16_append n block

lemma readBe16_oackPacket (blocksize : ℕ) : readBe16 (oackPacket blocksize) = opcodeOack := by
  rw [oackPacket, List.append_assoc, List.append_assoc, List.append_assoc,
    readBe16_packBe16_append]
  decide

/-- The block size of an OACK is read back. -/
lemma oackBlksize_oackPacket {blocksize : ℕ} (h : blocksize < 10 ^ 5) :
    oackBlksize (oackPacket blocksize) = some blocksize := by
  have hsplit : ((oackPacket blocksize).drop 2).splitOn 0 =
      [encodeAscii blksizeName, encodeAscii (decimal blocksize), []] := by
    have hdrop : (oackPacket blocksize).drop 2 =
        encodeAscii blksizeName ++ 0 :: (encodeAscii (decimal blocksize) ++ 0 :: []) := by
      rw [oackPacket, List.append_assoc, List.append_assoc, List.append_assoc]
      rfl
    rw [hdrop, List.splitOn_append_cons_self_of_not_mem (by decide),
      List.splitOn_append_cons_self_of_not_mem (zero_notMem_encodeAscii (ascii_decimal _))]
    rfl
  have hname : (decodeAsciiReplace (encodeAscii blksizeName)).map Char.toLower = blksizeName := by
    decide
  have hlength : (decimal blocksize).length ≤ 4300 :=
    (length_decimal_le (by omega) h).trans (by omega)
  rw [oackBlksize, hsplit, parseOptions, hname, Dict.get?, if_pos rfl, Option.bind_some,
    decodeAsciiReplace_encodeAscii fun c hc => (ascii_decimal _ c hc).2, parseInt_decimal hlength]
  rfl

/-! ## Requests -/

/-- **The plan for a request.** -/
lemma rrqPlan_rrqPacket {cfg : Config} {filename : Text} {blksize : Option (List UInt8)}
    {file : List UInt8} (hascii : ∀ c ∈ filename, 0 < c.toNat ∧ c.toNat < 128)
    (hvalue : ∀ value ∈ blksize, (0 : UInt8) ∉ value)
    (hfile : resolveFile cfg filename = some file) :
    rrqPlan cfg (rrqPacket filename blksize) = .ok ⟨file,
      blksize.elim defaultBlocksize fun value => clampBlksize (decodeAsciiReplace value),
      blksize.elim false fun value =>
        clampBlksize (decodeAsciiReplace value) ≠ defaultBlocksize⟩ := by
  have hname : (decodeAsciiReplace (encodeAscii blksizeName)).map Char.toLower = blksizeName := by
    decide
  have hoctet : decodeAscii (encodeAscii "octet".toList) = some "octet".toList := by decide
  -- the options are what follows the mode
  have hsplit : ((rrqPacket filename blksize).drop 2).splitOn 0 =
      encodeAscii filename :: encodeAscii "octet".toList :: blksize.elim [[]] fun value =>
        [encodeAscii blksizeName, value, []] := by
    have hdrop : (rrqPacket filename blksize).drop 2 = encodeAscii filename ++ 0 ::
        (encodeAscii "octet".toList ++ 0 :: blksize.elim [] fun value =>
          encodeAscii blksizeName ++ 0 :: (value ++ [0])) := by
      rw [rrqPacket, List.append_assoc]
      rfl
    rw [hdrop, List.splitOn_append_cons_self_of_not_mem (zero_notMem_encodeAscii hascii),
      List.splitOn_append_cons_self_of_not_mem (by decide)]
    cases blksize with
    | none => rfl
    | some value =>
        simp only [Option.elim_some]
        rw [List.splitOn_append_cons_self_of_not_mem (by decide),
          List.splitOn_append_cons_self_of_not_mem (hvalue value rfl)]
        rfl
  rw [rrqPlan, hsplit, List.headD_cons,
    decodeAscii_encodeAscii fun c hc => (hascii c hc).2]
  simp only [List.getElem?_cons_succ, List.getElem?_cons_zero, Option.elim_some, hoctet, hfile,
    List.drop_succ_cons, List.drop_zero]
  cases blksize with
  | none => rfl
  | some value =>
      simp only [Option.elim_some, parseOptions, hname]
      rw [negotiate, Dict.setAll, List.foldl_cons, List.foldl_nil, Dict.set, Dict.get?, if_pos rfl]
      simp

/-- The answer to an ACK. -/
lemma answer_ackPacket (cfg : Config) (x : Option Download) {k : ℕ} (hk : k < 2 ^ 16) :
    answer cfg x (ackPacket k) = x.elim ⟨none, [], false, none⟩ fun x => x.ack k := by
  have hopcode : readBe16 (ackPacket k) = opcodeAck := by
    rw [ackPacket, readBe16_packBe16_append]
    decide
  have hnum : readBe16 ((ackPacket k).drop 2) = k := by
    have h := readBe16_packBe16_append k []
    rw [List.append_nil, Nat.mod_eq_of_lt hk] at h
    exact h
  have hlength : (ackPacket k).length = 4 := rfl
  rw [answer, hlength, if_neg (by omega), hopcode, if_neg (by decide), if_pos rfl,
    if_neg (by omega), hnum]

/-! ## A client in a transfer -/

/-- A client in a transfer: it has stored a beginning of the file. -/
structure Client.Ok (plan : Plan) (c : Client) : Prop where
  le : c.count ≤ plan.blocks
  stored : c.stored = plan.data.take (c.count * plan.blocksize)
  blksize : c.blksize ≠ none → c.blksize = some plan.blocksize
  done : c.done = decide (c.count = plan.blocks)

lemma Client.ok_init (plan : Plan) : Client.init.Ok plan where
  le := Nat.zero_le _
  stored := by
    rw [Client.init, Nat.zero_mul]
    rfl
  blksize h := absurd rfl h
  done := by
    rw [Plan.blocks, blocksOf]
    simp [Client.init]

/-- A client that has stopped holds the file. -/
lemma Client.Ok.stored_of_done {plan : Plan} {c : Client} (h : c.Ok plan)
    (hpos : 0 < plan.blocksize) (hcount : c.count = plan.blocks) : c.stored = plan.data := by
  rw [h.stored, hcount, Plan.blocks, take_blocksOf hpos]

section Client

variable {plan : Plan} {c : Client}

lemma Client.recv_oack (c : Client) {blocksize : ℕ} (hbound : blocksize < 10 ^ 5) :
    c.recv (oackPacket blocksize) = c ∨ c.count = 0 ∧ c.done = false ∧
      c.recv (oackPacket blocksize) = { c with blksize := some blocksize } := by
  rw [Client.recv, readBe16_oackPacket, if_neg (show ¬ opcodeOack = opcodeData by decide),
    oackBlksize_oackPacket hbound]
  cases hdone : c.done with
  | true => exact .inl rfl
  | false =>
      by_cases hcount : c.count = 0
      · exact .inr ⟨hcount, rfl, by simp [hcount]⟩
      · exact .inl (by simp [hcount])

/-- The next block is stored. -/
lemma Client.recv_next (h : c.Ok plan) (hsize : c.blksize.getD defaultBlocksize = plan.blocksize)
    (hpos : 0 < plan.blocksize) (hlt : c.count < plan.blocks) :
    c.recv (dataPacket (c.count + 1) (blockOf plan.data plan.blocksize (c.count + 1))) =
      ⟨some plan.blocksize, c.count + 1, plan.data.take ((c.count + 1) * plan.blocksize),
        decide (c.count + 1 = plan.blocks)⟩ := by
  obtain ⟨hopcode, hnum, hpayload⟩ := readBe16_dataPacket (c.count + 1)
    (blockOf plan.data plan.blocksize (c.count + 1))
  have hdone : c.done = false := by
    rw [h.done]
    simpa using Nat.ne_of_lt hlt
  have hshort : decide ((blockOf plan.data plan.blocksize (c.count + 1)).length <
      plan.blocksize) = decide (c.count + 1 = plan.blocks) :=
    decide_eq_decide.mpr ((length_blockOf_lt_iff hpos c.count).trans
      ⟨fun hle => Nat.le_antisymm hlt hle, fun heq => heq.ge⟩)
  rw [Client.recv, hdone, if_neg Bool.false_ne_true, hopcode, if_pos rfl, hnum, hpayload, hsize,
    h.stored, if_pos rfl, hshort, take_append_blockOf]

/-- A block out of sequence is ignored. -/
lemma Client.recv_other (hblocks : plan.blocks < 2 ^ 16) (h : c.Ok plan) {n : ℕ}
    (hn : n < plan.blocks) (hne : n ≠ c.count) (block : List UInt8) :
    c.recv (dataPacket (n + 1) block) = c := by
  obtain ⟨hopcode, hnum, -⟩ := readBe16_dataPacket (n + 1) block
  rw [Client.recv, hopcode, if_pos rfl, hnum]
  by_cases hdone : c.done = true
  · exact if_pos hdone
  · have hlt : c.count < plan.blocks := by
      have hle := h.le
      rw [h.done, decide_eq_true_eq] at hdone
      omega
    rw [if_neg hdone]
    exact if_neg (by omega)

end Client

end Defib.Tftp
