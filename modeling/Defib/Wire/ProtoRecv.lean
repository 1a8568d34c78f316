import Defib.Wire.Packet

/-!
# Packet reception on the device

`proto_recv` of `agent/protocol.c`: a read loop that accumulates a frame in `rx_cobs`, COBS
decoding into `rx_raw`, the checksum test, and the copy into the caller's buffer.

The read loop is modelled over the results of its byte fetches, which is all it sees of the
UART and of the software FIFO.  `readFrame_spec` says which frames it can hand on: up to
`sizeof(rx_cobs)` non-zero bytes.  Decoding runs before the checksum is looked at, so what
matters for memory safety is how many bytes `cobs_decode` writes for *any* such frame.
`cobsDecode_outIdx` counts them exactly: all but one byte of the frame, less one for every
full block before the last (`fullBlocks`).
-/

namespace Defib

/-! ## The source -/

/-- `sizeof(rx_cobs)`. -/
def rxCobsSize : ℕ := maxPayload + 32

/-- `sizeof(rx_raw)`, and the size of every caller's buffer (`cmd_buf`, `pkt`). -/
def rxRawSize : ℕ := maxPayload + 16

/-- The outcome of one byte fetch: a byte, the `-2` of a line error, or the `-1` of an empty
FIFO. -/
inductive Fetch
  | byte (b : UInt8)
  | lineError
  | empty
  deriving DecidableEq, Repr

/-- How the read loop ends: with a frame, by its deadline, or not yet. -/
inductive FrameRead
  | frame (rxCobs : List UInt8) (rest : List Fetch)
  | timeout (rest : List Fetch)
  | pending
  deriving DecidableEq, Repr

/-- The read loop of `proto_recv`, over the fetches it makes. -/
def readFrame (timeoutMs : ℕ) : List UInt8 → ℕ → List Fetch → FrameRead
  | rxCobs, _, [] => if rxCobs.length < rxCobsSize then .pending else .frame rxCobs []
  | rxCobs, deadline, fetch :: rest =>
      if rxCobs.length < rxCobsSize then
        match fetch with
        | .byte b =>
            if b = 0x00 then
              if rxCobs = [] then readFrame timeoutMs rxCobs deadline rest  -- skip empty frames
              else .frame rxCobs rest
            else readFrame timeoutMs (rxCobs ++ [b]) (timeoutMs * 100) rest
        | .lineError => readFrame timeoutMs [] deadline rest
        | .empty =>
            if deadline = 0 then .timeout rest
            else readFrame timeoutMs rxCobs (deadline - 1) rest
      else .frame rxCobs (fetch :: rest)

/-- What `proto_recv` does with a frame: the command it returns (`0` for a rejected frame),
the data it stores, how many bytes `cobs_decode` wrote to `rx_raw`, and how many bytes were
copied to the caller. -/
structure ProtoRecv where
  cmd : UInt8
  data : List UInt8
  decoded : ℕ
  copied : ℕ

/-- `proto_recv` after its read loop. -/
def protoRecv (rxCobs : List UInt8) (rxRaw : Store UInt8) : ProtoRecv :=
  let dec := Cobs.cobsDecode rxCobs rxRaw
  let rawLen := dec.ret
  if rawLen < 5 then ⟨0, [], dec.out.outIdx, 0⟩
  else
    let payloadLen := rawLen - 4
    let expectedCrc := readLe32 (dec.out.output.load payloadLen 4)
    let actualCrc := crc32 0 (dec.out.output.load 0 payloadLen)
    if actualCrc.toNat ≠ expectedCrc then ⟨0, [], dec.out.outIdx, 0⟩
    else
      let len := payloadLen - 1
      ⟨dec.out.output 0, dec.out.output.load 1 len, dec.out.outIdx, len⟩

/-! ## The frames the read loop hands on -/

/-- An accumulated frame holds non-zero bytes and fits `rx_cobs`. -/
def FrameOk (rxCobs : List UInt8) : Prop :=
  rxCobs.length ≤ rxCobsSize ∧ (0 : UInt8) ∉ rxCobs

lemma FrameOk.snoc {rxCobs : List UInt8} (h : FrameOk rxCobs) (hlt : rxCobs.length < rxCobsSize)
    {b : UInt8} (hb : b ≠ 0) : FrameOk (rxCobs ++ [b]) := by
  refine ⟨by rw [List.length_append]; exact hlt, ?_⟩
  simp only [List.mem_append, List.mem_singleton, not_or]
  exact ⟨h.2, Ne.symm hb⟩

lemma readFrame_spec (timeoutMs : ℕ) (fetches : List Fetch) :
    ∀ (rxCobs : List UInt8) (deadline : ℕ), FrameOk rxCobs →
      ∀ f rest, readFrame timeoutMs rxCobs deadline fetches = .frame f rest →
        FrameOk f ∧ f ≠ [] := by
  induction fetches with
  | nil =>
      intro rxCobs deadline hok f rest h
      simp only [readFrame] at h
      split_ifs at h with hlt
      cases h
      exact ⟨hok, fun hnil => hlt (by simp [hnil, rxCobsSize, maxPayload])⟩
  | cons fetch fetches ih =>
      intro rxCobs deadline hok f rest h
      simp only [readFrame] at h
      by_cases hlt : rxCobs.length < rxCobsSize
      · rw [if_pos hlt] at h
        cases fetch with
        | byte b =>
            by_cases hb : b = 0x00
            · by_cases hnil : rxCobs = []
              · simp only [hb, hnil, if_true] at h
                exact ih _ _ (hnil ▸ hok) _ _ h
              · simp only [hb, hnil, if_true, if_false] at h
                cases h
                exact ⟨hok, hnil⟩
            · simp only [hb, if_false] at h
              exact ih _ _ (hok.snoc hlt hb) _ _ h
        | lineError => exact ih _ _ ⟨by simp [rxCobsSize], by simp⟩ _ _ h
        | empty =>
            by_cases hd : deadline = 0
            · simp [hd] at h
            · simp only [hd, if_false] at h
              exact ih _ _ hok _ _ h
      · rw [if_neg hlt] at h
        cases h
        exact ⟨hok, fun hnil => hlt (by simp [hnil, rxCobsSize, maxPayload])⟩

/-- A full frame buffer ends the read loop without a delimiter. -/
lemma readFrame_bytes (timeoutMs : ℕ) (f : List UInt8) (hf : (0 : UInt8) ∉ f) :
    ∀ (rxCobs : List UInt8) (deadline : ℕ), rxCobs.length + f.length ≤ rxCobsSize →
      ∀ rest, ∃ deadline', readFrame timeoutMs rxCobs deadline (f.map Fetch.byte ++ rest) =
        readFrame timeoutMs (rxCobs ++ f) deadline' rest := by
  induction f with
  | nil =>
      intro rxCobs deadline _ rest
      exact ⟨deadline, by simp⟩
  | cons b f ih =>
      intro rxCobs deadline hlen rest
      obtain ⟨hb, hf⟩ := List.ne_and_not_mem_of_not_mem_cons hf
      rw [List.length_cons] at hlen
      obtain ⟨d, hd⟩ := ih hf (rxCobs ++ [b]) (timeoutMs * 100)
        (by rw [List.length_append, List.length_singleton]; omega) rest
      refine ⟨d, ?_⟩
      rw [List.map_cons, List.cons_append, readFrame, if_pos (by omega), if_neg (Ne.symm hb), hd,
        List.append_assoc, List.singleton_append]

/-! ## How much `cobs_decode` writes -/

/-- The number of full (`0xFF`-coded) blocks of a frame before its last block. -/
def fullBlocks : List UInt8 → ℕ
  | [] => 0
  | code :: rest =>
      if rest.drop (code.toNat - 1) = [] then 0
      else (if code = 0xFF then 1 else 0) + fullBlocks (rest.drop (code.toNat - 1))
termination_by f => f.length
decreasing_by simp only [List.length_drop, List.length_cons]; omega

lemma fullBlocks_of_notMem {f : List UInt8} (h : (0xFF : UInt8) ∉ f) : fullBlocks f = 0 := by
  induction f using fullBlocks.induct with
  | case1 => rw [fullBlocks]
  | case2 code rest hlast => rw [fullBlocks, if_pos hlast]
  | case3 code rest hlast ih =>
      obtain ⟨hcode, hrest⟩ := List.ne_and_not_mem_of_not_mem_cons h
      rw [fullBlocks, if_neg hlast, if_neg (Ne.symm hcode),
        ih (fun hm => hrest (List.mem_of_mem_drop hm))]

lemma cobsCopy_outIdx (input : List UInt8) (n idx : ℕ) (o : Cobs.Out)
    (hidx : idx ≤ input.length) :
    (Cobs.cobsCopy input n idx o).1 = decide (n ≤ input.length - idx) ∧
      (n ≤ input.length - idx → (Cobs.cobsCopy input n idx o).2.1 = idx + n) ∧
      (Cobs.cobsCopy input n idx o).2.2.outIdx = o.outIdx + min n (input.length - idx) := by
  induction n generalizing idx o with
  | zero => simp [Cobs.cobsCopy]
  | succ n ih =>
      rw [Cobs.cobsCopy]
      by_cases hend : input.length ≤ idx
      · rw [if_pos hend]
        refine ⟨?_, ?_, ?_⟩
        · simp only [Bool.false_eq, decide_eq_false_iff_not]
          omega
        · intro h
          omega
        · change o.outIdx = _
          omega
      · rw [if_neg hend]
        obtain ⟨hdone, hidx', hout⟩ := ih (idx + 1) (o.push (input.getD idx 0)) (by omega)
        refine ⟨?_, ?_, ?_⟩
        · rw [hdone, decide_eq_decide]
          omega
        · intro h
          rw [hidx' (by omega)]
          omega
        · rw [hout]
          simp only [Cobs.Out.push]
          omega

lemma cobsDecodeLoop_outIdx (input : List UInt8) (hz : (0 : UInt8) ∉ input) :
    ∀ (fuel idx : ℕ) (o : Cobs.Out), input.length - idx ≤ fuel → idx < input.length →
      (Cobs.cobsDecodeLoop input fuel idx o).out.outIdx + 1 + fullBlocks (input.drop idx) =
        o.outIdx + (input.length - idx) := by
  intro fuel
  induction fuel with
  | zero =>
      intro idx o hfuel hidx
      omega
  | succ fuel ih =>
      intro idx o hfuel hidx
      have hdrop : input.drop idx = input.getD idx 0 :: input.drop (idx + 1) := by
        rw [List.getD_eq_getElem _ _ hidx]
        exact List.drop_eq_getElem_cons hidx
      have hcode : input.getD idx 0 ≠ 0 := by
        intro h
        apply hz
        rw [← h, List.getD_eq_getElem _ _ hidx]
        exact List.getElem_mem hidx
      have hpos : 0 < (input.getD idx 0).toNat := by
        refine Nat.pos_of_ne_zero fun h => hcode ?_
        exact UInt8.toNat_inj.mp h
      generalize hc : input.getD idx 0 = code at *
      obtain ⟨hdone, hidx', hout⟩ := cobsCopy_outIdx input (code.toNat - 1) (idx + 1) o hidx
      rw [hdrop, fullBlocks, List.drop_drop, Cobs.cobsDecodeLoop, if_neg (by omega)]
      simp only [hc, hcode, if_false]
      rcases hrun : Cobs.cobsCopy input (code.toNat - 1) (idx + 1) o with ⟨done, idx', o'⟩
      rw [hrun] at hdone hidx' hout
      simp only at hdone hidx' hout
      by_cases hfit : code.toNat - 1 ≤ input.length - (idx + 1)
      · rw [decide_eq_true hfit] at hdone
        have hi := hidx' hfit
        subst hdone hi
        simp only [List.drop_eq_nil_iff]
        by_cases hlast : input.length ≤ idx + 1 + (code.toNat - 1)
        · -- the last block: nothing follows, so no implicit zero
          have hend : ∀ o : Cobs.Out, (Cobs.cobsDecodeLoop input fuel
              (idx + 1 + (code.toNat - 1)) o).out = o := by
            intro o
            cases fuel with
            | zero => rfl
            | succ fuel => rw [Cobs.cobsDecodeLoop, if_pos hlast]
          rw [if_neg (by omega), if_pos hlast, hend]
          omega
        · rw [if_neg hlast]
          by_cases hff : code = 0xFF
          · have hlt : ¬ code < 0xFF := by simp [hff]
            have h := ih (idx + 1 + (code.toNat - 1)) o' (by omega) (by omega)
            rw [if_neg (fun hh => hlt hh.1), if_pos hff]
            omega
          · have hlt : code < 0xFF := by
              rw [UInt8.lt_iff_toNat_lt]
              have h1 : code.toNat < 256 := UInt8.toNat_lt code
              have h2 : code.toNat ≠ 255 := fun h => hff (UInt8.toNat_inj.mp h)
              change code.toNat < 255
              omega
            have h := ih (idx + 1 + (code.toNat - 1)) (o'.push 0x00) (by omega) (by omega)
            rw [if_pos ⟨hlt, by omega⟩, if_neg hff]
            simp only [Cobs.Out.push] at h ⊢
            omega
      · -- the last block is cut short by the end of the frame
        rw [decide_eq_false hfit] at hdone
        subst hdone
        simp only
        rw [if_pos (List.drop_eq_nil_of_le (by omega))]
        omega

/-- Decoding a non-empty frame of non-zero bytes writes one byte less than the frame has, and
one less again for every full block before the last. -/
lemma cobsDecode_outIdx {f : List UInt8} (hz : (0 : UInt8) ∉ f) (hne : f ≠ [])
    (rxRaw : Store UInt8) :
    (Cobs.cobsDecode f rxRaw).out.outIdx + 1 + fullBlocks f = f.length := by
  have h := cobsDecodeLoop_outIdx f hz f.length 0 ⟨0, rxRaw⟩ (by omega)
    (List.length_pos_of_ne_nil hne)
  simpa [Cobs.cobsDecode] using h

lemma cobsDecodeLoop_ret_le (input : List UInt8) (fuel idx : ℕ) (o : Cobs.Out) :
    (Cobs.cobsDecodeLoop input fuel idx o).ret ≤
      (Cobs.cobsDecodeLoop input fuel idx o).out.outIdx := by
  induction fuel generalizing idx o with
  | zero => exact le_rfl
  | succ fuel ih =>
      rw [Cobs.cobsDecodeLoop]
      by_cases hend : input.length ≤ idx
      · rw [if_pos hend]
      · rw [if_neg hend]
        by_cases hzero : input.getD idx 0 = 0
        · simp only [hzero, if_true, Nat.zero_le]
        · simp only [hzero, if_false]
          rcases Cobs.cobsCopy input ((input.getD idx 0).toNat - 1) (idx + 1) o with
            ⟨_ | _, idx', o'⟩
          · exact Nat.zero_le _
          · exact ih _ _

/-- The caller receives less than what was decoded. -/
lemma protoRecv_copied_le (f : List UInt8) (rxRaw : Store UInt8) :
    (protoRecv f rxRaw).copied ≤ (protoRecv f rxRaw).decoded := by
  have hret := cobsDecodeLoop_ret_le f f.length 0 ⟨0, rxRaw⟩
  unfold protoRecv
  simp only
  split_ifs
  · exact Nat.zero_le _
  · exact Nat.zero_le _
  · simp only [Cobs.cobsDecode]
    omega

lemma protoRecv_decoded (f : List UInt8) (rxRaw : Store UInt8) :
    (protoRecv f rxRaw).decoded = (Cobs.cobsDecode f rxRaw).out.outIdx := by
  unfold protoRecv
  simp only
  split_ifs <;> rfl

/-! ## What the host sends is received -/

/-- The device accepts every frame the host builds and returns its contents. -/
theorem protoRecv_frameOf (cmd : UInt8) (data : List UInt8) (rxRaw : Store UInt8) :
    (protoRecv (frameOf cmd data) rxRaw).cmd = cmd ∧
      (protoRecv (frameOf cmd data) rxRaw).data = data := by
  have hspec := Cobs.cobsDecode_spec (frameOf cmd data) rxRaw
  rw [show Cobs.decode (frameOf cmd data) = _ from Cobs.decode_encode _] at hspec
  obtain ⟨hret, hbytes⟩ := hspec
  generalize hdec : Cobs.cobsDecode (frameOf cmd data) rxRaw = dec at hret hbytes
  have hlt : (zlibCrc32 (cmd :: data)).toNat < 2 ^ 32 := BitVec.isLt _
  have hout : dec.out.outIdx = (1 + data.length) + 4 := by
    rw [← dec.out.length_bytes, hbytes]
    simp [Nat.add_comm, Nat.add_left_comm]
  have hraw : dec.ret = (1 + data.length) + 4 := by
    rw [hret]
    simp [Nat.add_comm, Nat.add_left_comm]
  -- the decoded buffer, cut at the checksum and after the command byte
  rw [Cobs.Out.bytes, hout, Store.load_add] at hbytes
  obtain ⟨hpay, hcrc⟩ := List.append_inj hbytes (by simp [Nat.add_comm])
  rw [Nat.zero_add] at hcrc
  have hhead := hpay
  rw [Store.load_add, Store.load_one] at hhead
  obtain ⟨hcmd, hdata⟩ := List.cons.inj hhead
  unfold protoRecv
  simp only [hdec, hraw, Nat.add_sub_cancel, hpay, hcrc, crc32_zero, readLe32_packU32,
    Nat.mod_eq_of_lt hlt, ne_eq, not_true_eq_false, if_false]
  rw [if_neg (by omega)]
  refine ⟨hcmd, ?_⟩
  rw [Nat.add_sub_cancel_left]
  simpa using hdata

end Defib
