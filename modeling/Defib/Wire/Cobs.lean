import Defib.Framework.Store
import Defib.Framework.Stuffing
import Mathlib.Data.UInt

/-!
# The two COBS codecs

The host's Python codec (`src/defib/agent/cobs.py`) and the device's C codec
(`agent/cobs.c`), each transcribed from its own source.

The Python encoder appends a placeholder and patches it once the block's code is known; the
C encoder reserves an index and writes it later, into a buffer whose old contents show
through until then.  Both are the block stuffing of `Framework/Stuffing.lean` with symbol `0`
and capacity `254`: `encode_eq_wire` and `cobsEncode_spec` say so, and everything about
encoding is read off there.

The decoders are compared directly, on arbitrary input: `cobsDecode_spec` runs them in
lockstep.  They agree on every byte string, and the C decoder's error value `0` appears
exactly when the Python one raises (or returns the empty string).
-/

namespace Defib.Cobs

open Stuffing

/-! ## `cobs.py` -/

/-- Loop state of `encode`: the output so far, the index of the pending code byte, and the
code it will receive. -/
structure EncodeState where
  output : List UInt8
  codeIdx : ℕ
  code : ℕ

/-- `output[code_idx] = code`, then a fresh placeholder. -/
def EncodeState.close (st : EncodeState) : EncodeState where
  output := st.output.set st.codeIdx (UInt8.ofNat st.code) ++ [0]
  codeIdx := st.output.length
  code := 1

/-- One iteration of the loop over `data`. -/
def encodeStep (st : EncodeState) (byte : UInt8) : EncodeState :=
  if byte = 0x00 then
    st.close
  else
    let st := { st with output := st.output ++ [byte], code := st.code + 1 }
    if st.code = 0xFF then st.close else st

/-- `cobs.encode`. -/
def encode (data : List UInt8) : List UInt8 :=
  let st := data.foldl encodeStep ⟨[0], 0, 1⟩
  st.output.set st.codeIdx (UInt8.ofNat st.code)

/-- The `for _ in range(code - 1)` loop of `decode`. -/
def copyRun (data : List UInt8) : ℕ → ℕ → List UInt8 → Except String (ℕ × List UInt8)
  | 0, idx, output => .ok (idx, output)
  | n + 1, idx, output =>
      match data[idx]? with
      | none => .error "COBS decode: truncated data"
      | some byte => copyRun data n (idx + 1) (output ++ [byte])

/-- The `while idx < len(data)` loop of `decode`.  Every iteration consumes a byte, so
`len(data)` iterations are enough. -/
def decodeLoop (data : List UInt8) : ℕ → ℕ → List UInt8 → Except String (List UInt8)
  | 0, _, output => .ok output
  | fuel + 1, idx, output =>
      match data[idx]? with
      | none => .ok output
      | some code =>
          if code = 0 then .error "Unexpected zero in COBS-encoded data"
          else
            match copyRun data (code.toNat - 1) (idx + 1) output with
            | .error e => .error e
            | .ok (idx, output) =>
                decodeLoop data fuel idx
                  (if code < 0xFF ∧ idx < data.length then output ++ [0x00] else output)

/-- `cobs.decode`. -/
def decode (data : List UInt8) : Except String (List UInt8) :=
  decodeLoop data data.length 0 []

/-! ## `cobs.c` -/

/-- The output side of the C codec: the next index, and the buffer behind the pointer. -/
structure Out where
  outIdx : ℕ
  output : Store UInt8

/-- `output[out_idx++] = b`. -/
def Out.push (o : Out) (b : UInt8) : Out := ⟨o.outIdx + 1, o.output.write o.outIdx [b]⟩

/-- Loop state of `cobs_encode`. -/
structure CobsEncodeState extends Out where
  codeIdx : ℕ
  code : ℕ

/-- `output[code_idx] = code; code_idx = out_idx++; code = 1`. -/
def CobsEncodeState.close (st : CobsEncodeState) : CobsEncodeState where
  output := st.output.write st.codeIdx [UInt8.ofNat st.code]
  codeIdx := st.outIdx
  outIdx := st.outIdx + 1
  code := 1

/-- One iteration of the loop over `input`. -/
def cobsEncodeStep (st : CobsEncodeState) (byte : UInt8) : CobsEncodeState :=
  if byte = 0x00 then
    st.close
  else
    let st : CobsEncodeState := { toOut := st.toOut.push byte, codeIdx := st.codeIdx,
                                  code := st.code + 1 }
    if st.code = 0xFF then st.close else st

/-- `cobs_encode`: the returned length and the buffer it leaves. -/
def cobsEncode (input : List UInt8) (output : Store UInt8) : Out :=
  let st := input.foldl cobsEncodeStep ⟨⟨1, output⟩, 0, 1⟩
  ⟨st.outIdx, st.output.write st.codeIdx [UInt8.ofNat st.code]⟩

/-- The inner loop of `cobs_decode`; `false` is the truncated exit. -/
def cobsCopy (input : List UInt8) : ℕ → ℕ → Out → Bool × ℕ × Out
  | 0, idx, o => (true, idx, o)
  | n + 1, idx, o =>
      if input.length ≤ idx then (false, idx, o)
      else cobsCopy input n (idx + 1) (o.push (input.getD idx 0))

/-- What `cobs_decode` returns, and the output side it leaves behind: `out.outIdx` bytes have
been written, whatever the returned length says. -/
structure Decoded where
  ret : ℕ
  out : Out

/-- The outer loop of `cobs_decode`. -/
def cobsDecodeLoop (input : List UInt8) : ℕ → ℕ → Out → Decoded
  | 0, _, o => ⟨o.outIdx, o⟩
  | fuel + 1, idx, o =>
      if input.length ≤ idx then ⟨o.outIdx, o⟩
      else
        let code := input.getD idx 0
        if code = 0 then ⟨0, o⟩
        else
          match cobsCopy input (code.toNat - 1) (idx + 1) o with
          | (false, _, o) => ⟨0, o⟩
          | (true, idx, o) =>
              cobsDecodeLoop input fuel idx
                (if code < 0xFF ∧ idx < input.length then o.push 0x00 else o)

/-- `cobs_decode`. -/
def cobsDecode (input : List UInt8) (output : Store UInt8) : Decoded :=
  cobsDecodeLoop input input.length 0 ⟨0, output⟩

/-! ## Encoding is block stuffing -/

/-- The length code of a block. -/
def blockCode (n : ℕ) : UInt8 := UInt8.ofNat n

/-- The blocks of a byte string. -/
abbrev blocks (data : List UInt8) : List (List UInt8) := split 0 254 data

/-- The Python encoder's state after some blocks are closed and one is open. -/
structure EncodeInv (st : EncodeState) (bs : List (List UInt8) × List UInt8) : Prop where
  output : ∃ p, st.output = wire blockCode bs.1 ++ p :: bs.2
  codeIdx : st.codeIdx = (wire blockCode bs.1).length
  code : st.code = bs.2.length + 1

lemma EncodeInv.patched {st : EncodeState} {bs : List (List UInt8) × List UInt8}
    (h : EncodeInv st bs) :
    st.output.set st.codeIdx (UInt8.ofNat st.code) = wire blockCode (bs.1 ++ [bs.2]) := by
  obtain ⟨⟨p, ho⟩, hi, hc⟩ := h
  rw [ho, hi, hc, List.set_append_right _ _ le_rfl]
  simp [wire, blockCode]

lemma EncodeInv.close {st : EncodeState} {bs : List (List UInt8) × List UInt8}
    (h : EncodeInv st bs) : EncodeInv st.close (bs.1 ++ [bs.2], []) := by
  have hp := h.patched
  refine ⟨⟨0, ?_⟩, ?_, rfl⟩
  · simp only [EncodeState.close, hp]
  · rw [← hp]
    simp [EncodeState.close]

lemma EncodeInv.step {st : EncodeState} {bs : List (List UInt8) × List UInt8}
    (h : EncodeInv st bs) (byte : UInt8) :
    EncodeInv (encodeStep st byte) (splitStep 0 254 bs byte) := by
  unfold encodeStep splitStep
  by_cases hb : byte = 0
  · rw [if_pos hb, if_pos hb]
    exact h.close
  · rw [if_neg hb, if_neg hb]
    have hpush : EncodeInv { st with output := st.output ++ [byte], code := st.code + 1 }
        (bs.1, bs.2 ++ [byte]) := by
      obtain ⟨⟨p, ho⟩, hi, hc⟩ := h
      exact ⟨⟨p, by simp [ho]⟩, hi, by simp [hc]⟩
    have hcode := h.code
    by_cases hfull : bs.2.length + 1 = 254
    · rw [if_pos hfull, if_pos (show st.code + 1 = 0xFF by omega)]
      exact hpush.close
    · rw [if_neg hfull, if_neg (show ¬ st.code + 1 = 0xFF by omega)]
      exact hpush

lemma encodeInv_foldl (data : List UInt8) :
    EncodeInv (data.foldl encodeStep ⟨[0], 0, 1⟩) (splitFrom 0 254 ([], []) data) := by
  induction data using List.reverseRecOn with
  | nil => exact ⟨⟨0, rfl⟩, rfl, rfl⟩
  | append_singleton data byte ih =>
      simpa [splitFrom] using ih.step byte

lemma encode_eq_wire (data : List UInt8) : encode data = wire blockCode (blocks data) :=
  (encodeInv_foldl data).patched

/-- The C encoder's state: the closed blocks and the open one stand in the buffer, around the
reserved index. -/
structure CobsEncodeInv (st : CobsEncodeState) (bs : List (List UInt8) × List UInt8) : Prop where
  closed : st.output.load 0 st.codeIdx = wire blockCode bs.1
  opened : st.output.load (st.codeIdx + 1) bs.2.length = bs.2
  outIdx : st.outIdx = st.codeIdx + 1 + bs.2.length
  code : st.code = bs.2.length + 1

lemma CobsEncodeInv.patched {st : CobsEncodeState} {bs : List (List UInt8) × List UInt8}
    (h : CobsEncodeInv st bs) :
    (st.output.write st.codeIdx [UInt8.ofNat st.code]).load 0 st.outIdx =
      wire blockCode (bs.1 ++ [bs.2]) := by
  obtain ⟨hc, ho, hi, hcode⟩ := h
  have hmid : (st.output.write st.codeIdx [UInt8.ofNat st.code]).load st.codeIdx 1 =
      [UInt8.ofNat st.code] := Store.load_write_self st.output st.codeIdx _
  rw [hi, Nat.add_assoc, Store.load_add, Store.load_add,
    Store.load_write_of_disjoint _ (Or.inl (by omega)), hc, Nat.zero_add, hmid,
    Store.load_write_of_disjoint _ (Or.inr (by simp)), ho, hcode]
  simp [wire, blockCode]

lemma CobsEncodeInv.close {st : CobsEncodeState} {bs : List (List UInt8) × List UInt8}
    (h : CobsEncodeInv st bs) : CobsEncodeInv st.close (bs.1 ++ [bs.2], []) :=
  ⟨h.patched, rfl, rfl, rfl⟩

lemma CobsEncodeInv.push {st : CobsEncodeState} {bs : List (List UInt8) × List UInt8}
    (h : CobsEncodeInv st bs) (byte : UInt8) :
    CobsEncodeInv { toOut := st.toOut.push byte, codeIdx := st.codeIdx, code := st.code + 1 }
      (bs.1, bs.2 ++ [byte]) := by
  obtain ⟨hc, ho, hi, hcode⟩ := h
  refine ⟨?_, ?_, ?_, by simp [hcode]⟩
  · simp only [Out.push]
    rw [Store.load_write_of_disjoint _ (Or.inl (by omega)), hc]
  · simp only [Out.push, List.length_append, List.length_singleton]
    rw [Store.load_add, Store.load_write_of_disjoint _ (Or.inl (by omega)), ho, ← hi]
    exact congrArg _ (Store.load_write_self st.output st.outIdx [byte])
  · simp only [Out.push, List.length_append, List.length_singleton]
    omega

lemma CobsEncodeInv.step {st : CobsEncodeState} {bs : List (List UInt8) × List UInt8}
    (h : CobsEncodeInv st bs) (byte : UInt8) :
    CobsEncodeInv (cobsEncodeStep st byte) (splitStep 0 254 bs byte) := by
  have hcode := h.code
  unfold cobsEncodeStep splitStep
  by_cases hb : byte = 0
  · rw [if_pos hb, if_pos hb]
    exact h.close
  · rw [if_neg hb, if_neg hb]
    by_cases hfull : bs.2.length + 1 = 254
    · rw [if_pos hfull, if_pos (show st.code + 1 = 0xFF by omega)]
      exact (h.push byte).close
    · rw [if_neg hfull, if_neg (show ¬ st.code + 1 = 0xFF by omega)]
      exact h.push byte

lemma cobsEncodeInv_foldl (input : List UInt8) (output : Store UInt8) :
    CobsEncodeInv (input.foldl cobsEncodeStep ⟨⟨1, output⟩, 0, 1⟩)
      (splitFrom 0 254 ([], []) input) := by
  induction input using List.reverseRecOn with
  | nil => exact ⟨rfl, rfl, rfl, rfl⟩
  | append_singleton input byte ih =>
      simpa [splitFrom] using ih.step byte

/-- `cobs_encode` writes `cobs.encode`, whatever the buffer held before. -/
lemma cobsEncode_spec (input : List UInt8) (output : Store UInt8) :
    (cobsEncode input output).output.load 0 (cobsEncode input output).outIdx = encode input := by
  rw [encode_eq_wire]
  exact (cobsEncodeInv_foldl input output).patched

/-! ## Decoding undoes encoding -/

lemma blockCode_toNat {n : ℕ} (hn : n ≤ 255) : (blockCode n).toNat = n := by
  rw [blockCode, UInt8.toNat_ofNat_of_lt' (show n < 256 by omega)]

lemma blockCode_ne_zero {n : ℕ} (hn : n < 255) : blockCode (n + 1) ≠ 0 := by
  intro h
  have := congrArg UInt8.toNat h
  rw [blockCode_toNat (by omega)] at this
  simp at this

lemma blockCode_lt_iff {n : ℕ} (hn : n ≤ 254) : blockCode (n + 1) < 0xFF ↔ n ≠ 254 := by
  rw [UInt8.lt_iff_toNat_lt, blockCode_toNat (by omega)]
  change n + 1 < 255 ↔ _
  omega

/-- The encoding contains no zero byte. -/
lemma zero_notMem_encode (data : List UInt8) : (0 : UInt8) ∉ encode data := by
  rw [encode_eq_wire]
  intro h
  obtain ⟨b, hb, h⟩ := List.mem_flatMap.mp h
  obtain ⟨hfree, hlen⟩ := split_spec 0 254 (by decide) data b hb
  rcases List.mem_cons.mp h with h | h
  · exact blockCode_ne_zero (by omega) h.symm
  · exact hfree h

lemma length_encode_le (data : List UInt8) :
    (encode data).length ≤ data.length + 1 + data.length / 254 := by
  rw [encode_eq_wire]
  exact length_wire_split_le 0 254 (by decide) blockCode data

lemma copyRun_run (pre run rest output : List UInt8) :
    copyRun (pre ++ run ++ rest) run.length pre.length output =
      .ok (pre.length + run.length, output ++ run) := by
  induction run generalizing pre output with
  | nil => simp [copyRun]
  | cons b run ih =>
      have hget : (pre ++ b :: run ++ rest)[pre.length]? = some b := by simp
      have hih := ih (pre ++ [b]) (output ++ [b])
      simp only [List.append_assoc, List.length_append, List.length_singleton,
        List.cons_append, List.nil_append] at hih hget ⊢
      simp only [List.length_cons, copyRun, hget]
      rw [hih, Nat.add_assoc, Nat.add_comm 1]

lemma decodeLoop_wire (bs : List (List UInt8)) (hbs : ∀ b ∈ bs, b.length ≤ 254) :
    ∀ (fuel : ℕ) (pre output : List UInt8), bs.length ≤ fuel →
      decodeLoop (pre ++ wire blockCode bs) fuel pre.length output =
        .ok (output ++ join 0 254 bs) := by
  induction bs with
  | nil =>
      intro fuel pre output _
      cases fuel <;> simp [decodeLoop, wire, join]
  | cons b bs ih =>
      intro fuel pre output hfuel
      obtain ⟨fuel, rfl⟩ : ∃ k, fuel = k + 1 := ⟨fuel - 1, by simp at hfuel; omega⟩
      have hb : b.length ≤ 254 := hbs b (List.mem_cons_self ..)
      have hdata : pre ++ wire blockCode (b :: bs) =
          (pre ++ [blockCode (b.length + 1)]) ++ b ++ wire blockCode bs := by
        simp [wire]
      have hcopy := copyRun_run (pre ++ [blockCode (b.length + 1)]) b (wire blockCode bs) output
      have hget : (pre ++ [blockCode (b.length + 1)] ++ b ++ wire blockCode bs)[pre.length]? =
          some (blockCode (b.length + 1)) := by simp
      rw [List.length_append, List.length_singleton] at hcopy
      rw [hdata, decodeLoop]
      simp only [hget, if_neg (blockCode_ne_zero (show b.length < 255 by omega)),
        blockCode_toNat (show b.length + 1 ≤ 255 by omega), Nat.add_sub_cancel, hcopy,
        blockCode_lt_iff hb]
      have hih := ih (fun c hc => hbs c (List.mem_cons_of_mem _ hc)) fuel
        (pre ++ [blockCode (b.length + 1)] ++ b)
      rw [show pre.length + 1 + b.length
        = (pre ++ [blockCode (b.length + 1)] ++ b).length by simp; omega,
        hih _ (by simp at hfuel; omega)]
      -- the implicit zero is put back exactly when a further block follows
      cases bs with
      | nil => simp [wire, join]
      | cons c cs =>
          have hlt : (pre ++ [blockCode (b.length + 1)] ++ b).length <
              (pre ++ [blockCode (b.length + 1)] ++ b ++ wire blockCode (c :: cs)).length := by
            simp [wire]
          by_cases hfull : b.length = 254
          · simp [hfull, join, gap]
          · rw [if_pos ⟨hfull, hlt⟩]
            simp [join, gap, hfull]

lemma length_le_length_wire (bs : List (List UInt8)) :
    bs.length ≤ (wire blockCode bs).length := by
  induction bs with
  | nil => simp
  | cons b bs ih =>
      simp only [wire, List.flatMap_cons, List.length_append, List.length_cons] at ih ⊢
      omega

/-- **Round trip.** -/
lemma decode_encode (data : List UInt8) : decode (encode data) = .ok data := by
  have hspec := split_spec (0 : UInt8) 254 (by decide) data
  have h := decodeLoop_wire (blocks data) (fun b hb => (hspec b hb).2)
    (wire blockCode (blocks data)).length [] [] (length_le_length_wire _)
  rw [List.nil_append, List.nil_append, join_split 0 254 (by decide)] at h
  rw [encode_eq_wire]
  exact h

/-! ## Decoding never grows -/

lemma copyRun_length (data : List UInt8) (n idx : ℕ) (output : List UInt8) {idx' : ℕ}
    {output' : List UInt8} (h : copyRun data n idx output = .ok (idx', output')) :
    idx' = idx + n ∧ output'.length = output.length + n := by
  induction n generalizing idx output with
  | zero =>
      cases h
      exact ⟨rfl, rfl⟩
  | succ n ih =>
      rw [copyRun] at h
      cases hget : data[idx]? with
      | none => simp [hget] at h
      | some byte =>
          simp only [hget] at h
          obtain ⟨hi, ho⟩ := ih _ _ h
          rw [List.length_append, List.length_singleton] at ho
          exact ⟨by omega, by omega⟩

lemma copyRun_idx_le (data : List UInt8) (n idx : ℕ) (output : List UInt8) {idx' : ℕ}
    {output' : List UInt8} (hidx : idx ≤ data.length)
    (h : copyRun data n idx output = .ok (idx', output')) : idx' ≤ data.length := by
  induction n generalizing idx output with
  | zero =>
      cases h
      exact hidx
  | succ n ih =>
      rw [copyRun] at h
      cases hget : data[idx]? with
      | none => simp [hget] at h
      | some byte =>
          simp only [hget] at h
          have hlt : idx < data.length := (List.getElem?_eq_some_iff.mp hget).1
          exact ih _ _ hlt h

lemma decodeLoop_length_le (data : List UInt8) (fuel idx : ℕ) (output : List UInt8)
    {output' : List UInt8} (hidx : idx ≤ data.length) (hout : output.length ≤ idx)
    (h : decodeLoop data fuel idx output = .ok output') : output'.length ≤ data.length := by
  induction fuel generalizing idx output with
  | zero =>
      cases h
      omega
  | succ fuel ih =>
      rw [decodeLoop] at h
      cases hget : data[idx]? with
      | none =>
          simp only [hget] at h
          cases h
          omega
      | some code =>
          simp only [hget] at h
          have hlt : idx < data.length := (List.getElem?_eq_some_iff.mp hget).1
          by_cases hzero : code = 0
          · simp [hzero] at h
          · simp only [hzero, if_false] at h
            cases hrun : copyRun data (code.toNat - 1) (idx + 1) output with
            | error e => simp [hrun] at h
            | ok r =>
                obtain ⟨idx', out⟩ := r
                simp only [hrun] at h
                obtain ⟨hi, ho⟩ := copyRun_length data _ _ _ hrun
                refine ih _ _ (copyRun_idx_le data _ _ _ hlt hrun) ?_ h
                split_ifs
                · rw [List.length_append, List.length_singleton]
                  omega
                · omega

lemma length_le_of_decode {data output : List UInt8} (h : decode data = .ok output) :
    output.length ≤ data.length :=
  decodeLoop_length_le data data.length 0 [] (Nat.zero_le _) le_rfl h

/-! ## The two decoders in lockstep -/

/-- The bytes the C codec has written. -/
def Out.bytes (o : Out) : List UInt8 := o.output.load 0 o.outIdx

lemma Out.length_bytes (o : Out) : o.bytes.length = o.outIdx := Store.length_load ..

lemma Out.bytes_push (o : Out) (b : UInt8) : (o.push b).bytes = o.bytes ++ [b] := by
  simp only [Out.bytes, Out.push]
  rw [Store.load_add, Store.load_write_of_disjoint _ (Or.inl (by omega)), Nat.zero_add]
  exact congrArg _ (Store.load_write_self o.output o.outIdx [b])

lemma cobsCopy_spec (data : List UInt8) (n idx : ℕ) (o : Out) :
    match copyRun data n idx o.bytes with
    | .ok (idx', output) => ∃ o', cobsCopy data n idx o = (true, idx', o') ∧ o'.bytes = output
    | .error _ => (cobsCopy data n idx o).1 = false := by
  induction n generalizing idx o with
  | zero => exact ⟨o, rfl, rfl⟩
  | succ n ih =>
      by_cases hidx : data.length ≤ idx
      · simp [copyRun, cobsCopy, hidx]
      · have hget : data[idx]? = some (data.getD idx 0) := by
          simp [List.getD_eq_getElem?_getD, Nat.lt_of_not_le hidx]
        have h := ih (idx + 1) (o.push (data.getD idx 0))
        rw [Out.bytes_push] at h
        simp only [copyRun, hget, cobsCopy, hidx, if_false]
        exact h

lemma cobsDecodeLoop_spec (data : List UInt8) (fuel idx : ℕ) (o : Out) :
    match decodeLoop data fuel idx o.bytes with
    | .ok output => (cobsDecodeLoop data fuel idx o).ret = output.length ∧
        (cobsDecodeLoop data fuel idx o).out.bytes = output
    | .error _ => (cobsDecodeLoop data fuel idx o).ret = 0 := by
  induction fuel generalizing idx o with
  | zero => exact ⟨o.length_bytes.symm, rfl⟩
  | succ fuel ih =>
      by_cases hidx : data.length ≤ idx
      · simp [decodeLoop, cobsDecodeLoop, hidx, Out.length_bytes]
      · have hget : data[idx]? = some (data.getD idx 0) := by
          simp [List.getD_eq_getElem?_getD, Nat.lt_of_not_le hidx]
        simp only [decodeLoop, cobsDecodeLoop, hget, hidx, if_false]
        by_cases hzero : data.getD idx 0 = 0
        · simp only [hzero, if_true]
        · simp only [hzero, if_false]
          have hcopy := cobsCopy_spec data ((data.getD idx 0).toNat - 1) (idx + 1) o
          cases hrun : copyRun data ((data.getD idx 0).toNat - 1) (idx + 1) o.bytes with
          | error e =>
              rw [hrun] at hcopy
              rcases hc : cobsCopy data ((data.getD idx 0).toNat - 1) (idx + 1) o with
                ⟨done, idx', o'⟩
              rw [hc] at hcopy
              simp only at hcopy
              simp only [hcopy]
          | ok r =>
              obtain ⟨idx', output⟩ := r
              rw [hrun] at hcopy
              obtain ⟨o', hc, rfl⟩ := hcopy
              rw [hc]
              simp only
              by_cases hgap : data.getD idx 0 < 0xFF ∧ idx' < data.length
              · simp only [hgap, and_self, if_true]
                have h := ih idx' (o'.push 0x00)
                rwa [Out.bytes_push] at h
              · simp only [hgap, if_false]
                exact ih idx' o'

/-- `cobs_decode` returns what `cobs.decode` returns, and length `0` when that raises. -/
lemma cobsDecode_spec (data : List UInt8) (buf : Store UInt8) :
    match decode data with
    | .ok output => (cobsDecode data buf).ret = output.length ∧
        (cobsDecode data buf).out.bytes = output
    | .error _ => (cobsDecode data buf).ret = 0 :=
  cobsDecodeLoop_spec data data.length 0 ⟨0, buf⟩

end Defib.Cobs
