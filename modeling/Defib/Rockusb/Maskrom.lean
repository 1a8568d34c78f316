import Defib.Net.Tftp
import Defib.Rockusb.Codec

/-!
# The MaskROM uploads

`build_maskrom_chunks` of `rockusb/maskrom.py`: the payloads of the control transfers that carry a
blob to the boot ROM.  A byte is added where the CRC would not end up in one chunk, and a chunk
where the last one would be full.

`maskrom_chunks_carry_blob` says what the boot ROM can rely on, for every length: the payloads are
full up to the last one, the last one is short, the CRC lies in one of them, and what they carry is
the blob, which RC4 gives back.
-/

namespace Defib

namespace Rockusb

/-- `CHUNK_SIZE`. -/
def chunkSize : ℕ := 4096

lemma chunkSize_pos : 0 < chunkSize := by decide

/-- `needs_terminator`. -/
def needsTerminator (blob : List UInt8) : Bool := blob.length % chunkSize = chunkSize - 2

/-- The blob, with a zero behind it if its CRC would lie in two chunks. -/
def paddedBlob (blob : List UInt8) : List UInt8 :=
  if blob.length % chunkSize = chunkSize - 1 then blob ++ [0x00] else blob

/-- The payload, before the CRC is appended to it. -/
def encodedBlob (blob : List UInt8) (useRc4 : Bool) : List UInt8 :=
  if useRc4 then rc4 (paddedBlob blob) rkRc4Key else paddedBlob blob

/-- `build_maskrom_chunks`. -/
def buildMaskromChunks (blob : List UInt8) (useRc4 : Bool) : List (List UInt8) :=
  let payload := encodedBlob blob useRc4
  let payload := payload ++ packBe16 (rkCrc16 payload crc16Init)
  let chunks := chunkData payload chunkSize
  if needsTerminator blob then chunks ++ [[0x00]] else chunks

/-! ## Chunks -/

/-- The last chunk is what is left behind full ones. -/
lemma chunkData_concat {size k : ℕ} {front rest : List UInt8} (h : 0 < size)
    (hfront : front.length = size * k) (hpos : 0 < rest.length) (hrest : rest.length ≤ size) :
    chunkData (front ++ rest) size = chunkData front size ++ [rest] := by
  induction k generalizing front with
  | zero =>
      obtain rfl : front = [] := List.length_eq_zero_iff.mp (by rw [hfront, mul_zero])
      rw [List.nil_append, chunkData_of_pos h hpos, List.take_of_length_le hrest,
        List.drop_of_length_le hrest, chunkData_nil size h, List.nil_append]
  | succ k ih =>
      have hlen : size ≤ front.length := by rw [hfront, mul_add, mul_one]; exact Nat.le_add_left _ _
      have htail : (front.drop size).length = size * k := by
        rw [List.length_drop, hfront, mul_add, mul_one, Nat.add_sub_cancel]
      rw [chunkData_of_pos h (by rw [List.length_append]; omega),
        @chunkData_of_pos front size h (by omega), List.take_append_of_le_length hlen,
        List.drop_append_of_le_length hlen, ih htail, List.cons_append]

lemma length_of_mem_chunkData {size k : ℕ} {data : List UInt8} (h : 0 < size)
    (hdata : data.length = size * k) : ∀ c ∈ chunkData data size, c.length = size := by
  induction k generalizing data with
  | zero =>
      obtain rfl : data = [] := List.length_eq_zero_iff.mp (by rw [hdata, mul_zero])
      rw [chunkData_nil size h]
      exact fun c hc => absurd hc List.not_mem_nil
  | succ k ih =>
      have hlen : size ≤ data.length := by rw [hdata, mul_add, mul_one]; exact Nat.le_add_left _ _
      have htail : (data.drop size).length = size * k := by
        rw [List.length_drop, hdata, mul_add, mul_one, Nat.add_sub_cancel]
      rw [chunkData_of_pos h (by omega)]
      intro c hc
      rcases List.mem_cons.mp hc with rfl | hc
      · rw [List.length_take, Nat.min_eq_left hlen]
      · exact ih htail c hc

/-! ## The payload -/

/-- The CRC of a padded blob does not start at the last place of a chunk. -/
lemma length_encodedBlob_mod (blob : List UInt8) (useRc4 : Bool) :
    (encodedBlob blob useRc4).length % chunkSize =
      if blob.length % chunkSize = chunkSize - 1 then 0 else blob.length % chunkSize := by
  have hbody : (encodedBlob blob useRc4).length = (paddedBlob blob).length := by
    rw [encodedBlob]
    split
    · exact length_rc4 _ _
    · rfl
  rw [hbody, paddedBlob, chunkSize]
  split_ifs with h
  · rw [List.length_append, List.length_singleton]
    omega
  · rfl

/-- **The chunks of a payload** whose CRC does not start at the last place of a chunk. -/
lemma chunkData_payload {p : List UInt8} (h : p.length % chunkSize ≠ chunkSize - 1) :
    chunkData (p ++ packBe16 (rkCrc16 p crc16Init)) chunkSize =
      chunkData (p.take (chunkSize * (p.length / chunkSize))) chunkSize ++
        [p.drop (chunkSize * (p.length / chunkSize)) ++ packBe16 (rkCrc16 p crc16Init)] := by
  have hdiv := Nat.div_add_mod p.length chunkSize
  have hmod := Nat.mod_lt p.length chunkSize_pos
  have hfront : (p.take (chunkSize * (p.length / chunkSize))).length =
      chunkSize * (p.length / chunkSize) := by
    rw [List.length_take]
    omega
  have hrest : (p.drop (chunkSize * (p.length / chunkSize)) ++
      packBe16 (rkCrc16 p crc16Init)).length = p.length % chunkSize + 2 := by
    rw [List.length_append, List.length_drop, packBe16, List.length_cons, List.length_singleton]
    omega
  rw [← chunkData_concat chunkSize_pos hfront (by omega)
      (by rw [hrest]; rw [chunkSize] at *; omega), ← List.append_assoc, List.take_append_drop]

/-! ## The transfer -/

/-- What the boot ROM can rely on when it is sent `chunks` for a payload `p`. -/
structure Carries (chunks : List (List UInt8)) (terminator : List (List UInt8))
    (p : List UInt8) : Prop where
  sizes : ∀ c ∈ chunks, 1 ≤ c.length ∧ c.length ≤ 4096
  full : ∀ c ∈ chunks.dropLast, c.length = 4096
  short : ∃ c, chunks.getLast? = some c ∧ c.length < 4096
  crc : ∃ before front,
    chunks = before ++ [front ++ packBe16 (rkCrc16 p 0xFFFF)] ++ terminator
  content : ∃ before, chunks = before ++ terminator ∧
    before.flatten = p ++ packBe16 (rkCrc16 p 0xFFFF)

/-- Full chunks, one with the CRC, and a terminator if that one is full as well. -/
lemma carries_of_chunks {before terminator : List (List UInt8)} {front p : List UInt8}
    (hbefore : ∀ c ∈ before, c.length = 4096) (hflatten : before.flatten ++ front = p)
    (hfront : front.length + 2 ≤ 4096)
    (hterminator : terminator = if front.length + 2 = 4096 then [[0x00]] else []) :
    Carries (before ++ [front ++ packBe16 (rkCrc16 p 0xFFFF)] ++ terminator) terminator p := by
  have hcrc : (front ++ packBe16 (rkCrc16 p 0xFFFF)).length = front.length + 2 := by
    rw [List.length_append, packBe16, List.length_cons, List.length_singleton]
  have hcontent : (before ++ [front ++ packBe16 (rkCrc16 p 0xFFFF)]).flatten =
      p ++ packBe16 (rkCrc16 p 0xFFFF) := by
    rw [List.flatten_append, List.flatten_singleton, ← List.append_assoc, hflatten]
  by_cases hlast : front.length + 2 = 4096
  · rw [if_pos hlast] at hterminator
    subst hterminator
    refine ⟨fun c hc => ?_, fun c hc => ?_, ⟨[0x00], ?_, by decide⟩, ⟨before, front, rfl⟩,
      ⟨_, rfl, hcontent⟩⟩
    · simp only [List.mem_append, List.mem_singleton] at hc
      rcases hc with (hc | rfl) | rfl
      · rw [hbefore c hc]
        decide
      · omega
      · decide
    · rw [List.dropLast_concat, List.mem_append, List.mem_singleton] at hc
      rcases hc with hc | rfl
      · exact hbefore c hc
      · omega
    · rw [List.getLast?_append, List.getLast?_singleton]
      rfl
  · rw [if_neg hlast] at hterminator
    subst hterminator
    rw [List.append_nil]
    refine ⟨fun c hc => ?_, fun c hc => ?_, ⟨_, List.getLast?_concat, by omega⟩,
      ⟨before, front, (List.append_nil _).symm⟩, ⟨_, (List.append_nil _).symm, hcontent⟩⟩
    · rcases List.mem_append.mp hc with hc | hc
      · rw [hbefore c hc]
        decide
      · rw [List.mem_singleton.mp hc]
        omega
    · rw [List.dropLast_concat] at hc
      exact hbefore c hc

/-- **The chunks of a blob carry it**, whatever its length, with a terminator exactly where the CRC
fills the last one, and RC4 gives back what it was given. -/
theorem maskrom_chunks_carry_blob (blob : List UInt8) (useRc4 : Bool) :
    let padded := if blob.length % 4096 = 4095 then blob ++ [0x00] else blob
    let p := if useRc4 then rc4 padded rkRc4Key else padded
    Carries (buildMaskromChunks blob useRc4)
        (if blob.length % 4096 = 4094 then [[0x00]] else []) p ∧
      (∀ x, rc4 (rc4 x rkRc4Key) rkRc4Key = x) ∧
      (if useRc4 then rc4 p rkRc4Key else p) = padded := by
  intro padded p
  refine ⟨?_, fun x => rc4_rc4 x rkRc4Key, ?_⟩
  · have hmod : p.length % chunkSize =
        if blob.length % chunkSize = chunkSize - 1 then 0 else blob.length % chunkSize :=
      length_encodedBlob_mod blob useRc4
    have hlt := Nat.mod_lt blob.length chunkSize_pos
    have hfront : (p.drop (chunkSize * (p.length / chunkSize))).length = p.length % chunkSize := by
      have hdiv := Nat.div_add_mod p.length chunkSize
      rw [List.length_drop]
      omega
    have hplace : p.length % chunkSize ≠ chunkSize - 1 ∧
        (p.length % chunkSize + 2 = 4096 ↔ blob.length % 4096 = 4094) := by
      rw [chunkSize] at *
      split_ifs at hmod <;> omega
    have hchunks : buildMaskromChunks blob useRc4 =
        chunkData (p ++ packBe16 (rkCrc16 p crc16Init)) chunkSize ++
          if blob.length % 4096 = 4094 then [[0x00]] else [] := by
      rw [buildMaskromChunks, needsTerminator]
      split_ifs with hneeded hlength hlength
      · rfl
      · exact absurd (of_decide_eq_true hneeded) hlength
      · exact absurd (decide_eq_true hlength) hneeded
      · exact (List.append_nil _).symm
    rw [hchunks, chunkData_payload hplace.1]
    refine carries_of_chunks (length_of_mem_chunkData (k := p.length / chunkSize) chunkSize_pos ?_)
      ?_ ?_ ?_
    · rw [List.length_take, Nat.min_eq_left (Nat.mul_div_le _ _)]
    · rw [chunkData_flatten _ chunkSize_pos, List.take_append_drop]
    · rw [hfront]
      have := hplace.1
      have := Nat.mod_lt p.length chunkSize_pos
      rw [chunkSize] at *
      omega
    · rw [hfront]
      exact if_congr hplace.2.symm rfl rfl
  · cases useRc4 with
    | false => rfl
    | true => exact rc4_rc4 padded rkRc4Key

end Rockusb

end Defib
