import Mathlib.Data.List.Basic
import Mathlib.Data.Nat.Bitwise
import Mathlib.Tactic.Common
import Defib.Framework.Pieces

/-!
# Frames of the boot protocol

A transfer to the bootrom is a HEAD frame that declares a length and an address, DATA frames that
carry the payload in numbered chunks, and a TAIL frame.  This module has the frame builders of
`protocol/frames.py` with the CRC-16 of `protocol/crc.py`, and reads frames back: `transfersFrom`
recovers from a sequence of frames which transfers it makes.

* `verifyCrc_appendCrc`: what the builders append is what `verify_crc` expects.
* `chunkData_flatten`: the chunks of a byte string put together.
* `transfersFrom_transferFrames`: the frames of a transfer make that transfer.
-/

namespace Defib

/-! ## CRC-16 -/

/-- `CRC_TABLE`. -/
def crcTable : List ℕ :=
  [
    0x0000, 0x1021, 0x2042, 0x3063, 0x4084, 0x50A5, 0x60C6, 0x70E7,
    0x8108, 0x9129, 0xA14A, 0xB16B, 0xC18C, 0xD1AD, 0xE1CE, 0xF1EF,
    0x1231, 0x0210, 0x3273, 0x2252, 0x52B5, 0x4294, 0x72F7, 0x62D6,
    0x9339, 0x8318, 0xB37B, 0xA35A, 0xD3BD, 0xC39C, 0xF3FF, 0xE3DE,
    0x2462, 0x3443, 0x0420, 0x1401, 0x64E6, 0x74C7, 0x44A4, 0x5485,
    0xA56A, 0xB54B, 0x8528, 0x9509, 0xE5EE, 0xF5CF, 0xC5AC, 0xD58D,
    0x3653, 0x2672, 0x1611, 0x0630, 0x76D7, 0x66F6, 0x5695, 0x46B4,
    0xB75B, 0xA77A, 0x9719, 0x8738, 0xF7DF, 0xE7FE, 0xD79D, 0xC7BC,
    0x48C4, 0x58E5, 0x6886, 0x78A7, 0x0840, 0x1861, 0x2802, 0x3823,
    0xC9CC, 0xD9ED, 0xE98E, 0xF9AF, 0x8948, 0x9969, 0xA90A, 0xB92B,
    0x5AF5, 0x4AD4, 0x7AB7, 0x6A96, 0x1A71, 0x0A50, 0x3A33, 0x2A12,
    0xDBFD, 0xCBDC, 0xFBBF, 0xEB9E, 0x9B79, 0x8B58, 0xBB3B, 0xAB1A,
    0x6CA6, 0x7C87, 0x4CE4, 0x5CC5, 0x2C22, 0x3C03, 0x0C60, 0x1C41,
    0xEDAE, 0xFD8F, 0xCDEC, 0xDDCD, 0xAD2A, 0xBD0B, 0x8D68, 0x9D49,
    0x7E97, 0x6EB6, 0x5ED5, 0x4EF4, 0x3E13, 0x2E32, 0x1E51, 0x0E70,
    0xFF9F, 0xEFBE, 0xDFDD, 0xCFFC, 0xBF1B, 0xAF3A, 0x9F59, 0x8F78,
    0x9188, 0x81A9, 0xB1CA, 0xA1EB, 0xD10C, 0xC12D, 0xF14E, 0xE16F,
    0x1080, 0x00A1, 0x30C2, 0x20E3, 0x5004, 0x4025, 0x7046, 0x6067,
    0x83B9, 0x9398, 0xA3FB, 0xB3DA, 0xC33D, 0xD31C, 0xE37F, 0xF35E,
    0x02B1, 0x1290, 0x22F3, 0x32D2, 0x4235, 0x5214, 0x6277, 0x7256,
    0xB5EA, 0xA5CB, 0x95A8, 0x8589, 0xF56E, 0xE54F, 0xD52C, 0xC50D,
    0x34E2, 0x24C3, 0x14A0, 0x0481, 0x7466, 0x6447, 0x5424, 0x4405,
    0xA7DB, 0xB7FA, 0x8799, 0x97B8, 0xE75F, 0xF77E, 0xC71D, 0xD73C,
    0x26D3, 0x36F2, 0x0691, 0x16B0, 0x6657, 0x7676, 0x4615, 0x5634,
    0xD94C, 0xC96D, 0xF90E, 0xE92F, 0x99C8, 0x89E9, 0xB98A, 0xA9AB,
    0x5844, 0x4865, 0x7806, 0x6827, 0x18C0, 0x08E1, 0x3882, 0x28A3,
    0xCB7D, 0xDB5C, 0xEB3F, 0xFB1E, 0x8BF9, 0x9BD8, 0xABBB, 0xBB9A,
    0x4A75, 0x5A54, 0x6A37, 0x7A16, 0x0AF1, 0x1AD0, 0x2AB3, 0x3A92,
    0xFD2E, 0xED0F, 0xDD6C, 0xCD4D, 0xBDAA, 0xAD8B, 0x9DE8, 0x8DC9,
    0x7C26, 0x6C07, 0x5C64, 0x4C45, 0x3CA2, 0x2C83, 0x1CE0, 0x0CC1,
    0xEF1F, 0xFF3E, 0xCF5D, 0xDF7C, 0xAF9B, 0xBFBA, 0x8FD9, 0x9FF8,
    0x6E17, 0x7E36, 0x4E55, 0x5E74, 0x2E93, 0x3EB2, 0x0ED1, 0x1EF0]

/-- The loop body of `calc_crc`, on an accumulator that is never cut to 16 bits. -/
def crcStep (crc : ℕ) (byte : UInt8) : ℕ :=
  ((crc <<< 8) ||| byte.toNat) ^^^ crcTable.getD ((crc >>> 8) &&& 0xFF) 0

/-- `calc_crc`, which feeds two more zero bytes and then cuts the accumulator. -/
def calcCrc (data : List UInt8) : ℕ := ([0, 0].foldl crcStep (data.foldl crcStep 0)) &&& 0xFFFF

/-- `append_crc`. -/
def appendCrc (data : List UInt8) : List UInt8 :=
  let crc := calcCrc data
  data ++ [UInt8.ofNat (crc >>> 8), UInt8.ofNat crc]

/-- `verify_crc`. -/
def verifyCrc (frame : List UInt8) : Bool :=
  if frame.length < 3 then false
  else
    let payload := frame.take (frame.length - 2)
    let expected := ((frame.getD (frame.length - 2) 0).toNat <<< 8) |||
      (frame.getD (frame.length - 1) 0).toNat
    calcCrc payload = expected

lemma calcCrc_lt (data : List UInt8) : calcCrc data < 2 ^ 16 := by
  rw [calcCrc, Nat.and_two_pow_sub_one_eq_mod _ 16]
  exact Nat.mod_lt _ (by omega)

lemma length_appendCrc (data : List UInt8) : (appendCrc data).length = data.length + 2 := by
  simp [appendCrc]

/-- A 16-bit number from its two bytes. -/
lemma shiftLeft_or_bytes {n : ℕ} (h : n < 2 ^ 16) :
    ((UInt8.ofNat (n >>> 8)).toNat <<< 8) ||| (UInt8.ofNat n).toNat = n := by
  rw [UInt8.toNat_ofNat', UInt8.toNat_ofNat', Nat.shiftRight_eq_div_pow,
    ← Nat.shiftLeft_add_eq_or_of_lt (by omega : n % 2 ^ 8 < 2 ^ 8), Nat.shiftLeft_eq]
  omega

/-- **A frame verifies.** -/
lemma verifyCrc_appendCrc {data : List UInt8} (h : data ≠ []) :
    verifyCrc (appendCrc data) = true := by
  have hpos : 0 < data.length := List.length_pos_iff.mpr h
  have htake : (appendCrc data).take ((appendCrc data).length - 2) = data := by
    rw [length_appendCrc, Nat.add_sub_cancel, appendCrc]
    exact List.take_left
  have hhi : (appendCrc data).getD ((appendCrc data).length - 2) 0 =
      UInt8.ofNat (calcCrc data >>> 8) := by
    rw [length_appendCrc, Nat.add_sub_cancel, appendCrc]
    simp
  have hlo : (appendCrc data).getD ((appendCrc data).length - 1) 0 =
      UInt8.ofNat (calcCrc data) := by
    rw [length_appendCrc, appendCrc]
    simp
  rw [verifyCrc, if_neg (by rw [length_appendCrc]; omega)]
  simp only [htake, hhi, hlo, shiftLeft_or_bytes (calcCrc_lt data), decide_true]

/-! ## Big-endian integers -/

/-- The big-endian bytes of the low 32 bits. -/
def packBe32 (n : ℕ) : List UInt8 :=
  [UInt8.ofNat (n / 2 ^ 24), UInt8.ofNat (n / 2 ^ 16), UInt8.ofNat (n / 2 ^ 8), UInt8.ofNat n]

/-- The big-endian integer in the first four bytes. -/
def readBe32 (p : List UInt8) : ℕ :=
  (p.getD 0 0).toNat * 2 ^ 24 + (p.getD 1 0).toNat * 2 ^ 16 + (p.getD 2 0).toNat * 2 ^ 8 +
    (p.getD 3 0).toNat

lemma readBe32_packBe32_append (n : ℕ) (rest : List UInt8) :
    readBe32 (packBe32 n ++ rest) = n % 2 ^ 32 := by
  simp only [readBe32, packBe32, List.cons_append, List.getD_cons_zero, List.getD_cons_succ,
    UInt8.toNat_ofNat']
  omega

/-! ## Frames -/

/-- `HEAD_MAGIC`. -/
def headMagic : List UInt8 := [0xFE, 0x00, 0xFF, 0x01]
/-- `DATA_MAGIC`. -/
def dataMagic : UInt8 := 0xDA
/-- `TAIL_MAGIC`. -/
def tailMagic : UInt8 := 0xED
/-- `MAX_DATA_LEN`. -/
def maxDataLen : ℕ := 0x400

/-- The bytes of a HEAD frame whose fields fit. -/
def headBytes (length address : ℕ) : List UInt8 :=
  appendCrc (headMagic ++ packBe32 length ++ packBe32 address)

/-- `HeadFrame(length, address).encode()`.  `struct.pack_into` refuses fields of more than 32
bits. -/
def headFrame (length address : ℕ) : Except String (List UInt8) :=
  if length < 2 ^ 32 ∧ address < 2 ^ 32 then .ok (headBytes length address)
  else .error "argument out of range"

/-- `DataFrame(seq, payload).encode()`. -/
def dataFrame (seq : ℕ) (payload : List UInt8) : List UInt8 :=
  appendCrc ([dataMagic, UInt8.ofNat seq, ~~~UInt8.ofNat seq] ++ payload)

/-- `TailFrame(seq).encode()`. -/
def tailFrame (seq : ℕ) : List UInt8 :=
  appendCrc [tailMagic, UInt8.ofNat seq, ~~~UInt8.ofNat seq]

/-- `chunk_data`: the slices that start at the multiples of `size`. -/
def chunkData (data : List UInt8) (size : ℕ) : List (List UInt8) :=
  (List.range ((data.length + size - 1) / size)).map fun k => (data.drop (k * size)).take size

/-- The DATA frames of a list of chunks, numbered from `seq` on. -/
def dataFrames (seq : ℕ) : List (List UInt8) → List (List UInt8)
  | [] => []
  | c :: cs => dataFrame seq c :: dataFrames (seq + 1) cs

/-- The frames of a transfer. -/
def transferFrames (length address : ℕ) (chunks : List (List UInt8)) : List (List UInt8) :=
  headBytes length address :: (dataFrames 1 chunks ++ [tailFrame (chunks.length + 1)])

@[simp] lemma length_dataFrames (seq : ℕ) (chunks : List (List UInt8)) :
    (dataFrames seq chunks).length = chunks.length := by
  induction chunks generalizing seq with
  | nil => rfl
  | cons c cs ih => simp [dataFrames, ih]

/-! ## Reading frames back -/

/-- The labels of `_frame_label`. -/
inductive FrameLabel
  | head
  | data
  | tail
  | unknown
  deriving DecidableEq, Repr

/-- `_frame_label`. -/
def frameLabel (frame : List UInt8) : FrameLabel :=
  if frame.take 4 = headMagic then .head
  else if frame.head? = some dataMagic then .data
  else if frame.head? = some tailMagic then .tail
  else .unknown

/-- The payload of a DATA frame, `data[3:-2]`. -/
def dataPayload (frame : List UInt8) : List UInt8 := (frame.drop 3).take (frame.length - 5)

/-- The DATA frames of a sequence. -/
def dataOf (frames : List (List UInt8)) : List (List UInt8) := frames.filter (frameLabel · = .data)

/-- A transfer as the receiving end sees it. -/
structure Transfer where
  address : ℕ
  length : ℕ
  data : List UInt8
  deriving DecidableEq, Repr

/-- The transfers a sequence of frames makes, each from its HEAD to its TAIL, given the one that is
open. -/
def transfersFrom : Option Transfer → List (List UInt8) → List Transfer
  | _, [] => []
  | cur, f :: fs =>
      match frameLabel f with
      | .head => transfersFrom (some ⟨readBe32 (f.drop 8), readBe32 (f.drop 4), []⟩) fs
      | .data => transfersFrom (cur.map fun t => { t with data := t.data ++ dataPayload f }) fs
      | .tail => cur.toList ++ transfersFrom none fs
      | .unknown => transfersFrom cur fs

/-- The transfers a sequence of frames makes. -/
def transfers (frames : List (List UInt8)) : List Transfer := transfersFrom none frames

lemma frameLabel_headBytes (length address : ℕ) : frameLabel (headBytes length address) = .head :=
  if_pos rfl

lemma frameLabel_dataFrame (seq : ℕ) (payload : List UInt8) :
    frameLabel (dataFrame seq payload) = .data := by
  simp [frameLabel, dataFrame, appendCrc, headMagic, dataMagic]

lemma frameLabel_tailFrame (seq : ℕ) : frameLabel (tailFrame seq) = .tail := by
  simp [frameLabel, tailFrame, appendCrc, headMagic, dataMagic, tailMagic]

lemma dataPayload_dataFrame (seq : ℕ) (payload : List UInt8) :
    dataPayload (dataFrame seq payload) = payload := by
  simp [dataPayload, dataFrame, appendCrc]

lemma dataOf_append (fs gs : List (List UInt8)) : dataOf (fs ++ gs) = dataOf fs ++ dataOf gs :=
  List.filter_append _ _

lemma length_headBytes (length address : ℕ) : (headBytes length address).length = 14 := by
  rw [headBytes, length_appendCrc]
  rfl

lemma readBe32_headBytes {length address : ℕ} (hlength : length < 2 ^ 32)
    (haddress : address < 2 ^ 32) :
    readBe32 ((headBytes length address).drop 4) = length ∧
      readBe32 ((headBytes length address).drop 8) = address := by
  have h₄ : ∃ rest, (headBytes length address).drop 4 = packBe32 length ++ rest := ⟨_, rfl⟩
  have h₈ : ∃ rest, (headBytes length address).drop 8 = packBe32 address ++ rest := ⟨_, rfl⟩
  obtain ⟨rest₄, h₄⟩ := h₄
  obtain ⟨rest₈, h₈⟩ := h₈
  rw [h₄, h₈, readBe32_packBe32_append, readBe32_packBe32_append, Nat.mod_eq_of_lt hlength,
    Nat.mod_eq_of_lt haddress]
  exact ⟨rfl, rfl⟩

/-- A frame that is not a HEAD frame. -/
lemma headBytes_ne_of_label {length address : ℕ} {f : List UInt8} (h : frameLabel f ≠ .head) :
    headBytes length address ≠ f := by
  rintro rfl
  exact h (frameLabel_headBytes _ _)

lemma transfersFrom_dataFrames (t : Transfer) (seq : ℕ) (chunks rest : List (List UInt8)) :
    transfersFrom (some t) (dataFrames seq chunks ++ rest) =
      transfersFrom (some { t with data := t.data ++ chunks.flatten }) rest := by
  induction chunks generalizing t seq with
  | nil => simp [dataFrames]
  | cons c cs ih =>
      rw [dataFrames, List.cons_append, transfersFrom, frameLabel_dataFrame,
        dataPayload_dataFrame]
      simp only [Option.map_some, ih]
      simp

/-- **The frames of a transfer make that transfer.** -/
lemma transfersFrom_transferFrames {length address : ℕ} (hlength : length < 2 ^ 32)
    (haddress : address < 2 ^ 32) (cur : Option Transfer) (chunks rest : List (List UInt8)) :
    transfersFrom cur (transferFrames length address chunks ++ rest) =
      ⟨address, length, chunks.flatten⟩ :: transfersFrom none rest := by
  obtain ⟨h₄, h₈⟩ := readBe32_headBytes hlength haddress
  rw [transferFrames, List.cons_append, transfersFrom, frameLabel_headBytes]
  simp only [h₄, h₈]
  rw [List.append_assoc, transfersFrom_dataFrames, List.singleton_append, transfersFrom,
    frameLabel_tailFrame]
  rfl

/-- What was transferred stays transferred. -/
lemma transfersFrom_append_mono (cur : Option Transfer) (fs gs : List (List UInt8)) :
    transfersFrom cur fs <+: transfersFrom cur (fs ++ gs) := by
  induction fs generalizing cur with
  | nil => exact List.nil_prefix
  | cons f fs ih =>
      rw [List.cons_append, transfersFrom, transfersFrom]
      cases frameLabel f with
      | head => exact ih _
      | data => exact ih _
      | tail => exact (List.prefix_append_right_inj _).mpr (ih none)
      | unknown => exact ih cur

lemma transfers_mono {fs gs : List (List UInt8)} (h : fs <+: gs) :
    transfers fs <+: transfers gs := by
  obtain ⟨rest, rfl⟩ := h
  exact transfersFrom_append_mono none fs rest

/-! ## Chunks -/

lemma chunkData_nil (size : ℕ) (h : 0 < size) : chunkData [] size = [] := by
  rw [chunkData, List.length_nil, Nat.zero_add, Nat.div_eq_of_lt (by omega)]
  rfl

/-- One more chunk in front. -/
lemma chunkData_of_pos {data : List UInt8} {size : ℕ} (h : 0 < size) (hpos : 0 < data.length) :
    chunkData data size = data.take size :: chunkData (data.drop size) size := by
  have hcount : (data.length + size - 1) / size = (data.length - size + size - 1) / size + 1 := by
    rcases Nat.lt_or_ge size data.length with hlt | hge
    · rw [← Nat.add_div_right _ h]
      congr 1
      omega
    · rw [show data.length + size - 1 = data.length - 1 + size by omega, Nat.add_div_right _ h,
        Nat.div_eq_of_lt (by omega : data.length - 1 < size),
        Nat.div_eq_of_lt (by omega : data.length - size + size - 1 < size)]
  rw [chunkData, hcount, List.range_succ_eq_map, List.map_cons, List.map_map, chunkData,
    List.length_drop]
  congr 1
  · simp
  · refine List.map_congr_left fun k _ => ?_
    simp only [Function.comp_apply, List.drop_drop]
    congr 2
    rw [Nat.succ_mul, Nat.add_comm]

/-- **The chunks put together.** -/
lemma chunkData_flatten (data : List UInt8) {size : ℕ} (h : 0 < size) :
    (chunkData data size).flatten = data := by
  induction hn : data.length using Nat.strongRecOn generalizing data with
  | ind n ih =>
      rcases Nat.eq_zero_or_pos data.length with hzero | hpos
      · rw [List.length_eq_zero_iff.mp hzero, chunkData_nil _ h]
        rfl
      · rw [chunkData_of_pos h hpos, List.flatten_cons,
          ih (data.drop size).length (by rw [List.length_drop]; omega) _ rfl,
          List.take_append_drop]

lemma length_chunkData (data : List UInt8) (size : ℕ) :
    (chunkData data size).length = (data.length + size - 1) / size := by
  rw [chunkData, List.length_map, List.length_range]

end Defib
