import Mathlib.Data.List.DropRight
import Defib.Boot.Frames
import Defib.Framework.Dict

/-!
# UBIFS volumes of raw UBI images

`extract_ubifs` of `ubi.py`.  A raw UBI image is a sequence of physical erase blocks (PEBs).  A PEB
that holds a logical erase block (LEB) starts with an EC header, which says where the VID header
and the data are; the VID header says which LEB of which volume it is.

`RawPeb` is what a PEB of an image may be: one of any volume, an erased one, one without a VID
header, or one without an EC header.  Every EC header has offsets of its own.  `Peb` is the same in
an image with common offsets.  `scanPebs_rawImage` says what the loop over the PEBs collects.
-/

namespace Defib

/-- `UBI_EC_MAGIC`. -/
def ubiEcMagic : List UInt8 := [0x55, 0x42, 0x49, 0x23]
/-- `UBIFS_MAGIC`. -/
def ubifsMagic : List UInt8 := [0x31, 0x18, 0x10, 0x06]
/-- `VID_MAGIC`. -/
def vidMagic : List UInt8 := [0x55, 0x42, 0x49, 0x21]
/-- `EC_HDR_SIZE`. -/
def ecHdrSize : ℕ := 64
/-- `VID_HDR_SIZE`. -/
def vidHdrSize : ℕ := 64

/-- `is_ubi_image`. -/
def isUbiImage (data : List UInt8) : Bool := data.length ≥ 4 && data.take 4 == ubiEcMagic

/-- `is_ubifs_image`. -/
def isUbifsImage (data : List UInt8) : Bool := data.length ≥ 4 && data.take 4 == ubifsMagic

lemma isUbifsImage_iff (data : List UInt8) :
    isUbifsImage data = true ↔ data.take 4 = ubifsMagic := by
  rw [isUbifsImage, Bool.and_eq_true, beq_iff_eq, decide_eq_true_eq]
  refine and_iff_right_of_imp fun h => ?_
  have hlength := congrArg List.length h
  rw [List.length_take] at hlength
  change min 4 data.length = 4 at hlength
  omega

/-- The message of `struct.unpack_from` for a header that is cut off. -/
def unpackFromError (size offset length : ℕ) : String :=
  "unpack_from requires a buffer of at least " ++ toString (offset + size) ++
    " bytes for unpacking " ++ toString size ++ " bytes at offset " ++ toString offset ++
    " (actual buffer size is " ++ toString length ++ ")"

/-- `ec[3]` and `ec[4]` of the EC header at an offset. -/
def unpackEcHdr (data : List UInt8) (offset : ℕ) : Except String (ℕ × ℕ) :=
  if offset + ecHdrSize ≤ data.length then
    .ok (readBe32 (data.drop (offset + 16)), readBe32 (data.drop (offset + 20)))
  else .error (unpackFromError ecHdrSize offset data.length)

/-- `vid[5]` and `vid[6]` of the VID header at an offset. -/
def unpackVidHdr (data : List UInt8) (offset : ℕ) : Except String (ℕ × ℕ) :=
  if offset + vidHdrSize ≤ data.length then
    .ok (readBe32 (data.drop (offset + 8)), readBe32 (data.drop (offset + 12)))
  else .error (unpackFromError vidHdrSize offset data.length)

/-- The body of the loop over the PEBs of `extract_ubifs`. -/
def scanPeb (ubiData : List UInt8) (pebSize volId : ℕ) (lebs : Dict ℕ (List UInt8))
    (pebIdx : ℕ) : Except String (Dict ℕ (List UInt8)) :=
  let pebOff := pebIdx * pebSize
  if (ubiData.drop pebOff).take 4 ≠ ubiEcMagic then .ok lebs
  else do
    let (pebVidOff, pebDataOff) ← unpackEcHdr ubiData pebOff
    let vidOff := pebOff + pebVidOff
    if vidOff + vidHdrSize > ubiData.length then .ok lebs
    else if (ubiData.drop vidOff).take 4 ≠ vidMagic then .ok lebs
    else
      let (pebVolId, lnum) ← unpackVidHdr ubiData vidOff
      if pebVolId ≠ volId then .ok lebs
      else
        -- a data offset behind the PEB makes the slice empty, as the cut-off subtraction does
        let dOff := pebOff + pebDataOff
        .ok (lebs.set lnum ((ubiData.drop dOff).take (pebSize - pebDataOff)))

/-- The loop over the PEBs: `lebs`. -/
def scanPebs (ubiData : List UInt8) (pebSize volId : ℕ) :
    Except String (Dict ℕ (List UInt8)) :=
  if pebSize = 0 then .error "integer division or modulo by zero"
  else (List.range (ubiData.length / pebSize)).foldlM (scanPeb ubiData pebSize volId) []

/-- `data[-n:]`. -/
def lastBytes (n : ℕ) (data : List UInt8) : List UInt8 :=
  if n = 0 then data else data.drop (data.length - n)

/-- `data[:-n]`. -/
def butLastBytes (n : ℕ) (data : List UInt8) : List UInt8 :=
  if n = 0 then [] else data.take (data.length - n)

/-- The loop that trims a result. -/
def trimResult (lebSize : ℕ) (result : List UInt8) : List UInt8 :=
  if result.length > lebSize ∧ lastBytes lebSize result = List.replicate lebSize 0xFF then
    trimResult lebSize (butLastBytes lebSize result)
  else result
termination_by result.length
decreasing_by
  rename_i h
  obtain ⟨hlt, hlast⟩ := h
  rw [lastBytes] at hlast
  rw [butLastBytes]
  split at hlast
  · subst_vars
    simp at hlt
  · rename_i hne
    rw [if_neg hne, List.length_take]
    omega

/-- `data.hex()`. -/
def hexOfBytes (data : List UInt8) : String :=
  String.ofList (data.flatMap fun b => (Nat.toDigits 16 b.toNat).leftpad 2 '0')

/-- `max(lebs.keys())`. -/
def maxLeb (lebs : Dict ℕ (List UInt8)) : ℕ := (lebs.map Prod.fst).foldr max 0

/-- The result before it is trimmed. -/
def assembleLebs (lebs : Dict ℕ (List UInt8)) (lebSize : ℕ) : List UInt8 :=
  (List.range (maxLeb lebs + 1)).flatMap fun i =>
    (lebs.get? i).getD (List.replicate lebSize 0xFF)

/-- `extract_ubifs` from where the LEBs are collected. -/
def finishUbifs (volId : ℕ) (lebs : Dict ℕ (List UInt8)) : Except String (List UInt8) :=
  match lebs with
  | [] => .error ("No LEBs found for volume " ++ toString volId)
  | (_, first) :: _ =>
      let ubifs := trimResult first.length (assembleLebs lebs first.length)
      if isUbifsImage ubifs then .ok ubifs
      else .error ("Extracted data does not start with UBIFS magic (got " ++
        hexOfBytes (ubifs.take 4) ++ ", expected " ++ hexOfBytes ubifsMagic ++ ")")

/-- `extract_ubifs`. -/
def extractUbifs (ubiData : List UInt8) (pebSize volId : ℕ) : Except String (List UInt8) :=
  if isUbiImage ubiData then do
    let lebs ← scanPebs ubiData pebSize volId
    finishUbifs volId lebs
  else .error "Not a UBI image (missing UBI# magic)"

/-! ## Images -/

/-- `struct.unpack(">Q", p[:8])`. -/
def readBe64 (p : List UInt8) : ℕ := readBe32 p * 2 ^ 32 + readBe32 (p.drop 4)

/-- A PEB.  If there is an EC header, the VID header it points at lies in the PEB. -/
structure RawPeb (pebSize : ℕ) where
  bytes : List UInt8
  length_bytes : bytes.length = pebSize
  ec_fits : bytes.take 4 = ubiEcMagic → ecHdrSize ≤ pebSize
  vid_fits : bytes.take 4 = ubiEcMagic → readBe32 (bytes.drop 16) + vidHdrSize ≤ pebSize

namespace RawPeb

variable {pebSize : ℕ}

/-- Where the EC header says that the VID header is. -/
def vidOff (p : RawPeb pebSize) : ℕ := readBe32 (p.bytes.drop 16)

/-- Where the EC header says that the data are. -/
def dataOff (p : RawPeb pebSize) : ℕ := readBe32 (p.bytes.drop 20)

def volId (p : RawPeb pebSize) : ℕ := readBe32 (p.bytes.drop (p.vidOff + 8))

def lnum (p : RawPeb pebSize) : ℕ := readBe32 (p.bytes.drop (p.vidOff + 12))

def sqnum (p : RawPeb pebSize) : ℕ := readBe64 (p.bytes.drop (p.vidOff + 40))

/-- The data of the LEB. -/
def leb (p : RawPeb pebSize) : List UInt8 := p.bytes.drop p.dataOff

def HasEcHdr (p : RawPeb pebSize) : Prop := p.bytes.take 4 = ubiEcMagic

/-- The PEB holds a LEB of a volume. -/
def OfVolume (vol : ℕ) (p : RawPeb pebSize) : Prop :=
  p.HasEcHdr ∧ (p.bytes.drop p.vidOff).take 4 = vidMagic ∧ p.volId = vol

instance (p : RawPeb pebSize) : Decidable p.HasEcHdr := inferInstanceAs (Decidable (_ = _))

instance (vol : ℕ) (p : RawPeb pebSize) : Decidable (p.OfVolume vol) :=
  inferInstanceAs (Decidable (_ ∧ _ ∧ _))

/-- The LEB of a volume that a PEB holds, with its number. -/
def entry (vol : ℕ) (p : RawPeb pebSize) : Option (ℕ × List UInt8) :=
  if p.OfVolume vol then some (p.lnum, p.leb) else none

lemma length_leb (p : RawPeb pebSize) : p.leb.length = pebSize - p.dataOff := by
  rw [leb, List.length_drop, p.length_bytes]

lemma sizes {p : RawPeb pebSize} (h : p.HasEcHdr) : 64 ≤ pebSize ∧ p.vidOff + 64 ≤ pebSize :=
  ⟨p.ec_fits h, p.vid_fits h⟩

end RawPeb

/-- The bytes of an image. -/
def rawImage {pebSize : ℕ} (pebs : List (RawPeb pebSize)) : List UInt8 :=
  pebs.flatMap RawPeb.bytes

section Scan

variable {pebSize : ℕ}

lemma length_rawImage (pebs : List (RawPeb pebSize)) :
    (rawImage pebs).length = pebs.length * pebSize := by
  induction pebs with
  | nil => simp [rawImage]
  | cons p pebs ih =>
      rw [rawImage, List.flatMap_cons, List.length_append, ← rawImage, ih, p.length_bytes,
        List.length_cons, Nat.succ_mul, Nat.add_comm]

/-- The image from a PEB on. -/
lemma drop_rawImage (before : List (RawPeb pebSize)) (p : RawPeb pebSize)
    (after : List (RawPeb pebSize)) (k : ℕ) (hk : k ≤ pebSize) :
    (rawImage (before ++ p :: after)).drop (before.length * pebSize + k) =
      p.bytes.drop k ++ rawImage after := by
  rw [rawImage, List.flatMap_append, ← rawImage, ← List.drop_drop,
    List.drop_left' (length_rawImage before), List.flatMap_cons, ← rawImage,
    List.drop_append_of_le_length (by rw [p.length_bytes]; exact hk)]

lemma readBe32_append {xs : List UInt8} (ys : List UInt8) (h : 4 ≤ xs.length) :
    readBe32 (xs ++ ys) = readBe32 xs := by
  have hget : ∀ i < 4, (xs ++ ys).getD i 0 = xs.getD i 0 := by
    intro i hi
    rw [List.getD_append _ _ _ _ (by omega)]
  rw [readBe32, readBe32, hget 0 (by omega), hget 1 (by omega), hget 2 (by omega),
    hget 3 (by omega)]

/-- A field of a PEB, read from the image. -/
lemma readBe32_rawImage (before : List (RawPeb pebSize)) (p : RawPeb pebSize)
    (after : List (RawPeb pebSize)) (k : ℕ) (hk : k + 4 ≤ pebSize) :
    readBe32 ((rawImage (before ++ p :: after)).drop (before.length * pebSize + k)) =
      readBe32 (p.bytes.drop k) := by
  rw [drop_rawImage before p after k (by omega),
    readBe32_append _ (by rw [List.length_drop, p.length_bytes]; omega)]

/-- A slice of a PEB, read from the image. -/
lemma take_rawImage (before : List (RawPeb pebSize)) (p : RawPeb pebSize)
    (after : List (RawPeb pebSize)) (k n : ℕ) (hk : k + n ≤ pebSize) :
    ((rawImage (before ++ p :: after)).drop (before.length * pebSize + k)).take n =
      (p.bytes.drop k).take n := by
  rw [drop_rawImage before p after k (by omega),
    List.take_append_of_le_length (by rw [List.length_drop, p.length_bytes]; omega)]

/-- The data of a PEB, read from the image; none if they are said to be behind the PEB. -/
lemma leb_rawImage (before : List (RawPeb pebSize)) (p : RawPeb pebSize)
    (after : List (RawPeb pebSize)) :
    ((rawImage (before ++ p :: after)).drop (before.length * pebSize + p.dataOff)).take
      (pebSize - p.dataOff) = p.leb := by
  rcases Nat.le_total p.dataOff pebSize with h | h
  · rw [take_rawImage before p after p.dataOff (pebSize - p.dataOff) (by omega)]
    exact List.take_of_length_le p.length_leb.le
  · rw [Nat.sub_eq_zero_of_le h, List.take_zero]
    exact (List.eq_nil_of_length_eq_zero (by rw [p.length_leb]; omega)).symm

/-- The image goes on to the end of a PEB. -/
lemma le_length_rawImage (before : List (RawPeb pebSize)) (p : RawPeb pebSize)
    (after : List (RawPeb pebSize)) :
    before.length * pebSize + pebSize ≤ (rawImage (before ++ p :: after)).length := by
  rw [length_rawImage, List.length_append, List.length_cons, ← Nat.succ_mul]
  exact Nat.mul_le_mul_right _ (by omega)

lemma unpackEcHdr_rawImage (before : List (RawPeb pebSize)) (p : RawPeb pebSize)
    (after : List (RawPeb pebSize)) (h : p.HasEcHdr) :
    unpackEcHdr (rawImage (before ++ p :: after)) (before.length * pebSize) =
      .ok (p.vidOff, p.dataOff) := by
  have hlength := le_length_rawImage before p after
  obtain ⟨hec, -⟩ := RawPeb.sizes h
  rw [unpackEcHdr, if_pos (by rw [ecHdrSize]; omega), readBe32_rawImage before p after 16 (by omega),
    readBe32_rawImage before p after 20 (by omega), RawPeb.vidOff, RawPeb.dataOff]

lemma unpackVidHdr_rawImage (before : List (RawPeb pebSize)) (p : RawPeb pebSize)
    (after : List (RawPeb pebSize)) (h : p.HasEcHdr) :
    unpackVidHdr (rawImage (before ++ p :: after)) (before.length * pebSize + p.vidOff) =
      .ok (p.volId, p.lnum) := by
  have hlength := le_length_rawImage before p after
  obtain ⟨-, hvid⟩ := RawPeb.sizes h
  rw [unpackVidHdr, if_pos (by rw [vidHdrSize]; omega), Nat.add_assoc, Nat.add_assoc,
    readBe32_rawImage before p after (p.vidOff + 8) (by omega),
    readBe32_rawImage before p after (p.vidOff + 12) (by omega), RawPeb.volId, RawPeb.lnum]

/-- One turn of the loop over the PEBs, where both headers can be read. -/
lemma scanPeb_of_hdrs {data : List UInt8} {vol pebIdx pebVidOff pebDataOff pebVolId lnum : ℕ}
    (lebs : Dict ℕ (List UInt8)) (hmagic : (data.drop (pebIdx * pebSize)).take 4 = ubiEcMagic)
    (hec : unpackEcHdr data (pebIdx * pebSize) = .ok (pebVidOff, pebDataOff))
    (hfits : pebIdx * pebSize + pebVidOff + vidHdrSize ≤ data.length)
    (hvid : unpackVidHdr data (pebIdx * pebSize + pebVidOff) = .ok (pebVolId, lnum)) :
    scanPeb data pebSize vol lebs pebIdx =
      if (data.drop (pebIdx * pebSize + pebVidOff)).take 4 = vidMagic ∧ pebVolId = vol then
        .ok (lebs.set lnum
          ((data.drop (pebIdx * pebSize + pebDataOff)).take (pebSize - pebDataOff)))
      else .ok lebs := by
  rw [scanPeb, if_neg (by simpa using hmagic), hec]
  simp only [bind, Except.bind]
  rw [if_neg (by omega), hvid]
  by_cases hvidMagic : (data.drop (pebIdx * pebSize + pebVidOff)).take 4 = vidMagic
  · by_cases hvol : pebVolId = vol
    · simp [hvidMagic, hvol]
    · simp [hvidMagic, hvol]
  · simp [hvidMagic]

/-- One turn of the loop over the PEBs. -/
lemma scanPeb_rawImage (before : List (RawPeb pebSize)) (p : RawPeb pebSize)
    (after : List (RawPeb pebSize)) (hpos : 4 ≤ pebSize) (vol : ℕ)
    (lebs : Dict ℕ (List UInt8)) :
    scanPeb (rawImage (before ++ p :: after)) pebSize vol lebs before.length =
      .ok ((p.entry vol).elim lebs fun e => lebs.set e.1 e.2) := by
  have hlength := le_length_rawImage before p after
  have hmagic := take_rawImage before p after 0 4 (by omega)
  rw [Nat.add_zero, List.drop_zero] at hmagic
  by_cases hhas : p.HasEcHdr
  · obtain ⟨-, hvid⟩ := RawPeb.sizes hhas
    have hfits : before.length * pebSize + p.vidOff + vidHdrSize ≤
        (rawImage (before ++ p :: after)).length := by
      rw [vidHdrSize]
      omega
    rw [scanPeb_of_hdrs lebs (hmagic.trans hhas) (unpackEcHdr_rawImage before p after hhas) hfits
      (unpackVidHdr_rawImage before p after hhas),
      take_rawImage before p after p.vidOff 4 (by omega), leb_rawImage, RawPeb.entry]
    by_cases hvol : (p.bytes.drop p.vidOff).take 4 = vidMagic ∧ p.volId = vol
    · rw [if_pos hvol, if_pos ⟨hhas, hvol⟩, Option.elim_some]
    · rw [if_neg hvol, if_neg fun h => hvol h.2, Option.elim_none]
  · have hnone : p.bytes.take 4 ≠ ubiEcMagic := hhas
    rw [scanPeb, hmagic, if_pos hnone, RawPeb.entry, if_neg fun h => hhas h.1, Option.elim_none]

/-- The LEBs that PEBs set, one after the other. -/
def lebsOf (vol : ℕ) (pebs : List (RawPeb pebSize)) : Dict ℕ (List UInt8) :=
  Dict.setAll [] (pebs.filterMap (RawPeb.entry vol))

lemma lebsOf_append_singleton (vol : ℕ) (pebs : List (RawPeb pebSize)) (p : RawPeb pebSize) :
    lebsOf vol (pebs ++ [p]) =
      (p.entry vol).elim (lebsOf vol pebs) fun e => (lebsOf vol pebs).set e.1 e.2 := by
  rw [lebsOf, List.filterMap_append, Dict.setAll_append, ← lebsOf, List.filterMap_cons]
  cases p.entry vol with
  | none => rfl
  | some e => rfl

/-- **The loop over the PEBs of an image.** -/
lemma scanPebs_rawImage (vol : ℕ) (pebs : List (RawPeb pebSize)) (hpos : 4 ≤ pebSize) :
    scanPebs (rawImage pebs) pebSize vol = .ok (lebsOf vol pebs) := by
  rw [scanPebs, if_neg (by omega), length_rawImage, Nat.mul_div_cancel _ (by omega)]
  -- the PEBs the loop has passed are a prefix of the image
  have hprefix : ∀ before after : List (RawPeb pebSize), before ++ after = pebs →
      (List.range before.length).foldlM (scanPeb (rawImage pebs) pebSize vol) [] =
        .ok (lebsOf vol before) := by
    intro before
    induction before using List.reverseRecOn with
    | nil => intro _ _; rfl
    | append_singleton before p ih =>
        intro after h
        rw [List.append_assoc, List.singleton_append] at h
        rw [List.length_append, List.length_singleton, List.range_succ, List.foldlM_append,
          ih (p :: after) h, lebsOf_append_singleton, ← h]
        simp only [bind, Except.bind, List.foldlM_cons, List.foldlM_nil]
        rw [scanPeb_rawImage before p after hpos]
        rfl
  exact hprefix pebs [] (List.append_nil pebs)

end Scan

/-! ## Images with common offsets -/

/-- Where the headers and the data are in the PEBs of an image. -/
structure UbiGeometry where
  pebSize : ℕ
  vidOff : ℕ
  dataOff : ℕ
  ec_fits : ecHdrSize ≤ vidOff
  vid_fits : vidOff + vidHdrSize ≤ dataOff
  data_fits : dataOff ≤ pebSize

/-- A PEB.  If there is an EC header, it has the offsets of the image. -/
structure Peb (g : UbiGeometry) where
  bytes : List UInt8
  length_bytes : bytes.length = g.pebSize
  offsets : bytes.take 4 = ubiEcMagic →
    readBe32 (bytes.drop 16) = g.vidOff ∧ readBe32 (bytes.drop 20) = g.dataOff

lemma UbiGeometry.sizes (g : UbiGeometry) : 64 ≤ g.vidOff ∧ g.vidOff + 64 ≤ g.dataOff ∧
    g.dataOff ≤ g.pebSize := ⟨g.ec_fits, g.vid_fits, g.data_fits⟩

namespace Peb

variable {g : UbiGeometry}

def volId (p : Peb g) : ℕ := readBe32 (p.bytes.drop (g.vidOff + 8))

def lnum (p : Peb g) : ℕ := readBe32 (p.bytes.drop (g.vidOff + 12))

/-- The data of the LEB. -/
def leb (p : Peb g) : List UInt8 := p.bytes.drop g.dataOff

def HasEcHdr (p : Peb g) : Prop := p.bytes.take 4 = ubiEcMagic

/-- The PEB holds a LEB of a volume. -/
def OfVolume (vol : ℕ) (p : Peb g) : Prop :=
  p.HasEcHdr ∧ (p.bytes.drop g.vidOff).take 4 = vidMagic ∧ p.volId = vol

instance (p : Peb g) : Decidable p.HasEcHdr := inferInstanceAs (Decidable (_ = _))

instance (vol : ℕ) (p : Peb g) : Decidable (p.OfVolume vol) :=
  inferInstanceAs (Decidable (_ ∧ _ ∧ _))

/-- The LEB of a volume that a PEB holds, with its number. -/
def entry (vol : ℕ) (p : Peb g) : Option (ℕ × List UInt8) :=
  if p.OfVolume vol then some (p.lnum, p.leb) else none

/-- The PEB as one of any image. -/
def toRaw (p : Peb g) : RawPeb g.pebSize where
  bytes := p.bytes
  length_bytes := p.length_bytes
  ec_fits _ := by
    have := g.sizes
    rw [ecHdrSize]
    omega
  vid_fits h := by
    have := g.sizes
    rw [(p.offsets h).1, vidHdrSize]
    omega

lemma entry_toRaw (vol : ℕ) (p : Peb g) : p.toRaw.entry vol = p.entry vol := by
  rw [RawPeb.entry, entry]
  by_cases hhas : p.HasEcHdr
  · have hvidOff : p.toRaw.vidOff = g.vidOff := (p.offsets hhas).1
    have hdataOff : p.toRaw.dataOff = g.dataOff := (p.offsets hhas).2
    simp only [RawPeb.OfVolume, RawPeb.HasEcHdr, RawPeb.volId, RawPeb.lnum, RawPeb.leb, hvidOff,
      hdataOff]
    rfl
  · rw [if_neg fun h => hhas h.1, if_neg fun h => hhas h.1]

end Peb

/-- The bytes of an image. -/
def imageOf {g : UbiGeometry} (pebs : List (Peb g)) : List UInt8 := pebs.flatMap Peb.bytes

lemma imageOf_eq_rawImage {g : UbiGeometry} (pebs : List (Peb g)) :
    imageOf pebs = rawImage (pebs.map Peb.toRaw) := by
  rw [imageOf, rawImage, List.flatMap_map]
  rfl

lemma filterMap_entry_toRaw {g : UbiGeometry} (vol : ℕ) (pebs : List (Peb g)) :
    (pebs.map Peb.toRaw).filterMap (RawPeb.entry vol) = pebs.filterMap (Peb.entry vol) := by
  rw [List.filterMap_map]
  exact congrArg (List.filterMap · pebs) (funext (Peb.entry_toRaw vol))

/-! ## Assembling -/

lemma foldr_max_le_iff (xs : List ℕ) (b : ℕ) : xs.foldr max 0 ≤ b ↔ ∀ x ∈ xs, x ≤ b := by
  induction xs with
  | nil => simp
  | cons x xs ih => rw [List.foldr_cons, Nat.max_le, ih, List.forall_mem_cons]

lemma maxLeb_congr {lebs lebs' : Dict ℕ (List UInt8)}
    (h : ∀ i, i ∈ lebs.map Prod.fst ↔ i ∈ lebs'.map Prod.fst) : maxLeb lebs = maxLeb lebs' := by
  refine eq_of_forall_ge_iff fun b => ?_
  rw [maxLeb, maxLeb, foldr_max_le_iff, foldr_max_le_iff]
  exact forall_congr' fun i => by rw [h i]

/-- What is assembled depends on what is found only. -/
lemma assembleLebs_congr {lebs lebs' : Dict ℕ (List UInt8)}
    (h : ∀ i, lebs.get? i = lebs'.get? i) (lebSize : ℕ) :
    assembleLebs lebs lebSize = assembleLebs lebs' lebSize := by
  have hmax : maxLeb lebs = maxLeb lebs' := maxLeb_congr fun i => by
    rw [← Dict.exists_get?_iff, ← Dict.exists_get?_iff, h i]
  rw [assembleLebs, assembleLebs, hmax]
  exact congrArg (List.flatMap · _) (funext fun i => by rw [h i])

/-- LEBs of one size, found under the same numbers, make the same volume. -/
lemma finishUbifs_congr {lebs lebs' : Dict ℕ (List UInt8)} {lebSize : ℕ} (vol : ℕ)
    (hsize : ∀ e ∈ lebs, e.2.length = lebSize) (hsize' : ∀ e ∈ lebs', e.2.length = lebSize)
    (h : ∀ i, lebs.get? i = lebs'.get? i) : finishUbifs vol lebs = finishUbifs vol lebs' := by
  have hassemble := assembleLebs_congr h lebSize
  rcases lebs with _ | ⟨⟨k, first⟩, lebs⟩
  · rcases lebs' with _ | ⟨⟨k', first'⟩, lebs'⟩
    · rfl
    · have hk := h k'
      rw [Dict.get?, Dict.get?, if_pos rfl] at hk
      cases hk
  · rcases lebs' with _ | ⟨⟨k', first'⟩, lebs'⟩
    · have hk := h k
      rw [Dict.get?, Dict.get?, if_pos rfl] at hk
      cases hk
    · have hfirst : first.length = lebSize := hsize _ List.mem_cons_self
      have hfirst' : first'.length = lebSize := hsize' _ List.mem_cons_self
      rw [finishUbifs, finishUbifs, hfirst, hfirst', hassemble]

/-- Dropping from the end stops at an element that stays. -/
lemma rdropWhile_cons_of_neg {α : Type*} {p : α → Bool} {x : α} (h : ¬ p x = true)
    (xs : List α) : (x :: xs).rdropWhile p = x :: xs.rdropWhile p := by
  induction xs using List.reverseRecOn with
  | nil =>
      rw [List.rdropWhile_singleton, if_neg h]
      rfl
  | append_singleton xs y ih =>
      rw [← List.cons_append]
      by_cases hy : p y = true
      · rw [List.rdropWhile_concat_pos _ _ _ hy, List.rdropWhile_concat_pos _ _ _ hy, ih]
      · rw [List.rdropWhile_concat_neg _ _ _ hy, List.rdropWhile_concat_neg _ _ _ hy,
          List.cons_append]

/-- A LEB that is entirely `0xFF`. -/
def isErasedLeb (leb : List UInt8) : Bool := leb.all (· = 0xFF)

lemma isErasedLeb_iff (leb : List UInt8) :
    isErasedLeb leb = true ↔ leb = List.replicate leb.length 0xFF := by
  rw [isErasedLeb, List.all_eq_true, List.eq_replicate_iff]
  simp

/-- **The trimming loop removes the erased LEBs at the end**, up to the first LEB. -/
lemma trimResult_flatten {lebSize : ℕ} (hpos : 0 < lebSize) (leb : List UInt8)
    (lebs : List (List UInt8)) (hleb : leb.length = lebSize)
    (hsize : ∀ l ∈ lebs, l.length = lebSize) :
    trimResult lebSize (leb ++ lebs.flatten) = leb ++ (lebs.rdropWhile isErasedLeb).flatten := by
  induction lebs using List.reverseRecOn with
  | nil =>
      rw [trimResult, if_neg (by rw [List.flatten_nil, List.append_nil]; omega)]
      rfl
  | append_singleton lebs l ih =>
      have hl : l.length = lebSize := hsize l (by simp)
      have hlength : (leb ++ lebs.flatten ++ l).length - lebSize =
          (leb ++ lebs.flatten).length := by
        rw [List.length_append, hl, Nat.add_sub_cancel]
      have hlast : lastBytes lebSize (leb ++ lebs.flatten ++ l) = l := by
        rw [lastBytes, if_neg (by omega), hlength, List.drop_left]
      have hbut : butLastBytes lebSize (leb ++ lebs.flatten ++ l) = leb ++ lebs.flatten := by
        rw [butLastBytes, if_neg (by omega), hlength, List.take_left]
      rw [List.flatten_append, List.flatten_singleton, ← List.append_assoc, trimResult, hlast, hbut]
      by_cases herased : isErasedLeb l = true
      · rw [if_pos ⟨by simp only [List.length_append]; omega,
          by rw [← hl]; exact (isErasedLeb_iff l).mp herased⟩,
          ih fun l' hl' => hsize l' (by simp [hl']), List.rdropWhile_concat_pos _ _ _ herased]
      · rw [if_neg fun h => herased ((isErasedLeb_iff l).mpr (by rw [hl]; exact h.2)),
          List.rdropWhile_concat_neg _ _ _ herased, List.flatten_append, List.flatten_singleton,
          List.append_assoc]

/-! ### LEBs of several sizes -/

/-- LEBs one behind the other, with absent ones filled up. -/
def fillLebs (lebSize : ℕ) (lebs : List (Option (List UInt8))) : List UInt8 :=
  lebs.flatMap fun leb => leb.getD (List.replicate lebSize 0xFF)

lemma assembleLebs_eq_fillLebs (lebs : Dict ℕ (List UInt8)) (lebSize : ℕ) :
    assembleLebs lebs lebSize =
      fillLebs lebSize ((List.range (maxLeb lebs + 1)).map lebs.get?) := by
  rw [assembleLebs, fillLebs, List.flatMap_map]

lemma fillLebs_append (lebSize : ℕ) (lebs lebs' : List (Option (List UInt8))) :
    fillLebs lebSize (lebs ++ lebs') = fillLebs lebSize lebs ++ fillLebs lebSize lebs' :=
  List.flatMap_append

lemma fillLebs_cons (lebSize : ℕ) (leb : Option (List UInt8))
    (lebs : List (Option (List UInt8))) : fillLebs lebSize (leb :: lebs) =
      leb.getD (List.replicate lebSize 0xFF) ++ fillLebs lebSize lebs :=
  List.flatMap_cons

/-- Every absent LEB takes the size of the fill. -/
lemma length_fillLebs (lebSize : ℕ) (lebs : List (Option (List UInt8))) :
    (fillLebs lebSize lebs).length = (fillLebs 0 lebs).length + lebSize * lebs.count none := by
  induction lebs with
  | nil => rfl
  | cons leb lebs ih =>
      rw [fillLebs_cons, fillLebs_cons, List.length_append, List.length_append, ih]
      cases leb with
      | none =>
          rw [List.count_cons_self, Nat.mul_succ]
          simp only [Option.getD_none, List.length_replicate]
          omega
      | some leb =>
          rw [List.count_cons_of_ne (by simp)]
          simp only [Option.getD_some]
          omega

/-- Without an absent LEB the size of the fill does not matter. -/
lemma fillLebs_of_not_mem {lebs : List (Option (List UInt8))} (h : none ∉ lebs) (a b : ℕ) :
    fillLebs a lebs = fillLebs b lebs := by
  induction lebs with
  | nil => rfl
  | cons leb lebs ih =>
      obtain ⟨leb, rfl⟩ :=
        Option.ne_none_iff_exists'.mp (Ne.symm (List.ne_of_not_mem_cons h))
      rw [fillLebs_cons, fillLebs_cons, ih (List.not_mem_of_not_mem_cons h)]
      rfl

/-- No byte is written in the LEBs. -/
def AllErased (lebs : List (Option (List UInt8))) : Prop :=
  ∀ leb, some leb ∈ lebs → isErasedLeb leb = true

lemma fillLebs_of_allErased {lebs : List (Option (List UInt8))} (h : AllErased lebs)
    (lebSize : ℕ) : fillLebs lebSize lebs =
      List.replicate ((fillLebs 0 lebs).length + lebSize * lebs.count none) 0xFF := by
  rw [List.eq_replicate_iff]
  refine ⟨length_fillLebs lebSize lebs, fun b hb => ?_⟩
  obtain ⟨leb, hleb, hb⟩ := List.mem_flatMap.mp hb
  cases leb with
  | none => exact List.eq_of_mem_replicate hb
  | some leb =>
      rw [Option.getD_some, (isErasedLeb_iff leb).mp (h leb hleb)] at hb
      exact List.eq_of_mem_replicate hb

/-- The last LEB in which a byte is written. -/
lemma exists_last_written {lebs : List (Option (List UInt8))} (h : ¬ AllErased lebs) :
    ∃ before leb after, lebs = before ++ some leb :: after ∧ ¬ isErasedLeb leb = true ∧
      AllErased after := by
  induction lebs with
  | nil => exact absurd (fun _ h => absurd h List.not_mem_nil) h
  | cons leb lebs ih =>
      by_cases hlebs : AllErased lebs
      · obtain ⟨leb, rfl, hleb⟩ : ∃ l, leb = some l ∧ ¬ isErasedLeb l = true := by
          by_contra hnone
          refine h fun l hl => ?_
          rcases List.mem_cons.mp hl with rfl | hl
          · by_contra hl
            exact hnone ⟨l, rfl, hl⟩
          · exact hlebs l hl
        exact ⟨[], leb, lebs, rfl, hleb, hlebs⟩
      · obtain ⟨before, leb', after, rfl, hleb', hafter⟩ := ih hlebs
        exact ⟨leb :: before, leb', after, rfl, hleb', hafter⟩

/-- The last byte that is written in a LEB. -/
lemma exists_last_byte {leb : List UInt8} (h : ¬ isErasedLeb leb = true) :
    ∃ front x k, leb = front ++ x :: List.replicate k 0xFF ∧ x ≠ 0xFF := by
  induction leb using List.reverseRecOn with
  | nil => exact absurd rfl h
  | append_singleton leb b ih =>
      by_cases hb : b = 0xFF
      · obtain ⟨front, x, k, rfl, hx⟩ := ih fun hleb => h (by
          rw [isErasedLeb] at hleb ⊢
          rw [List.all_append, hleb, hb]
          rfl)
        refine ⟨front, x, k + 1, ?_, hx⟩
        rw [hb, List.append_assoc, List.cons_append, ← List.replicate_succ']
      · exact ⟨leb, b, 0, rfl, hb⟩

/-- **The trimming loop removes whole fills from the end**, and what is left of the last one
stays. -/
lemma trimResult_padding (lebSize t : ℕ) (front : List UInt8) {x : UInt8} (hx : x ≠ 0xFF) :
    trimResult lebSize (front ++ x :: List.replicate t 0xFF) =
      front ++ x :: List.replicate (t % lebSize) 0xFF := by
  induction t using Nat.strong_induction_on with
  | _ t ih =>
      rw [trimResult]
      rcases Nat.eq_zero_or_pos lebSize with rfl | hpos
      · rw [if_neg fun h => by simp [lastBytes] at h, Nat.mod_zero]
      by_cases hlt : t < lebSize
      · -- the byte before the padding is among the last ones
        rw [Nat.mod_eq_of_lt hlt, if_neg]
        rintro ⟨hlong, hlast⟩
        rw [lastBytes, if_neg (by omega)] at hlast
        have hmem : x ∈ (front ++ x :: List.replicate t 0xFF).drop
            ((front ++ x :: List.replicate t 0xFF).length - lebSize) := by
          simp only [List.length_append, List.length_cons, List.length_replicate] at hlong ⊢
          rw [List.drop_append_of_le_length (by omega)]
          simp
        rw [hlast] at hmem
        exact hx (List.eq_of_mem_replicate hmem)
      · have hsplit : front ++ x :: List.replicate t 0xFF =
            (front ++ x :: List.replicate (t - lebSize) 0xFF) ++ List.replicate lebSize 0xFF := by
          rw [List.append_assoc, List.cons_append, List.replicate_append_replicate,
            Nat.sub_add_cancel (by omega)]
        have hlength : ((front ++ x :: List.replicate (t - lebSize) 0xFF) ++
            List.replicate lebSize 0xFF).length - lebSize =
              (front ++ x :: List.replicate (t - lebSize) 0xFF).length := by
          rw [List.length_append, List.length_replicate, Nat.add_sub_cancel]
        rw [hsplit, if_pos, butLastBytes, if_neg (by omega), hlength, List.take_left,
          ih (t - lebSize) (by omega), ← Nat.mod_eq_sub_mod (by omega)]
        refine ⟨by simp; omega, ?_⟩
        rw [lastBytes, if_neg (by omega), hlength, List.drop_left]

/-- Filled up, LEBs end with padding behind the last byte that is written. -/
lemma fillLebs_eq_padding (lebSize : ℕ) {before after : List (Option (List UInt8))}
    {front : List UInt8} {x : UInt8} {k : ℕ} (hafter : AllErased after) :
    fillLebs lebSize (before ++ some (front ++ x :: List.replicate k 0xFF) :: after) =
      fillLebs lebSize before ++ front ++ x :: List.replicate
        (k + (fillLebs 0 after).length + lebSize * after.count none) 0xFF := by
  rw [fillLebs_append, fillLebs_cons, Option.getD_some, fillLebs_of_allErased hafter,
    List.append_assoc, List.cons_append, List.replicate_append_replicate, ← List.append_assoc,
    ← Nat.add_assoc]

/-- What is left of LEBs when they are filled up and trimmed. -/
lemma trimResult_fillLebs (lebSize : ℕ) {before after : List (Option (List UInt8))}
    {front : List UInt8} {x : UInt8} {k : ℕ} (hx : x ≠ 0xFF) (hafter : AllErased after) :
    trimResult lebSize (fillLebs lebSize
      (before ++ some (front ++ x :: List.replicate k 0xFF) :: after)) =
      fillLebs lebSize before ++ front ++
        x :: List.replicate ((k + (fillLebs 0 after).length) % lebSize) 0xFF := by
  rw [fillLebs_eq_padding lebSize hafter, trimResult_padding _ _ _ hx, Nat.add_mul_mod_self_left]

lemma length_rtakeWhile_padding (front : List UInt8) {x : UInt8} (t : ℕ) (hx : x ≠ 0xFF) :
    ((front ++ x :: List.replicate t 0xFF).rtakeWhile (· = 0xFF)).length = t := by
  simp [List.rtakeWhile, hx]

/-- The padding of LEBs that are put one behind the other without a fill. -/
lemma length_rtakeWhile_fillLebs {before after : List (Option (List UInt8))} {front : List UInt8}
    {x : UInt8} {k : ℕ} (hx : x ≠ 0xFF) (hafter : AllErased after) :
    ((fillLebs 0 (before ++ some (front ++ x :: List.replicate k 0xFF) :: after)).rtakeWhile
      (· = 0xFF)).length = k + (fillLebs 0 after).length := by
  rw [fillLebs_eq_padding 0 hafter, length_rtakeWhile_padding _ _ hx, Nat.zero_mul, Nat.add_zero]

lemma padding_inj {front front' : List UInt8} {x : UInt8} {t t' : ℕ} (hx : x ≠ 0xFF)
    (h : front ++ x :: List.replicate t 0xFF = front' ++ x :: List.replicate t' 0xFF) :
    front = front' ∧ t = t' := by
  have ht : t = t' := by
    rw [← length_rtakeWhile_padding front t hx, h, length_rtakeWhile_padding front' t' hx]
  rw [ht] at h
  exact ⟨List.append_cancel_right h, ht⟩

/-- Filled up to two sizes, LEBs are the same bytes only if none is absent. -/
lemma fillLebs_eq_iff {lebs : List (Option (List UInt8))} {a b : ℕ} :
    fillLebs a lebs = fillLebs b lebs ↔ a = b ∨ none ∉ lebs := by
  constructor
  · intro h
    have hlength := congrArg List.length h
    rw [length_fillLebs a, length_fillLebs b, Nat.add_left_cancel_iff] at hlength
    by_cases hzero : lebs.count none = 0
    · exact .inr (List.count_eq_zero.mp hzero)
    · exact .inl (Nat.eq_of_mul_eq_mul_right (by omega) hlength)
  · rintro (rfl | h)
    · rfl
    · exact fillLebs_of_not_mem h a b

/-- Trimming keeps the first bytes. -/
lemma trimResult_prefix (lebSize : ℕ) (result : List UInt8) :
    trimResult lebSize result <+: result := by
  induction result using trimResult.induct lebSize with
  | case1 result h ih =>
      rw [trimResult, if_pos h]
      refine ih.trans ?_
      rw [butLastBytes]
      split
      · exact List.nil_prefix
      · exact List.take_prefix _ _
  | case2 result h =>
      have hkept : trimResult lebSize result = result := by rw [trimResult, if_neg h]
      exact ⟨[], by rw [hkept, List.append_nil]⟩

/-- A magic number does not reach into the padding. -/
lemma take_ubifsMagic_of_padding {front : List UInt8} {x : UInt8} {t : ℕ} (t' : ℕ)
    (h : (front ++ x :: List.replicate t 0xFF).take 4 = ubifsMagic) :
    (front ++ x :: List.replicate t' 0xFF).take 4 = ubifsMagic := by
  have hlong : 3 ≤ front.length := by
    by_contra hshort
    have hlast := congrArg (fun xs => xs[3]?) h
    rw [List.getElem?_take_of_lt (by omega), List.getElem?_append_right (by omega),
      List.getElem?_cons, if_neg (by omega), List.getElem?_replicate] at hlast
    split at hlast
    · exact absurd hlast (by decide)
    · exact absurd hlast (by decide)
  rw [List.append_cons, List.take_append_of_le_length (by simp; omega)] at h ⊢
  exact h

end Defib
