import Mathlib.Data.List.DropRight
import Defib.Framework.Utf8
import Defib.Wire.Packet

/-!
# Captures

A `.dcap` file is a header and records, each with the time, the direction and the bytes of one read
or write.  Lengths are 16 bits wide, so that not every capture has a file (`encode_eq_ok_iff`); a
file that was written is read back (`decode_encode`).
-/

namespace Defib

/-! ## Records and files -/

/-- `Direction`. -/
inductive Direction
  | tx
  | rx
  deriving DecidableEq, Repr

/-- What is raised, with what its message shows. -/
inductive CaptureError
  | structError
  | fileTooSmall (size : ℕ)
  | invalidMagic (magic : List UInt8)
  | unsupportedVersion (version : ℕ)
  | notADirection (value : ℕ)
  deriving DecidableEq, Repr

def Direction.value : Direction → ℕ
  | .tx => 0
  | .rx => 1

/-- `Direction(value)`. -/
def Direction.ofValue (value : ℕ) : Except CaptureError Direction :=
  if value = 0 then .ok .tx else if value = 1 then .ok .rx else .error (.notADirection value)

/-- `CaptureRecord`. -/
structure CaptureRecord where
  timestampUs : ℕ
  direction : Direction
  data : List UInt8
  deriving DecidableEq, Repr

def flagHasTiming : ℕ := 1

/-- `CaptureFile`. -/
structure CaptureFile where
  baudrate : ℕ
  chip : Text
  flags : ℕ
  records : List CaptureRecord
  deriving DecidableEq, Repr

namespace CaptureFile

/-- `CaptureFile(baudrate, chip)`. -/
def new (baudrate : ℕ) (chip : Text) : CaptureFile := ⟨baudrate, chip, flagHasTiming, []⟩

/-- `add_tx`. -/
def addTx (c : CaptureFile) (timestampUs : ℕ) (data : List UInt8) : CaptureFile :=
  { c with records := c.records ++ [⟨timestampUs, .tx, data⟩] }

/-- `add_rx`. -/
def addRx (c : CaptureFile) (timestampUs : ℕ) (data : List UInt8) : CaptureFile :=
  { c with records := c.records ++ [⟨timestampUs, .rx, data⟩] }

/-! ## The file -/

def dcapMagic : List UInt8 := [0x44, 0x43, 0x41, 0x50]
def dcapVersion : ℕ := 1
def headerSize : ℕ := 48

/-- `struct.pack` of a field of `width` bits. -/
def field (width n : ℕ) (bytes : List UInt8) : Except CaptureError (List UInt8) :=
  if n < 2 ^ width then .ok bytes else .error .structError

/-- The little-endian bytes of the low 64 bits. -/
def packU64 (n : ℕ) : List UInt8 := packU32 n ++ packU32 (n / 2 ^ 32)

/-- The chip as the header holds it. -/
def chipBytes (chip : Text) : List UInt8 :=
  let bytes := (encodeUtf8 chip).take 32
  bytes ++ List.replicate (32 - bytes.length) 0

/-- The header. -/
def encodeHeader (c : CaptureFile) : Except CaptureError (List UInt8) := do
  let baudrate ← field 32 c.baudrate (packU32 c.baudrate)
  let flags ← field 16 c.flags (packU16 c.flags)
  pure (dcapMagic ++ packU16 dcapVersion ++ baudrate ++ chipBytes c.chip ++ flags ++ packU32 0)

/-- The header of a record. -/
def encodeRecordHeader (r : CaptureRecord) : Except CaptureError (List UInt8) := do
  let timestamp ← field 64 r.timestampUs (packU64 r.timestampUs)
  let length ← field 16 r.data.length (packU16 r.data.length)
  pure (timestamp ++ [UInt8.ofNat r.direction.value] ++ length)

/-- The loop of `encode`. -/
def encodeRecords : List CaptureRecord → Except CaptureError (List UInt8)
  | [] => pure []
  | r :: rs => do
      let header ← encodeRecordHeader r
      let rest ← encodeRecords rs
      pure (header ++ r.data ++ rest)

/-- `encode`. -/
def encode (c : CaptureFile) : Except CaptureError (List UInt8) := do
  let header ← encodeHeader c
  let records ← encodeRecords c.records
  pure (header ++ records)

def readLe16 (p : List UInt8) : ℕ := (p.getD 0 0).toNat + (p.getD 1 0).toNat * 2 ^ 8

def readLe64 (p : List UInt8) : ℕ := readLe32 p + readLe32 (p.drop 4) * 2 ^ 32

/-- The loop of `decode`, on what is left of the file; each round takes a record header at least,
so that as many rounds as there are bytes are enough. -/
def decodeRecords : ℕ → List UInt8 → Except CaptureError (List CaptureRecord)
  | 0, _ => pure []
  | fuel + 1, data =>
      if data.length < 11 then pure []
      else
        let timestampUs := readLe64 data
        let direction := (data.getD 8 0).toNat
        let length := readLe16 (data.drop 9)
        if data.length < 11 + length then pure []
        else do
          let direction ← Direction.ofValue direction
          let records ← decodeRecords fuel (data.drop (11 + length))
          pure (⟨timestampUs, direction, (data.drop 11).take length⟩ :: records)

/-- `decode`. -/
def decode (data : List UInt8) : Except CaptureError CaptureFile :=
  if data.length < headerSize then .error (.fileTooSmall data.length)
  else
    let magic := data.take 4
    let version := readLe16 (data.drop 4)
    if magic ≠ dcapMagic then .error (.invalidMagic magic)
    else if version ≠ dcapVersion then .error (.unsupportedVersion version)
    else do
      let chip := decodeUtf8Replace (((data.drop 10).take 32).rdropWhile (· = 0))
      let records ← decodeRecords data.length (data.drop headerSize)
      pure ⟨readLe32 (data.drop 6), chip, readLe16 (data.drop 42), records⟩

/-! ## What is written is read back -/

lemma readLe16_packU16_append {n : ℕ} (h : n < 2 ^ 16) (rest : List UInt8) :
    readLe16 (packU16 n ++ rest) = n := by
  simp only [readLe16, packU16, List.cons_append, List.getD_cons_zero, List.getD_cons_succ,
    UInt8.toNat_ofNat']
  omega

lemma length_packU64 (n : ℕ) : (packU64 n).length = 8 := rfl

lemma readLe64_packU64_append {n : ℕ} (h : n < 2 ^ 64) (rest : List UInt8) :
    readLe64 (packU64 n ++ rest) = n := by
  rw [readLe64, packU64, List.append_assoc, readLe32_packU32_append,
    List.drop_left' (length_packU32 n), readLe32_packU32_append]
  omega

lemma field_of_lt {width n : ℕ} (h : n < 2 ^ width) (bytes : List UInt8) :
    field width n bytes = .ok bytes := if_pos h

lemma field_of_not_lt {width n : ℕ} (h : ¬ n < 2 ^ width) (bytes : List UInt8) :
    field width n bytes = .error .structError := if_neg h

/-- The fields of a record's header are wide enough. -/
def Fits (r : CaptureRecord) : Prop := r.timestampUs < 2 ^ 64 ∧ r.data.length < 2 ^ 16

instance (r : CaptureRecord) : Decidable (Fits r) := inferInstanceAs (Decidable (_ ∧ _))

/-- A record in a file. -/
def recordBytes (r : CaptureRecord) : List UInt8 :=
  packU64 r.timestampUs ++ [UInt8.ofNat r.direction.value] ++ packU16 r.data.length ++ r.data

lemma encodeRecordHeader_of_fits {r : CaptureRecord} (h : Fits r) :
    encodeRecordHeader r =
      .ok (packU64 r.timestampUs ++ [UInt8.ofNat r.direction.value] ++ packU16 r.data.length) := by
  rw [encodeRecordHeader, field_of_lt h.1, field_of_lt h.2]
  rfl

lemma encodeRecordHeader_of_not_fits {r : CaptureRecord} (h : ¬ Fits r) :
    encodeRecordHeader r = .error .structError := by
  rw [encodeRecordHeader]
  by_cases htime : r.timestampUs < 2 ^ 64
  · rw [field_of_lt htime, field_of_not_lt fun hlength => h ⟨htime, hlength⟩]
    rfl
  · rw [field_of_not_lt htime]
    rfl

/-- Records have a file when their fields are wide enough. -/
lemma encodeRecords_eq (rs : List CaptureRecord) :
    encodeRecords rs =
      if ∀ r ∈ rs, Fits r then .ok (rs.flatMap recordBytes) else .error .structError := by
  induction rs with
  | nil =>
      rw [if_pos fun r hr => absurd hr List.not_mem_nil]
      rfl
  | cons r rs ih =>
      rw [encodeRecords, ih]
      by_cases hr : Fits r
      · rw [encodeRecordHeader_of_fits hr]
        by_cases hrs : ∀ r ∈ rs, Fits r
        · rw [if_pos hrs, if_pos (List.forall_mem_cons.mpr ⟨hr, hrs⟩)]
          rfl
        · rw [if_neg hrs, if_neg fun h => hrs (List.forall_mem_cons.mp h).2]
          rfl
      · rw [encodeRecordHeader_of_not_fits hr, if_neg fun h => hr (List.forall_mem_cons.mp h).1]
        rfl

/-- The header of a file. -/
def headerBytes (c : CaptureFile) : List UInt8 :=
  dcapMagic ++ packU16 dcapVersion ++ packU32 c.baudrate ++ chipBytes c.chip ++ packU16 c.flags ++
    packU32 0

/-- All fields of a capture are wide enough. -/
structure Encodable (c : CaptureFile) : Prop where
  baudrate_lt : c.baudrate < 2 ^ 32
  flags_lt : c.flags < 2 ^ 16
  fits : ∀ r ∈ c.records, Fits r

/-- **Which captures have a file.** -/
lemma encode_eq_ok_iff (c : CaptureFile) (file : List UInt8) :
    c.encode = .ok file ↔
      c.Encodable ∧ file = c.headerBytes ++ c.records.flatMap recordBytes := by
  rw [encode, encodeHeader, encodeRecords_eq]
  by_cases hbaud : c.baudrate < 2 ^ 32
  · by_cases hflags : c.flags < 2 ^ 16
    · rw [field_of_lt hbaud, field_of_lt hflags]
      by_cases hfits : ∀ r ∈ c.records, Fits r
      · rw [if_pos hfits, and_iff_right ⟨hbaud, hflags, hfits⟩]
        exact ⟨fun h => (Except.ok.inj h).symm, fun h => h ▸ rfl⟩
      · rw [if_neg hfits]
        exact iff_of_false (fun h => by cases h) fun h => hfits h.1.fits
    · rw [field_of_lt hbaud, field_of_not_lt hflags]
      exact iff_of_false (fun h => by cases h) fun h => hflags h.1.flags_lt
  · rw [field_of_not_lt hbaud]
    exact iff_of_false (fun h => by cases h) fun h => hbaud h.1.baudrate_lt

lemma length_chipBytes (chip : Text) : (chipBytes chip).length = 32 := by
  rw [chipBytes, List.length_append, List.length_replicate]
  have : ((encodeUtf8 chip).take 32).length ≤ 32 := List.length_take_le _ _
  omega

lemma length_headerBytes (c : CaptureFile) : c.headerBytes.length = headerSize := by
  simp only [headerBytes, List.length_append, length_chipBytes]
  rfl

lemma ofValue_value (d : Direction) :
    Direction.ofValue (UInt8.ofNat d.value).toNat = .ok d := by
  cases d with
  | tx => rfl
  | rx => rfl

lemma length_recordBytes (r : CaptureRecord) : (recordBytes r).length = 11 + r.data.length := by
  simp only [recordBytes, List.length_append, length_packU64, length_packU16]
  rfl

/-- A record is read back. -/
lemma decodeRecords_cons {fuel : ℕ} {r : CaptureRecord} (h : Fits r) (rest : List UInt8) :
    decodeRecords (fuel + 1) (recordBytes r ++ rest) =
      (decodeRecords fuel rest).map (r :: ·) := by
  have hlength : (recordBytes r ++ rest).length = 11 + r.data.length + rest.length := by
    rw [List.length_append, length_recordBytes]
  have htime : readLe64 (recordBytes r ++ rest) = r.timestampUs := by
    simp only [recordBytes, List.append_assoc]
    exact readLe64_packU64_append h.1 _
  have hsize : readLe16 ((recordBytes r ++ rest).drop 9) = r.data.length := by
    simp only [recordBytes, List.append_assoc]
    exact readLe16_packU16_append h.2 (r.data ++ rest)
  have hdirection : ((recordBytes r ++ rest).getD 8 0) = UInt8.ofNat r.direction.value := by
    simp only [recordBytes, List.append_assoc]
    rfl
  have hdata : ((recordBytes r ++ rest).drop 11).take r.data.length = r.data := by
    simp only [recordBytes, List.append_assoc]
    exact List.take_left' rfl
  have hrest : (recordBytes r ++ rest).drop (11 + r.data.length) = rest :=
    List.drop_left' (length_recordBytes r)
  rw [decodeRecords, if_neg (by omega), hsize, if_neg (by omega), htime, hdirection,
    ofValue_value, hrest, hdata]
  cases decodeRecords fuel rest with
  | error e => rfl
  | ok rs => rfl

lemma decodeRecords_nil (fuel : ℕ) : decodeRecords fuel [] = .ok [] := by
  cases fuel with
  | zero => rfl
  | succ fuel => rfl

/-- Records are read back. -/
lemma decodeRecords_flatMap {rs : List CaptureRecord} (h : ∀ r ∈ rs, Fits r) {fuel : ℕ}
    (hfuel : rs.length ≤ fuel) : decodeRecords fuel (rs.flatMap recordBytes) = .ok rs := by
  induction rs generalizing fuel with
  | nil => exact decodeRecords_nil fuel
  | cons r rs ih =>
      obtain ⟨fuel, rfl⟩ := Nat.exists_eq_add_of_le' (Nat.le_trans (Nat.le_add_left 1 _) hfuel)
      obtain ⟨hr, hrs⟩ := List.forall_mem_cons.mp h
      rw [List.flatMap_cons, decodeRecords_cons hr, ih hrs (Nat.le_of_succ_le_succ hfuel)]
      rfl

lemma length_le_flatMap_recordBytes (rs : List CaptureRecord) :
    rs.length ≤ (rs.flatMap recordBytes).length := by
  induction rs with
  | nil => exact Nat.le_refl 0
  | cons r rs ih =>
      rw [List.flatMap_cons, List.length_append, length_recordBytes, List.length_cons]
      omega

/-- The chip as it is read back: cut to 32 bytes. -/
def storedChip (chip : Text) : Text :=
  decodeUtf8Replace ((chipBytes chip).rdropWhile (· = 0))

/-- The header is read back, whatever follows it. -/
lemma decode_headerBytes_append {c : CaptureFile} (hbaudrate : c.baudrate < 2 ^ 32)
    (hflags : c.flags < 2 ^ 16) (rest : List UInt8) :
    decode (c.headerBytes ++ rest) =
      (decodeRecords (headerSize + rest.length) rest).map fun rs =>
        { c with chip := storedChip c.chip, records := rs } := by
  have hlength : (c.headerBytes ++ rest).length = headerSize + rest.length := by
    rw [List.length_append, length_headerBytes]
  have hchip : ((c.headerBytes ++ rest).drop 10).take 32 = chipBytes c.chip := by
    simp only [headerBytes, List.append_assoc]
    exact List.take_left' (length_chipBytes c.chip)
  have hbaud : readLe32 ((c.headerBytes ++ rest).drop 6) = c.baudrate := by
    simp only [headerBytes, List.append_assoc]
    exact (readLe32_packU32_append c.baudrate _).trans (Nat.mod_eq_of_lt hbaudrate)
  have hflags : readLe16 ((c.headerBytes ++ rest).drop 42) = c.flags := by
    have hdrop : (c.headerBytes ++ rest).drop 42 = packU16 c.flags ++ (packU32 0 ++ rest) := by
      simp only [headerBytes, List.append_assoc]
      exact (List.drop_drop (i := 32) (j := 10)).symm.trans
        (List.drop_left' (length_chipBytes c.chip))
    rw [hdrop, readLe16_packU16_append hflags]
  have hmagic : (c.headerBytes ++ rest).take 4 = dcapMagic := by
    simp only [headerBytes, List.append_assoc]
    rfl
  have hversion : readLe16 ((c.headerBytes ++ rest).drop 4) = dcapVersion := by
    simp only [headerBytes, List.append_assoc]
    exact readLe16_packU16_append (by decide) _
  rw [decode, if_neg (by omega), hmagic, hversion, hchip, hbaud, hflags,
    if_neg (not_not_intro rfl), if_neg (not_not_intro rfl), ← storedChip, hlength,
    List.drop_left' (length_headerBytes c)]
  cases decodeRecords (headerSize + rest.length) rest with
  | error e => rfl
  | ok rs => rfl

/-- **A file that was written is read back.** -/
lemma decode_encode {c : CaptureFile} {file : List UInt8} (h : c.encode = .ok file) :
    decode file = .ok { c with chip := storedChip c.chip } := by
  obtain ⟨hc, rfl⟩ := (encode_eq_ok_iff c file).mp h
  rw [decode_headerBytes_append hc.baudrate_lt hc.flags_lt, decodeRecords_flatMap hc.fits]
  · rfl
  · exact Nat.le_add_left_of_le (length_le_flatMap_recordBytes c.records)

end CaptureFile

end Defib
