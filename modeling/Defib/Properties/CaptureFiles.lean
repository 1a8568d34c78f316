import Defib.Capture.Format

/-!
# Captures cut short

A recording that was killed leaves a file that ends anywhere.  The records before the cut are read
and nothing is made up for the one that the cut is in; what is not a capture at all is refused with
`ValueError`, by way of the checks that precede each read of `struct` (`decodeChecked_eq`).
-/

namespace Defib

/-- Exceptions that are a `ValueError`; `struct.error` is not one. -/
def CaptureError.isValueError : CaptureError → Bool
  | .structError => false
  | .fileTooSmall _ => true
  | .invalidMagic _ => true
  | .unsupportedVersion _ => true
  | .notADirection _ => true

namespace CaptureFile

/-! ## Reads that are checked -/

/-- `struct.unpack_from` of a format of `size` bytes raises when the buffer is too short. -/
def unpackFrom (size : ℕ) (data : List UInt8) : Except CaptureError (List UInt8) :=
  if data.length < size then .error .structError else .ok (data.take size)

/-- The loop of `decode` on what is left of the file, as `struct` and slices do it. -/
def decodeRecordsChecked (data : List UInt8) : Except CaptureError (List CaptureRecord) :=
  if _h : data.length < 11 then pure []
  else do
    let header ← unpackFrom 11 data
    let length := readLe16 (header.drop 9)
    if data.length < 11 + length then pure []
    else do
      let direction ← Direction.ofValue (header.getD 8 0).toNat
      let records ← decodeRecordsChecked ((data.drop 11).drop length)
      pure (⟨readLe64 header, direction, (data.drop 11).take length⟩ :: records)
termination_by data.length
decreasing_by
  rw [List.length_drop, List.length_drop]
  omega

/-- `decode`, as `struct` and slices do it. -/
def decodeChecked (data : List UInt8) : Except CaptureError CaptureFile :=
  if data.length < headerSize then .error (.fileTooSmall data.length)
  else do
    let header ← unpackFrom headerSize data
    if header.take 4 ≠ dcapMagic then .error (.invalidMagic (header.take 4))
    else if readLe16 (header.drop 4) ≠ dcapVersion then
      .error (.unsupportedVersion (readLe16 (header.drop 4)))
    else do
      let chip := decodeUtf8Replace (((header.drop 10).take 32).rdropWhile (· = 0))
      let records ← decodeRecordsChecked (data.drop headerSize)
      pure ⟨readLe32 (header.drop 6), chip, readLe16 (header.drop 42), records⟩

lemma readLe16_take {n : ℕ} (h : 2 ≤ n) (p : List UInt8) : readLe16 (p.take n) = readLe16 p := by
  rw [readLe16, readLe16, getD_take_of_lt (by omega), getD_take_of_lt (by omega)]

lemma readLe64_take {n : ℕ} (h : 8 ≤ n) (p : List UInt8) : readLe64 (p.take n) = readLe64 p := by
  rw [readLe64, readLe64, readLe32_take (by omega), List.drop_take, readLe32_take (by omega)]

lemma unpackFrom_of_le {size : ℕ} {data : List UInt8} (h : ¬ data.length < size) :
    unpackFrom size data = .ok (data.take size) := if_neg h

/-- As many rounds as there are bytes are enough. -/
lemma decodeRecords_eq_decodeRecordsChecked {fuel : ℕ} {data : List UInt8}
    (h : data.length ≤ fuel) : decodeRecords fuel data = decodeRecordsChecked data := by
  induction fuel generalizing data with
  | zero =>
      rw [decodeRecordsChecked, dif_pos (by omega)]
      rfl
  | succ fuel ih =>
      rw [decodeRecords, decodeRecordsChecked]
      by_cases hshort : data.length < 11
      · rw [if_pos hshort, dif_pos hshort]
      · rw [if_neg hshort, dif_neg hshort, unpackFrom_of_le hshort]
        have hlength : readLe16 ((data.take 11).drop 9) = readLe16 (data.drop 9) := by
          rw [List.drop_take, readLe16_take (by omega)]
        have hrest : decodeRecords fuel (data.drop (11 + readLe16 (data.drop 9))) =
            decodeRecordsChecked ((data.drop 11).drop (readLe16 (data.drop 9))) := by
          rw [List.drop_drop]
          apply ih
          rw [List.length_drop]
          omega
        change (if data.length < 11 + readLe16 (data.drop 9) then _ else _) =
          if data.length < 11 + readLe16 ((data.take 11).drop 9) then _ else _
        rw [hlength, readLe64_take (by omega), getD_take_of_lt (by omega), hrest]

/-- **No read of `decode` is too short.** -/
lemma decodeChecked_eq (data : List UInt8) : decodeChecked data = decode data := by
  rw [decodeChecked, decode]
  by_cases hshort : data.length < headerSize
  · rw [if_pos hshort, if_pos hshort]
  · rw [if_neg hshort, if_neg hshort, unpackFrom_of_le hshort]
    have hmagic : (data.take headerSize).take 4 = data.take 4 := by
      rw [List.take_take]
      rfl
    have hversion : readLe16 ((data.take headerSize).drop 4) = readLe16 (data.drop 4) := by
      rw [List.drop_take]
      exact readLe16_take (Nat.le_add_left 2 42) _
    have hbaud : readLe32 ((data.take headerSize).drop 6) = readLe32 (data.drop 6) := by
      rw [List.drop_take]
      exact readLe32_take (Nat.le_add_left 4 38) _
    have hchip : ((data.take headerSize).drop 10).take 32 = (data.drop 10).take 32 := by
      rw [List.drop_take, List.take_take]
      rfl
    have hflags : readLe16 ((data.take headerSize).drop 42) = readLe16 (data.drop 42) := by
      rw [List.drop_take]
      exact readLe16_take (Nat.le_add_left 2 4) _
    have hrecords : decodeRecordsChecked (data.drop headerSize) =
        decodeRecords data.length (data.drop headerSize) := by
      apply (decodeRecords_eq_decodeRecordsChecked _).symm
      rw [List.length_drop]
      omega
    change (if (data.take headerSize).take 4 ≠ dcapMagic then _ else _) = _
    rw [hmagic, hversion, hchip, hbaud, hflags, hrecords]

lemma error_of_bind {α β : Type} {x : Except CaptureError α} {f : α → Except CaptureError β}
    {e : CaptureError} (h : x >>= f = .error e) : x = .error e ∨ ∃ a, f a = .error e := by
  cases x with
  | error e' =>
      left
      exact congrArg Except.error (Except.error.inj h)
  | ok a =>
      right
      exact ⟨a, h⟩

lemma isValueError_of_ofValue {n : ℕ} {e : CaptureError} (h : Direction.ofValue n = .error e) :
    e.isValueError = true := by
  rw [Direction.ofValue] at h
  split_ifs at h
  cases h
  rfl

lemma isValueError_of_decodeRecords {fuel : ℕ} {data : List UInt8} {e : CaptureError}
    (h : decodeRecords fuel data = .error e) : e.isValueError = true := by
  induction fuel generalizing data with
  | zero => cases h
  | succ fuel ih =>
      rw [decodeRecords] at h
      by_cases hshort : data.length < 11
      · rw [if_pos hshort] at h
        cases h
      rw [if_neg hshort] at h
      dsimp only at h
      by_cases hcut : data.length < 11 + readLe16 (data.drop 9)
      · rw [if_pos hcut] at h
        cases h
      rw [if_neg hcut] at h
      obtain hdirection | ⟨direction, h⟩ := error_of_bind h
      · exact isValueError_of_ofValue hdirection
      · obtain hrest | ⟨rs, h⟩ := error_of_bind h
        · exact ih hrest
        · cases h

/-- What is not a capture is refused with `ValueError`. -/
lemma isValueError_of_decode {data : List UInt8} {e : CaptureError} (h : decode data = .error e) :
    e.isValueError = true := by
  rw [decode] at h
  dsimp only at h
  by_cases hshort : data.length < headerSize
  · rw [if_pos hshort] at h
    cases h
    rfl
  rw [if_neg hshort] at h
  by_cases hmagic : data.take 4 ≠ dcapMagic
  · rw [if_pos hmagic] at h
    cases h
    rfl
  rw [if_neg hmagic] at h
  by_cases hversion : readLe16 (data.drop 4) ≠ dcapVersion
  · rw [if_pos hversion] at h
    cases h
    rfl
  rw [if_neg hversion] at h
  obtain hrecords | ⟨rs, h⟩ := error_of_bind h
  · exact isValueError_of_decodeRecords hrecords
  · cases h

/-! ## Files that are cut -/

/-- The name of the chip has room in the header, and no end that reads as padding. -/
structure ChipFits (chip : Text) : Prop where
  length_le : (encodeUtf8 chip).length ≤ 32
  last_ne : (encodeUtf8 chip).getLast? ≠ some 0

lemma rdropWhile_append_zeros (bytes : List UInt8) (n : ℕ) :
    (bytes ++ List.replicate n 0).rdropWhile (· = 0) = bytes.rdropWhile (· = 0) := by
  induction n with
  | zero => rw [List.replicate_zero, List.append_nil]
  | succ n ih =>
      rw [List.replicate_succ', ← List.append_assoc, List.rdropWhile_concat_pos _ _ _ (by simp), ih]

lemma storedChip_of_fits {chip : Text} (h : ChipFits chip) : storedChip chip = chip := by
  have hbytes : chipBytes chip =
      encodeUtf8 chip ++ List.replicate (32 - (encodeUtf8 chip).length) 0 := by
    rw [chipBytes, List.take_of_length_le h.length_le]
  have hlast : (encodeUtf8 chip).rdropWhile (· = 0) = encodeUtf8 chip := by
    apply List.rdropWhile_eq_self_iff.mpr
    intro hne hzero
    apply h.last_ne
    rw [List.getLast?_eq_getLast_of_ne_nil hne]
    exact congrArg some (of_decide_eq_true hzero)
  rw [storedChip, hbytes, rdropWhile_append_zeros, hlast, decodeUtf8Replace_encodeUtf8]

/-- How many records lie in the first `n` bytes of the records of a file. -/
def wholeRecords : List CaptureRecord → ℕ → ℕ
  | [], _ => 0
  | r :: rs, n =>
      if 11 + r.data.length ≤ n then wholeRecords rs (n - (11 + r.data.length)) + 1 else 0

lemma lt_wholeRecords_iff {rs : List CaptureRecord} {n i : ℕ} (hi : i < rs.length) :
    i < wholeRecords rs n ↔ ((rs.take (i + 1)).flatMap recordBytes).length ≤ n := by
  induction rs generalizing n i with
  | nil => exact absurd hi (Nat.not_lt_zero i)
  | cons r rs ih =>
      rw [wholeRecords, List.take_succ_cons, List.flatMap_cons, List.length_append,
        length_recordBytes]
      by_cases hr : 11 + r.data.length ≤ n
      · rw [if_pos hr]
        cases i with
        | zero =>
            rw [List.take_zero, List.flatMap_nil, List.length_nil]
            omega
        | succ i =>
            rw [Nat.add_lt_add_iff_right, ih (Nat.lt_of_succ_lt_succ hi)]
            omega
      · rw [if_neg hr]
        omega

/-- A record that is cut is not read. -/
lemma decodeRecords_cut {fuel n : ℕ} {r : CaptureRecord} (h : Fits r) (rest : List UInt8)
    (hn : n < 11 + r.data.length) :
    decodeRecords fuel ((recordBytes r ++ rest).take n) = .ok [] := by
  have hlength : ((recordBytes r ++ rest).take n).length = n := by
    rw [List.length_take, List.length_append, length_recordBytes]
    omega
  cases fuel with
  | zero => rfl
  | succ fuel =>
      rw [decodeRecords]
      by_cases hshort : n < 11
      · rw [if_pos (by omega)]
        rfl
      · have hsize : readLe16 (((recordBytes r ++ rest).take n).drop 9) = r.data.length := by
          rw [List.drop_take, readLe16_take (by omega)]
          simp only [recordBytes, List.append_assoc]
          exact readLe16_packU16_append h.2 (r.data ++ rest)
        rw [if_neg (by omega), hsize, if_pos (by omega)]
        rfl

/-- The records before the cut are read. -/
lemma decodeRecords_take {rs : List CaptureRecord} (h : ∀ r ∈ rs, Fits r) {fuel n : ℕ}
    (hfuel : rs.length ≤ fuel) :
    decodeRecords fuel ((rs.flatMap recordBytes).take n) = .ok (rs.take (wholeRecords rs n)) := by
  induction rs generalizing fuel n with
  | nil =>
      rw [List.flatMap_nil, List.take_nil, List.take_nil, decodeRecords_nil]
  | cons r rs ih =>
      obtain ⟨hr, hrs⟩ := List.forall_mem_cons.mp h
      obtain ⟨fuel, rfl⟩ := Nat.exists_eq_add_of_le' (Nat.le_trans (Nat.le_add_left 1 _) hfuel)
      rw [List.flatMap_cons, wholeRecords]
      by_cases hwhole : 11 + r.data.length ≤ n
      · rw [if_pos hwhole, List.take_append, length_recordBytes,
          List.take_of_length_le (by rw [length_recordBytes]; exact hwhole), decodeRecords_cons hr,
          ih hrs (Nat.le_of_succ_le_succ hfuel)]
        rfl
      · rw [if_neg hwhole, decodeRecords_cut hr _ (by omega), List.take_zero]

/-- Where the record with index `i` ends in the file. -/
def recordEnd (c : CaptureFile) (i : ℕ) : ℕ :=
  headerSize + ((c.records.take (i + 1)).flatMap recordBytes).length

/-- A capture with fields that are wide enough, and a name that has room. -/
structure Storable (c : CaptureFile) : Prop extends Encodable c where
  chip_fits : ChipFits c.chip

/-- The records that end before the cut are read, with the header as it was. -/
lemma decode_headerBytes_append_take {c : CaptureFile} (hc : c.Storable) (n : ℕ) :
    decode (c.headerBytes ++ (c.records.flatMap recordBytes).take n) =
      .ok { c with records := c.records.take (wholeRecords c.records n) } := by
  set rest := (c.records.flatMap recordBytes).take n with hrest
  -- the rounds that the shorter file allows are enough for what it holds
  have hrounds : decodeRecords (headerSize + rest.length) rest =
      decodeRecords (c.records.length + rest.length) rest := by
    rw [decodeRecords_eq_decodeRecordsChecked (Nat.le_add_left _ _),
      decodeRecords_eq_decodeRecordsChecked (Nat.le_add_left _ _)]
  rw [decode_headerBytes_append hc.baudrate_lt hc.flags_lt, hrounds, hrest,
    decodeRecords_take hc.fits (Nat.le_add_right _ _), storedChip_of_fits hc.chip_fits]
  rfl

/-- A capture is read back from its file, and from a file that was cut behind the header as the
records that end before the cut; from any bytes a capture is read or a `ValueError` is raised. -/
theorem capture_files_decode {c : CaptureFile} (hc : c.Storable) (data : List UInt8) :
    (∃ file, c.encode = .ok file ∧ decode file = .ok c ∧
      ∀ part, part <+: file → headerSize ≤ part.length →
        ∃ k, decode part = .ok { c with records := c.records.take k } ∧
          ∀ i < c.records.length, i < k ↔ c.recordEnd i ≤ part.length) ∧
    decodeChecked data = decode data ∧
      ∀ e, decodeChecked data = .error e → e.isValueError = true := by
  constructor
  · have hencode := (encode_eq_ok_iff c _).mpr ⟨hc.toEncodable, rfl⟩
    refine ⟨_, hencode, ?_, ?_⟩
    · rw [decode_encode hencode, storedChip_of_fits hc.chip_fits]
    · intro part hpart hheader
      obtain ⟨n, hn⟩ := Nat.exists_eq_add_of_le hheader
      refine ⟨wholeRecords c.records n, ?_, ?_⟩
      · rw [List.prefix_iff_eq_take.mp hpart, hn, ← length_headerBytes c,
          List.take_length_add_append, decode_headerBytes_append_take hc]
      · intro i hi
        rw [lt_wholeRecords_iff hi, recordEnd, hn, Nat.add_le_add_iff_left]
  · rw [decodeChecked_eq]
    exact ⟨rfl, fun e he => isValueError_of_decode he⟩

/-- A capture with a name of two-byte characters and a record without data. -/
def zetaCapture : CaptureFile := ⟨115200, "ζ".toList, 1, [⟨5, .tx, []⟩, ⟨7, .rx, [0, 0xFF]⟩]⟩

lemma storable_zetaCapture : zetaCapture.Storable where
  baudrate_lt := by decide
  flags_lt := by decide
  fits := by
    intro r hr
    rw [zetaCapture, List.mem_cons, List.mem_singleton] at hr
    obtain rfl | rfl := hr
    · decide
    · decide
  chip_fits := ⟨by decide, by decide⟩

theorem capture_files_decode_zeta :
    (∃ file, zetaCapture.encode = .ok file ∧ decode file = .ok zetaCapture ∧
      ∀ part, part <+: file → headerSize ≤ part.length →
        ∃ k, decode part = .ok { zetaCapture with records := zetaCapture.records.take k } ∧
          ∀ i < zetaCapture.records.length, i < k ↔ zetaCapture.recordEnd i ≤ part.length) ∧
    decodeChecked [1, 2, 3] = decode [1, 2, 3] ∧
      ∀ e, decodeChecked [1, 2, 3] = .error e → e.isValueError = true :=
  capture_files_decode storable_zetaCapture [1, 2, 3]

end CaptureFile

end Defib
