import Defib.Rockusb.Loader

/-!
# What is accepted as a loader

A loader file is accepted exactly when its two tables, and the blobs they point at, lie in the file
(`parseLoader_of_wellFormed`, `parseLoader_of_not_wellFormed`), and nothing but a
`LoaderFormatError` is raised for the others.

`raw_blobs` refuses an empty image.  `parse_loader` looks at the counts of the tables only:
`loader_right_iff` says that what it accepts makes `download_boot` upload no empty blob exactly when
no entry declares one.
-/

namespace Defib

namespace Rockusb

/-! ## One attempt after the other -/

section Attempts

variable {α β ε : Type} {f : α → Except ε β}

/-- All attempts succeed. -/
lemma mapM_ok {g : α → β} {l : List α} (h : ∀ a ∈ l, f a = .ok (g a)) :
    l.mapM f = .ok (l.map g) := by
  induction l with
  | nil => rfl
  | cons a l ih =>
      rw [List.mapM_cons, h a List.mem_cons_self,
        ih fun b hb => h b (List.mem_cons_of_mem a hb)]
      rfl

/-- Some attempt fails, the first of them in a way that `Q` describes. -/
lemma mapM_error {P : α → Prop} [DecidablePred P] {Q : ε → Prop}
    (hok : ∀ a, P a → ∃ b, f a = .ok b) (herror : ∀ a, ¬ P a → ∃ e, Q e ∧ f a = .error e)
    {l : List α} (h : ¬ ∀ a ∈ l, P a) : ∃ e, Q e ∧ l.mapM f = .error e := by
  induction l with
  | nil => exact absurd (fun a ha => absurd ha List.not_mem_nil) h
  | cons a l ih =>
      rw [List.mapM_cons]
      by_cases ha : P a
      · obtain ⟨b, hb⟩ := hok a ha
        have hl : ¬ ∀ a ∈ l, P a := fun hall => h (List.forall_mem_cons.mpr ⟨ha, hall⟩)
        obtain ⟨e, hQ, he⟩ := ih hl
        rw [hb, he]
        exact ⟨e, hQ, rfl⟩
      · obtain ⟨e, hQ, he⟩ := herror a ha
        rw [he]
        exact ⟨e, hQ, rfl⟩

end Attempts

/-! ## What a file declares -/

/-- The table that a file declares at a place of its header. -/
def declaredTable (data : List UInt8) (pos : ℕ) : EntryTable :=
  ⟨(data.getD pos 0).toNat, readLe32 (data.drop (pos + 1)), (data.getD (pos + 5) 0).toNat⟩

namespace EntryTable

variable (t : EntryTable) (data : List UInt8) (i : ℕ)

/-- Where an entry ends. -/
def entryEnd : ℕ := t.offset + i * t.entrySize + t.entrySize

/-- The offset that an entry declares. -/
def dataOffset : ℕ := readLe32 (data.drop (t.entryEnd i - entryTrailer))

/-- The size that an entry declares. -/
def dataSize : ℕ := readLe32 (data.drop (t.entryEnd i - entryTrailer + 4))

/-- The entry and its blob lie in the file. -/
def Fits : Prop :=
  t.entryEnd i ≤ data.length ∧ t.dataOffset data i + t.dataSize data i ≤ data.length

instance : Decidable (t.Fits data i) := inferInstanceAs (Decidable (_ ∧ _))

/-- The entry as it is read. -/
def entry : LoaderEntry where
  name := decodeName
    ((data.drop (t.entryEnd i - entryTrailer - entryNameBytes)).take entryNameBytes)
  data := (data.drop (t.dataOffset data i)).take (t.dataSize data i)
  delayMs := readLe32 (data.drop (t.entryEnd i - entryTrailer + 8))

/-- A table whose entries are read: they have room for a name and a trailer, and all of them fit. -/
structure Readable : Prop where
  le_entrySize : entryTrailer + entryNameBytes ≤ t.entrySize
  fits : ∀ i ∈ List.range t.count, t.Fits data i

/-- A table that is accepted. -/
structure WellFormed : Prop extends t.Readable data where
  count_ne_zero : t.count ≠ 0

end EntryTable

/-- A file that is read. -/
structure WellFormed (data : List UInt8) : Prop where
  le_length : 64 ≤ data.length
  magic : data.take 4 = tagBoot ∨ data.take 4 = tagLoader
  table471 : (declaredTable data 25).WellFormed data
  table472 : (declaredTable data 31).WellFormed data

/-- No entry of a table declares an empty blob. -/
def EntryTable.NoEmptyBlob (t : EntryTable) (data : List UInt8) : Prop :=
  ∀ i < t.count, t.dataSize data i ≠ 0

/-- The loader in a file. -/
def loaderOf (data : List UInt8) : LoaderBlobs where
  ddr := (List.range (declaredTable data 25).count).map ((declaredTable data 25).entry data)
  usbplug := (List.range (declaredTable data 31).count).map ((declaredTable data 31).entry data)
  rc4Disabled := data.getD 44 0 != 0

/-! ## Reading -/

/-- An exception that `parse_loader` documents. -/
def LoaderFailure.IsFormat (e : LoaderFailure) : Prop := ∃ err, e = .format err

lemma unpackBIB_eq {data : List UInt8} {pos : ℕ} (h : pos + 6 ≤ data.length) :
    unpackBIB data pos = .ok (declaredTable data pos) := if_pos h

lemma unpackIII_eq {data : List UInt8} {pos : ℕ} (h : pos + 12 ≤ data.length) :
    unpackIII data pos = .ok (readLe32 (data.drop pos), readLe32 (data.drop (pos + 4)),
      readLe32 (data.drop (pos + 8))) := if_pos h

lemma indexByte_eq {data : List UInt8} {i : ℕ} (h : i < data.length) :
    indexByte data i = .ok (data.getD i 0) := by
  unfold indexByte
  rw [List.getD_eq_getElem _ _ h, List.getElem?_eq_getElem h]

section Entries

variable {data : List UInt8} {t : EntryTable}

/-- **A turn of the loop.**  An entry that fits is read, for any other a `LoaderFormatError` is
raised: its trailer is never read behind the end of the file. -/
lemma parseEntry_eq (hsize : entryTrailer + entryNameBytes ≤ t.entrySize) (i : ℕ) :
    parseEntry data t.offset t.entrySize i =
      if data.length < t.entryEnd i then
        .error (.format (.entryPastEnd i (t.offset + i * t.entrySize) data.length))
      else if data.length < t.dataOffset data i + t.dataSize data i then
        .error (.format (.blobPastEnd (t.entry data i).name (t.dataOffset data i)
          (t.dataSize data i) data.length))
      else .ok (t.entry data i) := by
  have hend : entryTrailer ≤ t.entryEnd i :=
    (Nat.le_add_right _ _).trans (Nat.le_add_left_of_le hsize)
  have hturn : parseEntry data t.offset t.entrySize i =
      if data.length < t.entryEnd i then
        .error (.format (.entryPastEnd i (t.offset + i * t.entrySize) data.length))
      else (unpackIII data (t.entryEnd i - entryTrailer)).bind
        (entryBlob data (t.entry data i).name) := rfl
  rw [hturn]
  by_cases hlong : data.length < t.entryEnd i
  · rw [if_pos hlong, if_pos hlong]
  · have htrailer : unpackIII data (t.entryEnd i - entryTrailer) = .ok (t.dataOffset data i,
        t.dataSize data i, readLe32 (data.drop (t.entryEnd i - entryTrailer + 8))) :=
      unpackIII_eq (by rw [entryTrailer] at *; omega)
    rw [if_neg hlong, if_neg hlong, htrailer, Except.bind, entryBlob]
    rfl

/-- What is raised for an entry that does not fit. -/
lemma parseEntry_of_not_fits (hsize : entryTrailer + entryNameBytes ≤ t.entrySize) {i : ℕ}
    (h : ¬ t.Fits data i) :
    ∃ e : LoaderFailure, e.IsFormat ∧ parseEntry data t.offset t.entrySize i = .error e := by
  rw [parseEntry_eq hsize]
  by_cases hlong : data.length < t.entryEnd i
  · rw [if_pos hlong]
    exact ⟨_, ⟨_, rfl⟩, rfl⟩
  · have hblob : data.length < t.dataOffset data i + t.dataSize data i := by
      by_contra hle
      exact h ⟨Nat.le_of_not_lt hlong, Nat.le_of_not_lt hle⟩
    rw [if_neg hlong, if_pos hblob]
    exact ⟨_, ⟨_, rfl⟩, rfl⟩

lemma parseEntry_of_fits (hsize : entryTrailer + entryNameBytes ≤ t.entrySize) {i : ℕ}
    (h : t.Fits data i) :
    parseEntry data t.offset t.entrySize i = .ok (t.entry data i) := by
  rw [parseEntry_eq hsize, if_neg (Nat.not_lt.mpr h.1), if_neg (Nat.not_lt.mpr h.2)]

/-- **A table is read when all of it fits.** -/
lemma parseEntries_of_readable (h : t.Readable data) :
    parseEntries data t.offset t.entrySize t.count =
      .ok ((List.range t.count).map (t.entry data)) := by
  rw [parseEntries, if_neg (Nat.not_lt.mpr h.le_entrySize)]
  exact mapM_ok fun i hi => parseEntry_of_fits h.le_entrySize (h.fits i hi)

lemma parseEntries_error (h : ¬ t.Readable data) :
    ∃ e : LoaderFailure, e.IsFormat ∧
      parseEntries data t.offset t.entrySize t.count = .error e := by
  rw [parseEntries]
  by_cases hsize : entryTrailer + entryNameBytes ≤ t.entrySize
  · rw [if_neg (Nat.not_lt.mpr hsize)]
    exact mapM_error (fun i hi => ⟨_, parseEntry_of_fits hsize hi⟩)
      (fun i hi => parseEntry_of_not_fits hsize hi) fun hall => h ⟨hsize, hall⟩
  · rw [if_pos (Nat.lt_of_not_le hsize)]
    exact ⟨_, ⟨_, rfl⟩, rfl⟩

end Entries

lemma missingStages_eq_nil_iff (n471 n472 : ℕ) :
    missingStages n471 n472 = [] ↔ n471 ≠ 0 ∧ n472 ≠ 0 := by
  rw [missingStages, List.map_eq_nil_iff, List.filter_eq_nil_iff]
  simp

section Tables

variable {data : List UInt8} {t t' : EntryTable}

/-- The tables are read when both have entries and fit. -/
lemma parseTables_of_wellFormed (rc4Flag : UInt8) (h : t.WellFormed data)
    (h' : t'.WellFormed data) :
    parseTables data t t' rc4Flag =
      .ok ⟨(List.range t.count).map (t.entry data), (List.range t'.count).map (t'.entry data),
        rc4Flag != 0⟩ := by
  have hstages := (missingStages_eq_nil_iff _ _).mpr ⟨h.count_ne_zero, h'.count_ne_zero⟩
  rw [parseTables, if_neg (not_not.mpr hstages), parseEntries_of_readable h.toReadable,
    parseEntries_of_readable h'.toReadable]
  rfl

lemma parseTables_error (rc4Flag : UInt8) (h : ¬ (t.WellFormed data ∧ t'.WellFormed data)) :
    ∃ e : LoaderFailure, e.IsFormat ∧ parseTables data t t' rc4Flag = .error e := by
  rw [parseTables]
  by_cases hstages : missingStages t.count t'.count = []
  · obtain ⟨hcount, hcount'⟩ := (missingStages_eq_nil_iff _ _).mp hstages
    rw [if_neg (not_not.mpr hstages)]
    by_cases hread : t.Readable data
    · have hread' : ¬ t'.Readable data := fun hread' => h ⟨⟨hread, hcount⟩, ⟨hread', hcount'⟩⟩
      obtain ⟨e, hformat, he⟩ := parseEntries_error hread'
      rw [parseEntries_of_readable hread, he]
      exact ⟨e, hformat, rfl⟩
    · obtain ⟨e, hformat, he⟩ := parseEntries_error hread
      rw [he]
      exact ⟨e, hformat, rfl⟩
  · rw [if_pos hstages]
    exact ⟨_, ⟨_, rfl⟩, rfl⟩

end Tables

/-- Behind a header that is accepted, the tables decide. -/
lemma parseLoader_of_header {data : List UInt8} (hlength : 64 ≤ data.length)
    (hmagic : data.take 4 = tagBoot ∨ data.take 4 = tagLoader) :
    parseLoader data =
      parseTables data (declaredTable data 25) (declaredTable data 31) (data.getD 44 0) := by
  have htable471 : unpackBIB data tableAt = .ok (declaredTable data 25) :=
    unpackBIB_eq (Nat.le_trans (by decide) hlength)
  have htable472 : unpackBIB data (tableAt + 6) = .ok (declaredTable data 31) :=
    unpackBIB_eq (Nat.le_trans (by decide) hlength)
  have hflag : indexByte data (flagsAt + 1) = .ok (data.getD 44 0) :=
    indexByte_eq (Nat.lt_of_lt_of_le (by decide) hlength)
  have hknown : ¬ (data.take 4 ≠ tagBoot ∧ data.take 4 ≠ tagLoader) := by tauto
  rw [parseLoader, if_neg (Nat.not_lt.mpr hlength), if_neg hknown, htable471, htable472, hflag]
  rfl

/-- **Files that are well formed are read.** -/
lemma parseLoader_of_wellFormed {data : List UInt8} (h : WellFormed data) :
    parseLoader data = .ok (loaderOf data) := by
  rw [parseLoader_of_header h.le_length h.magic]
  exact parseTables_of_wellFormed _ h.table471 h.table472

/-- **For any other file a `LoaderFormatError` is raised.** -/
lemma parseLoader_of_not_wellFormed {data : List UInt8} (h : ¬ WellFormed data) :
    ∃ e : LoaderFailure, e.IsFormat ∧ parseLoader data = .error e := by
  by_cases hlength : 64 ≤ data.length
  · by_cases hmagic : data.take 4 = tagBoot ∨ data.take 4 = tagLoader
    · rw [parseLoader_of_header hlength hmagic]
      exact parseTables_error _ fun htables => h ⟨hlength, hmagic, htables.1, htables.2⟩
    · rw [parseLoader, if_neg (Nat.not_lt.mpr hlength), if_pos (by tauto)]
      exact ⟨_, ⟨_, rfl⟩, rfl⟩
  · rw [parseLoader, if_pos (Nat.lt_of_not_le hlength)]
    exact ⟨_, ⟨_, rfl⟩, rfl⟩

/-! ## What is uploaded -/

/-- The entries of a stage are those of its table, and each blob is the piece of the file that its
entry declares. -/
structure StageRead (data : List UInt8) (t : EntryTable) (entries : List LoaderEntry) : Prop where
  length_eq : entries.length = t.count
  data_eq : ∀ i (h : i < entries.length),
    t.dataOffset data i + t.dataSize data i ≤ data.length ∧
      (entries.get ⟨i, h⟩).data = (data.drop (t.dataOffset data i)).take (t.dataSize data i)

/-- Both stages are uploaded, and no upload is of nothing. -/
def StagesFull (uploads : List StageUpload) : Prop :=
  (∃ u ∈ uploads, u.code = code471) ∧ (∃ u ∈ uploads, u.code = code472) ∧
    ∀ u ∈ uploads, u.blob ≠ []

/-- What is accepted: all entries of both stages, none of them empty. -/
structure LoaderAccepted (data : List UInt8) (blobs : LoaderBlobs) : Prop where
  ddr_ne_nil : blobs.ddr ≠ []
  usbplug_ne_nil : blobs.usbplug ≠ []
  ddr : StageRead data (declaredTable data 25) blobs.ddr
  usbplug : StageRead data (declaredTable data 31) blobs.usbplug
  data_ne_nil : ∀ e ∈ blobs.ddr ++ blobs.usbplug, e.data ≠ []
  uploads : StagesFull (downloadBoot .maskrom blobs)

/-- What `parse_loader` comes to on a file. -/
def LoaderRight (data : List UInt8) : Prop :=
  (∃ err, parseLoader data = .error (.format err)) ∨
    ∃ blobs, parseLoader data = .ok blobs ∧ LoaderAccepted data blobs

lemma mem_downloadBoot {blobs : LoaderBlobs} {u : StageUpload}
    (h : u ∈ downloadBoot .maskrom blobs) : ∃ e ∈ blobs.ddr ++ blobs.usbplug, u.blob = e.data := by
  rcases List.mem_append.mp h with h | h
  · obtain ⟨e, he, rfl⟩ := List.mem_map.mp h
    exact ⟨e, List.mem_append_left _ he, rfl⟩
  · obtain ⟨e, he, rfl⟩ := List.mem_map.mp h
    exact ⟨e, List.mem_append_right _ he, rfl⟩

/-- **Stages with entries, none of them empty, are uploaded in full.** -/
lemma stagesFull_downloadBoot {blobs : LoaderBlobs} (hddr : blobs.ddr ≠ [])
    (husbplug : blobs.usbplug ≠ []) (hdata : ∀ e ∈ blobs.ddr ++ blobs.usbplug, e.data ≠ []) :
    StagesFull (downloadBoot .maskrom blobs) := by
  obtain ⟨e, he⟩ := List.exists_mem_of_ne_nil _ hddr
  obtain ⟨e', he'⟩ := List.exists_mem_of_ne_nil _ husbplug
  refine ⟨⟨e.upload code471 blobs.useRc4, ?_, rfl⟩, ⟨e'.upload code472 blobs.useRc4, ?_, rfl⟩, ?_⟩
  · exact List.mem_append_left _ (List.mem_map_of_mem he)
  · exact List.mem_append_right _ (List.mem_map_of_mem he')
  · intro u hu
    obtain ⟨e, he, hblob⟩ := mem_downloadBoot hu
    rw [hblob]
    exact hdata e he

section Stages

variable {data : List UInt8} {t : EntryTable}

lemma stageRead_map (h : t.WellFormed data) :
    StageRead data t ((List.range t.count).map (t.entry data)) := by
  have hlength : ((List.range t.count).map (t.entry data)).length = t.count := by
    rw [List.length_map, List.length_range]
  refine ⟨hlength, fun i hi => ⟨?_, ?_⟩⟩
  · rw [hlength] at hi
    exact (h.fits i (List.mem_range.mpr hi)).2
  · rw [List.get_eq_getElem, List.getElem_map, List.getElem_range]
    rfl

lemma map_range_ne_nil (h : t.WellFormed data) :
    (List.range t.count).map (t.entry data) ≠ [] := by
  rw [ne_eq, List.map_eq_nil_iff, List.range_eq_nil]
  exact h.count_ne_zero

/-- A piece that lies in the file is empty when its size is 0. -/
lemma entry_data_eq_nil_iff {i : ℕ} (h : t.Fits data i) :
    (t.entry data i).data = [] ↔ t.dataSize data i = 0 := by
  show (data.drop (t.dataOffset data i)).take (t.dataSize data i) = [] ↔ _
  rw [← List.length_eq_zero_iff, List.length_take, List.length_drop]
  have := h.2
  omega

lemma noEmptyBlob_iff (h : t.WellFormed data) :
    t.NoEmptyBlob data ↔ ∀ e ∈ (List.range t.count).map (t.entry data), e.data ≠ [] := by
  rw [EntryTable.NoEmptyBlob, List.forall_mem_map]
  refine forall_congr' fun i => ?_
  rw [List.mem_range]
  refine forall_congr' fun hi => ?_
  rw [ne_eq, ne_eq, entry_data_eq_nil_iff (h.fits i (List.mem_range.mpr hi))]

end Stages

/-- **What is accepted is right when no entry declares an empty blob.** -/
lemma loaderAccepted_iff {data : List UInt8} (h : WellFormed data) :
    LoaderAccepted data (loaderOf data) ↔
      (declaredTable data 25).NoEmptyBlob data ∧ (declaredTable data 31).NoEmptyBlob data := by
  rw [noEmptyBlob_iff h.table471, noEmptyBlob_iff h.table472]
  constructor
  · intro hright
    exact ⟨fun e he => hright.data_ne_nil e (List.mem_append_left _ he),
      fun e he => hright.data_ne_nil e (List.mem_append_right _ he)⟩
  · rintro ⟨hddr, husbplug⟩
    have hdata : ∀ e ∈ (loaderOf data).ddr ++ (loaderOf data).usbplug, e.data ≠ [] :=
      fun e he => (List.mem_append.mp he).elim (hddr e) (husbplug e)
    have hddr_ne : (loaderOf data).ddr ≠ [] := map_range_ne_nil h.table471
    have husbplug_ne : (loaderOf data).usbplug ≠ [] := map_range_ne_nil h.table472
    exact ⟨hddr_ne, husbplug_ne, stageRead_map h.table471, stageRead_map h.table472, hdata,
      stagesFull_downloadBoot hddr_ne husbplug_ne hdata⟩

lemma emptyImages_eq_nil_iff (ddr usbplug : List UInt8) :
    emptyImages ddr usbplug = [] ↔ ddr ≠ [] ∧ usbplug ≠ [] := by
  rw [emptyImages, List.map_eq_nil_iff, List.filter_eq_nil_iff]
  simp

/-- **Bare images are wrapped, unless one is empty.** -/
lemma rawBlobs_right (ddr usbplug : List UInt8) (useRc4 : Bool) :
    (∃ err, rawBlobs ddr usbplug useRc4 = .error (.format err)) ∨
      ∃ blobs, rawBlobs ddr usbplug useRc4 = .ok blobs ∧
        StagesFull (downloadBoot .maskrom blobs) := by
  rw [rawBlobs]
  by_cases hempty : emptyImages ddr usbplug = []
  · obtain ⟨hddr, husbplug⟩ := (emptyImages_eq_nil_iff ddr usbplug).mp hempty
    rw [if_neg (not_not.mpr hempty)]
    refine .inr ⟨_, rfl, stagesFull_downloadBoot (List.cons_ne_nil _ _) (List.cons_ne_nil _ _) ?_⟩
    intro e he
    rcases List.mem_cons.mp he with rfl | he
    · exact hddr
    · rw [List.mem_singleton.mp he]
      exact husbplug
  · rw [if_pos hempty]
    exact .inl ⟨_, rfl⟩

/-- **Loaders are read right when no entry is empty.** -/
theorem loader_right_iff (data ddr usbplug : List UInt8) (useRc4 : Bool) :
    (LoaderRight data ↔ (WellFormed data →
        (declaredTable data 25).NoEmptyBlob data ∧ (declaredTable data 31).NoEmptyBlob data)) ∧
      ((∃ err, rawBlobs ddr usbplug useRc4 = .error (.format err)) ∨
        ∃ blobs, rawBlobs ddr usbplug useRc4 = .ok blobs ∧
          StagesFull (downloadBoot .maskrom blobs)) := by
  refine ⟨?_, rawBlobs_right ddr usbplug useRc4⟩
  by_cases h : WellFormed data
  · have hparse := parseLoader_of_wellFormed h
    rw [LoaderRight, hparse, ← loaderAccepted_iff h]
    constructor
    · rintro (⟨err, herr⟩ | ⟨blobs, hblobs, hright⟩)
      · cases herr
      · obtain rfl := Except.ok.inj hblobs
        exact fun _ => hright
    · exact fun hright => .inr ⟨_, rfl, hright h⟩
  · obtain ⟨e, ⟨err, rfl⟩, herror⟩ := parseLoader_of_not_wellFormed h
    exact ⟨fun _ hwell => absurd hwell h, fun _ => .inl ⟨err, herror⟩⟩

/-- A file whose DDR entry declares an empty blob. -/
def emptyDdrLoader : List UInt8 :=
  tagBoot ++ List.replicate 21 0 ++ [1, 64, 0, 0, 0, 52, 1, 116, 0, 0, 0, 52] ++
    List.replicate 27 0 ++ List.replicate 52 0 ++
      (List.replicate 40 0 ++ [168, 0, 0, 0, 1, 0, 0, 0, 0, 0, 0, 0]) ++ [0xBB]

/-- It is accepted, and nothing is uploaded for the DDR init. -/
theorem parse_loader_accepts_empty : ¬ ∀ data, LoaderRight data := by
  intro h
  have hparse : parseLoader emptyDdrLoader =
      .ok ⟨[⟨[], [], 0⟩], [⟨[], [0xBB], 0⟩], false⟩ := by decide +kernel
  rcases h emptyDdrLoader with ⟨err, herr⟩ | ⟨blobs, hblobs, hright⟩
  · rw [hparse] at herr
    cases herr
  · rw [hparse] at hblobs
    obtain rfl := Except.ok.inj hblobs
    exact hright.data_ne_nil ⟨[], [], 0⟩ (by decide) rfl

end Rockusb

end Defib
