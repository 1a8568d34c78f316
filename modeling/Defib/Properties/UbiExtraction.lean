import Mathlib.Data.List.MinMax
import Mathlib.Data.List.Perm.Basic
import Defib.Ubi.Extract

/-!
# What is extracted from a raw UBI image

For an image that holds every LEB of a volume once, `extract_ubifs` returns the volume
(`extractUbifs_volume`), wherever the LEBs are.  An image may also hold several copies of a LEB,
told apart by their sequence numbers, which `extract_ubifs` does not read: the copy that counts is
the one that comes last in the image.  Absent LEBs are filled up to the size of the LEB that comes
first, which is not the size of the others if the offsets differ from PEB to PEB.
`ubi_positionFree_iff` says exactly when the place of the PEBs does not matter.
-/

namespace Defib

variable {g : UbiGeometry}

/-- The size of a LEB. -/
def UbiGeometry.lebSize (g : UbiGeometry) : ℕ := g.pebSize - g.dataOff

lemma Peb.length_leb (p : Peb g) : p.leb.length = g.lebSize := by
  rw [Peb.leb, List.length_drop, p.length_bytes, UbiGeometry.lebSize]

/-- The image starts with `UBI#`. -/
def StartsWithEcHdr (pebs : List (Peb g)) : Prop := ∃ p ∈ pebs.head?, p.HasEcHdr

/-- The image starts with `UBI#`. -/
def RawStartsWithEcHdr {pebSize : ℕ} (pebs : List (RawPeb pebSize)) : Prop :=
  ∃ p ∈ pebs.head?, p.HasEcHdr

lemma StartsWithEcHdr.toRaw {pebs : List (Peb g)} (h : StartsWithEcHdr pebs) :
    RawStartsWithEcHdr (pebs.map Peb.toRaw) := by
  obtain ⟨p, hp, hec⟩ := h
  exact ⟨p.toRaw, by rw [List.head?_map, Option.mem_def.mp hp]; rfl, hec⟩

section Raw

variable {pebSize : ℕ}

lemma RawStartsWithEcHdr.exists_cons {pebs : List (RawPeb pebSize)}
    (h : RawStartsWithEcHdr pebs) : ∃ p after, pebs = p :: after ∧ p.HasEcHdr := by
  obtain ⟨p, hp, hec⟩ := h
  rcases pebs with _ | ⟨p', after⟩
  · cases hp
  · exact ⟨p', after, rfl, by rwa [Option.some.inj hp]⟩

lemma four_le_pebSize {pebs : List (RawPeb pebSize)} (h : RawStartsWithEcHdr pebs) :
    4 ≤ pebSize := by
  obtain ⟨p, -, -, hec⟩ := h.exists_cons
  have := RawPeb.sizes hec
  omega

lemma isUbiImage_rawImage {pebs : List (RawPeb pebSize)} (h : RawStartsWithEcHdr pebs) :
    isUbiImage (rawImage pebs) = true := by
  have hsize := four_le_pebSize h
  obtain ⟨p, after, rfl, hec⟩ := h.exists_cons
  have hlength : (rawImage (p :: after)).length ≥ 4 := by
    rw [length_rawImage, List.length_cons, Nat.succ_mul]
    omega
  have htake : (rawImage (p :: after)).take 4 = ubiEcMagic := by
    rw [rawImage, List.flatMap_cons, List.take_append_of_le_length (by rw [p.length_bytes]; omega)]
    exact hec
  rw [isUbiImage, htake]
  simp [hlength]

/-- **What `extract_ubifs` makes of an image.** -/
lemma extractUbifs_rawImage (vol : ℕ) {pebs : List (RawPeb pebSize)}
    (h : RawStartsWithEcHdr pebs) :
    extractUbifs (rawImage pebs) pebSize vol = finishUbifs vol (lebsOf vol pebs) := by
  rw [extractUbifs, if_pos (isUbiImage_rawImage h), scanPebs_rawImage vol pebs (four_le_pebSize h)]
  rfl

lemma RawPeb.entry_eq_some_iff {vol : ℕ} {p : RawPeb pebSize} {e : ℕ × List UInt8} :
    p.entry vol = some e ↔ p.OfVolume vol ∧ e = (p.lnum, p.leb) := by
  rw [RawPeb.entry]
  split
  · rename_i h
    simp [h, eq_comm]
  · rename_i h
    simp [h]

/-- What is collected under a number is the data of a PEB of the volume with that number. -/
lemma exists_of_lebsOf {vol : ℕ} {pebs : List (RawPeb pebSize)} {i : ℕ} {leb : List UInt8}
    (h : (lebsOf vol pebs).get? i = some leb) :
    ∃ p ∈ pebs, p.OfVolume vol ∧ p.lnum = i ∧ p.leb = leb := by
  obtain ⟨p, hp, hentry⟩ := List.mem_filterMap.mp (Dict.mem_of_get?_setAll h)
  obtain ⟨hvol, heq⟩ := RawPeb.entry_eq_some_iff.mp hentry
  obtain ⟨rfl, rfl⟩ := Prod.mk.inj heq
  exact ⟨p, hp, hvol, rfl, rfl⟩

/-- Something is collected under the number of every PEB of the volume. -/
lemma lebsOf_of_mem {vol : ℕ} {pebs : List (RawPeb pebSize)} {p : RawPeb pebSize} (hp : p ∈ pebs)
    (hvol : p.OfVolume vol) : ∃ leb, (lebsOf vol pebs).get? p.lnum = some leb := by
  have hmem : (p.lnum, p.leb) ∈ pebs.filterMap (RawPeb.entry vol) :=
    List.mem_filterMap.mpr ⟨p, hp, RawPeb.entry_eq_some_iff.mpr ⟨hvol, rfl⟩⟩
  obtain ⟨e, -, -, hget⟩ := Dict.exists_getLast?_of_mem hmem
  exact ⟨e.2, hget⟩

end Raw

lemma Peb.entry_eq_some_iff {vol : ℕ} {p : Peb g} {e : ℕ × List UInt8} :
    p.entry vol = some e ↔ p.OfVolume vol ∧ e = (p.lnum, p.leb) := by
  rw [Peb.entry]
  split
  · rename_i h
    simp [h, eq_comm]
  · rename_i h
    simp [h]

/-! ## A volume whose LEBs are in the image once -/

/-- A UBIFS volume: its LEBs by number. -/
structure UbiVolume (g : UbiGeometry) where
  lebs : Dict ℕ (List UInt8)
  nodup : (lebs.map Prod.fst).Nodup
  size : ∀ e ∈ lebs, e.2.length = g.lebSize
  /-- LEB 0 starts with the magic number of a UBIFS. -/
  ubifs : ∃ leb, (0, leb) ∈ lebs ∧ leb.take 4 = ubifsMagic

namespace UbiVolume

/-- LEB `i`, or what is read of an erased one. -/
def lebAt (v : UbiVolume g) (i : ℕ) : List UInt8 :=
  (v.lebs.get? i).getD (List.replicate g.lebSize 0xFF)

/-- The LEBs in the order of their numbers, without the erased ones at the end. -/
def contents (v : UbiVolume g) : List UInt8 :=
  (((List.range (maxLeb v.lebs + 1)).map v.lebAt).rdropWhile isErasedLeb).flatten

lemma length_lebAt (v : UbiVolume g) (i : ℕ) : (v.lebAt i).length = g.lebSize := by
  rw [lebAt]
  cases h : v.lebs.get? i with
  | none => exact List.length_replicate
  | some leb => exact v.size _ (Dict.mem_of_get?_eq_some h)

lemma take_lebAt_zero (v : UbiVolume g) : (v.lebAt 0).take 4 = ubifsMagic := by
  obtain ⟨leb, hmem, htake⟩ := v.ubifs
  rw [lebAt, Dict.get?_eq_some_of_mem v.nodup hmem]
  exact htake

lemma not_erased_lebAt_zero (v : UbiVolume g) : ¬ isErasedLeb (v.lebAt 0) = true := by
  intro h
  have htake := v.take_lebAt_zero
  rw [(isErasedLeb_iff _).mp h, List.take_replicate] at htake
  have hfirst := congrArg List.head? htake
  rw [List.head?_replicate] at hfirst
  split at hfirst
  · cases hfirst
  · exact absurd hfirst (by decide)

lemma four_le_lebSize (v : UbiVolume g) : 4 ≤ g.lebSize := by
  have hlength := congrArg List.length v.take_lebAt_zero
  rw [List.length_take, v.length_lebAt] at hlength
  change min 4 g.lebSize = 4 at hlength
  omega

/-- The first LEB is never trimmed. -/
lemma contents_eq (v : UbiVolume g) : v.contents = v.lebAt 0 ++
    (((List.range (maxLeb v.lebs)).map fun i => v.lebAt (i + 1)).rdropWhile
      isErasedLeb).flatten := by
  rw [contents, List.range_succ_eq_map, List.map_cons, List.map_map]
  rw [rdropWhile_cons_of_neg v.not_erased_lebAt_zero, List.flatten_cons]
  rfl

lemma isUbifsImage_contents (v : UbiVolume g) : isUbifsImage v.contents = true := by
  have hsize := v.four_le_lebSize
  have hlength := v.length_lebAt 0
  rw [v.contents_eq, isUbifsImage, List.take_append_of_le_length (by omega), v.take_lebAt_zero,
    List.length_append]
  simp only [beq_self_eq_true, Bool.and_true, decide_eq_true_eq]
  omega

/-- The volume assembled and trimmed. -/
lemma finishUbifs_eq (v : UbiVolume g) (vol : ℕ) : finishUbifs vol v.lebs = .ok v.contents := by
  have hsize := v.size
  have hcontents : trimResult g.lebSize (assembleLebs v.lebs g.lebSize) = v.contents := by
    have hflat : assembleLebs v.lebs g.lebSize = v.lebAt 0 ++
        ((List.range (maxLeb v.lebs)).map fun i => v.lebAt (i + 1)).flatten := by
      rw [assembleLebs, List.range_succ_eq_map, List.flatMap_cons, List.flatMap_map]
      rfl
    have hpos : 0 < g.lebSize := by
      have := v.four_le_lebSize
      omega
    rw [hflat, v.contents_eq]
    refine trimResult_flatten hpos _ _ (v.length_lebAt 0) fun l hl => ?_
    obtain ⟨i, -, rfl⟩ := List.mem_map.mp hl
    exact v.length_lebAt _
  obtain ⟨leb, hmem, -⟩ := v.ubifs
  rw [finishUbifs.eq_def]
  split
  · rename_i hnil
    rw [hnil] at hmem
    cases hmem
  · rename_i k first rest hlebs
    have hfirst : first.length = g.lebSize := hsize (k, first) (by rw [hlebs]; simp)
    rw [hfirst, hcontents]
    exact if_pos v.isUbifsImage_contents

end UbiVolume

/-- **A volume whose LEBs are in the image once is extracted.** -/
theorem extractUbifs_volume (v : UbiVolume g) (vol : ℕ) (pebs : List (Peb g))
    (hplaced : (pebs.filterMap (Peb.entry vol)).Perm v.lebs) (hfirst : StartsWithEcHdr pebs) :
    extractUbifs (imageOf pebs) g.pebSize vol = .ok v.contents := by
  have hnodup : ((pebs.filterMap (Peb.entry vol)).map Prod.fst).Nodup :=
    (hplaced.map Prod.fst).nodup_iff.mpr v.nodup
  have hcollected : lebsOf vol (pebs.map Peb.toRaw) =
      Dict.setAll [] (pebs.filterMap (Peb.entry vol)) := by
    rw [lebsOf, filterMap_entry_toRaw]
  have hget : ∀ i, (lebsOf vol (pebs.map Peb.toRaw)).get? i = v.lebs.get? i := by
    intro i
    refine Option.ext fun leb => ?_
    rw [hcollected, Dict.get?_setAll_iff hnodup, hplaced.mem_iff]
    exact ⟨Dict.get?_eq_some_of_mem v.nodup, Dict.mem_of_get?_eq_some⟩
  have hsize : ∀ e ∈ lebsOf vol (pebs.map Peb.toRaw), e.2.length = g.lebSize := by
    intro e he
    rw [hcollected] at he
    obtain ⟨p, -, hentry⟩ := List.mem_filterMap.mp (Dict.mem_of_mem_setAll he)
    obtain ⟨-, rfl⟩ := Peb.entry_eq_some_iff.mp hentry
    exact p.length_leb
  rw [imageOf_eq_rawImage, extractUbifs_rawImage vol hfirst.toRaw,
    finishUbifs_congr vol hsize v.size hget, v.finishUbifs_eq]

/-- PEBs with LEBs of four bytes. -/
def tinyUbi : UbiGeometry where
  pebSize := 132
  vidOff := 64
  dataOff := 128
  ec_fits := Nat.le_refl _
  vid_fits := Nat.le_refl _
  data_fits := by decide

/-- An EC header with the offsets 64 and 128. -/
def tinyEcHdr : List UInt8 :=
  ubiEcMagic ++ List.replicate 12 0 ++ [0, 0, 0, 64, 0, 0, 0, 128] ++ List.replicate 40 0

/-- A PEB with a LEB of four bytes. -/
def tinyPeb (vol lnum sqnum : ℕ) (leb : List UInt8) (h : leb.length = 4) : Peb tinyUbi where
  bytes := tinyEcHdr ++ (vidMagic ++ List.replicate 4 0 ++ packBe32 vol ++ packBe32 lnum ++
    List.replicate 24 0 ++ packBe32 0 ++ packBe32 sqnum ++ List.replicate 16 0 ++ leb)
  length_bytes := by simp [h, tinyEcHdr, ubiEcMagic, vidMagic, packBe32, tinyUbi]
  offsets _ := by
    rw [List.drop_append_of_le_length (by decide), List.drop_append_of_le_length (by decide),
      readBe32_append _ (by decide), readBe32_append _ (by decide)]
    decide

/-- A volume with a gap, and with an erased LEB at its end. -/
def tinyVolume : UbiVolume tinyUbi where
  lebs := [(0, ubifsMagic), (2, [1, 2, 3, 4]), (3, [0xFF, 0xFF, 0xFF, 0xFF])]
  nodup := by decide
  size := by decide
  ubifs := ⟨ubifsMagic, List.mem_cons_self, rfl⟩

/-- Its LEBs in another order, with a PEB of another volume between them. -/
theorem extractUbifs_tinyVolume :
    extractUbifs (imageOf [tinyPeb 7 3 1 [0xFF, 0xFF, 0xFF, 0xFF] rfl,
      tinyPeb 7 2 2 [1, 2, 3, 4] rfl, tinyPeb 5 0 3 [9, 9, 9, 9] rfl,
      tinyPeb 7 0 4 ubifsMagic rfl]) 132 7 =
      .ok (ubifsMagic ++ [0xFF, 0xFF, 0xFF, 0xFF] ++ [1, 2, 3, 4]) :=
  extractUbifs_volume tinyVolume 7 _ (by decide) ⟨_, rfl, by decide⟩

/-! ## Copies of a LEB -/

section Copies

variable {pebSize : ℕ}

/-- No copy of a LEB of the volume is newer. -/
def RawPeb.Newest (vol : ℕ) (pebs : List (RawPeb pebSize)) (p : RawPeb pebSize) : Prop :=
  p ∈ pebs ∧ p.OfVolume vol ∧
    ∀ q ∈ pebs, q.OfVolume vol → q.lnum = p.lnum → q.sqnum ≤ p.sqnum

end Copies

/-- A raw UBI image.  A LEB may have several copies, and every PEB has offsets of its own. -/
structure RawUbi (pebSize : ℕ) where
  pebs : List (RawPeb pebSize)
  first : RawStartsWithEcHdr pebs
  /-- The LEBs have room for a magic number. -/
  room : ∀ p ∈ pebs, ∀ vol, p.OfVolume vol → 4 ≤ p.leb.length
  /-- Copies of a LEB have different sequence numbers. -/
  sqnums : pebs.Pairwise fun p q =>
    ∀ vol, p.OfVolume vol → q.OfVolume vol → p.lnum = q.lnum → p.sqnum ≠ q.sqnum

namespace RawUbi

variable {pebSize : ℕ}

/-- The volume that is extracted, if one is, does not depend on where the PEBs are, and the LEBs it
is assembled from are the newest copies. -/
def PositionFree (r : RawUbi pebSize) (vol : ℕ) : Prop :=
  ∀ pebs : List (RawPeb pebSize), pebs.Perm r.pebs → RawStartsWithEcHdr pebs →
    (extractUbifs (rawImage pebs) pebSize vol).toOption =
      (extractUbifs (rawImage r.pebs) pebSize vol).toOption ∧
    ∃ lebs, scanPebs (rawImage pebs) pebSize vol = .ok lebs ∧
      ∀ p : RawPeb pebSize, p.Newest vol r.pebs → lebs.get? p.lnum = some p.leb

/-- Copies of a LEB hold the same data. -/
def CopiesAgree (r : RawUbi pebSize) (vol : ℕ) : Prop :=
  ∀ p ∈ r.pebs, ∀ q ∈ r.pebs, p.OfVolume vol → q.OfVolume vol → p.lnum = q.lnum → p.leb = q.leb

/-- LEB 0 starts with the magic number of a UBIFS. -/
def HoldsUbifs (r : RawUbi pebSize) (vol : ℕ) : Prop :=
  ∃ p ∈ r.pebs, p.OfVolume vol ∧ p.lnum = 0 ∧ p.leb.take 4 = ubifsMagic

/-- No LEB is absent before one in which a byte is written. -/
def NoneAbsent (r : RawUbi pebSize) (vol : ℕ) : Prop :=
  ∀ p ∈ r.pebs, p.OfVolume vol → ¬ isErasedLeb p.leb = true →
    ∀ i < p.lnum, ∃ q ∈ r.pebs, q.OfVolume vol ∧ q.lnum = i

/-- A LEB of the image. -/
def lebAt (r : RawUbi pebSize) (vol i : ℕ) : Option (List UInt8) :=
  (r.pebs.find? fun p => p.OfVolume vol ∧ p.lnum = i).map RawPeb.leb

/-- The highest number of a LEB. -/
def lastLnum (r : RawUbi pebSize) (vol : ℕ) : ℕ :=
  ((r.pebs.filter fun p => p.OfVolume vol).map RawPeb.lnum).foldr max 0

/-- The LEBs in the order of their numbers. -/
def lebsInOrder (r : RawUbi pebSize) (vol : ℕ) : List (Option (List UInt8)) :=
  (List.range (r.lastLnum vol + 1)).map (r.lebAt vol)

/-- How many bytes `0xFF` the LEBs end with, put one behind the other. -/
def paddingLength (r : RawUbi pebSize) (vol : ℕ) : ℕ :=
  (((r.lebsInOrder vol).flatMap fun leb => leb.getD []).rtakeWhile (· = 0xFF)).length

/-- It does not matter which LEB says how large an absent one is: the LEBs have one size, or none
is absent where it counts, and the padding at the end is cut down to the same length. -/
def SizesAgree (r : RawUbi pebSize) (vol : ℕ) : Prop :=
  ∀ p ∈ r.pebs, ∀ q ∈ r.pebs, p.OfVolume vol → q.OfVolume vol →
    p.leb.length = q.leb.length ∨ r.NoneAbsent vol ∧
      r.paddingLength vol % p.leb.length = r.paddingLength vol % q.leb.length

variable {r : RawUbi pebSize} {vol : ℕ}

lemma exists_of_lebAt {i : ℕ} {leb : List UInt8} (h : r.lebAt vol i = some leb) :
    ∃ p ∈ r.pebs, p.OfVolume vol ∧ p.lnum = i ∧ p.leb = leb := by
  obtain ⟨p, hfind, rfl⟩ := Option.map_eq_some_iff.mp h
  obtain ⟨hvol, hlnum⟩ : p.OfVolume vol ∧ p.lnum = i := by simpa using List.find?_some hfind
  exact ⟨p, List.mem_of_find?_eq_some hfind, hvol, hlnum, rfl⟩

lemma lebAt_eq_none_iff {i : ℕ} :
    r.lebAt vol i = none ↔ ¬ ∃ p ∈ r.pebs, p.OfVolume vol ∧ p.lnum = i := by
  rw [lebAt, Option.map_eq_none_iff, List.find?_eq_none]
  simp

/-- If copies agree, a LEB is the data of any copy. -/
lemma lebAt_of_agree (h : r.CopiesAgree vol) {p : RawPeb pebSize} (hp : p ∈ r.pebs)
    (hvol : p.OfVolume vol) : r.lebAt vol p.lnum = some p.leb := by
  cases hleb : r.lebAt vol p.lnum with
  | none => exact absurd ⟨p, hp, hvol, rfl⟩ (lebAt_eq_none_iff.mp hleb)
  | some leb =>
      obtain ⟨q, hq, hqvol, hlnum, rfl⟩ := exists_of_lebAt hleb
      rw [h q hq p hp hqvol hvol hlnum]

/-- If copies agree, it is the data of any copy that is collected. -/
lemma get?_lebsOf_of_agree (h : r.CopiesAgree vol) {pebs : List (RawPeb pebSize)}
    (hperm : pebs.Perm r.pebs) (i : ℕ) : (lebsOf vol pebs).get? i = r.lebAt vol i := by
  refine Option.ext fun leb => ⟨fun hget => ?_, fun hleb => ?_⟩
  · obtain ⟨p, hp, hvol, rfl, rfl⟩ := exists_of_lebsOf hget
    exact lebAt_of_agree h (hperm.mem_iff.mp hp) hvol
  · obtain ⟨p, hp, hvol, rfl, rfl⟩ := exists_of_lebAt hleb
    obtain ⟨leb, hget⟩ := lebsOf_of_mem (hperm.mem_iff.mpr hp) hvol
    obtain ⟨q, hq, hqvol, hlnum, rfl⟩ := exists_of_lebsOf hget
    rw [hget, h q (hperm.mem_iff.mp hq) p hp hqvol hvol hlnum]

lemma lnum_le_lastLnum {p : RawPeb pebSize} (hp : p ∈ r.pebs) (hvol : p.OfVolume vol) :
    p.lnum ≤ r.lastLnum vol :=
  (foldr_max_le_iff _ _).mp (Nat.le_refl _) _
    (List.mem_map_of_mem (List.mem_filter.mpr ⟨hp, by simpa using hvol⟩))

lemma maxLeb_lebsOf {pebs : List (RawPeb pebSize)} (hperm : pebs.Perm r.pebs) :
    maxLeb (lebsOf vol pebs) = r.lastLnum vol := by
  refine eq_of_forall_ge_iff fun b => ?_
  rw [maxLeb, lastLnum, foldr_max_le_iff, foldr_max_le_iff]
  constructor
  · intro h i hi
    obtain ⟨p, hp, rfl⟩ := List.mem_map.mp hi
    obtain ⟨hp, hvol⟩ := List.mem_filter.mp hp
    obtain ⟨leb, hget⟩ := lebsOf_of_mem (hperm.mem_iff.mpr hp) (by simpa using hvol)
    exact h _ ((Dict.exists_get?_iff _ _).mp ⟨leb, hget⟩)
  · intro h i hi
    obtain ⟨leb, hget⟩ := (Dict.exists_get?_iff _ _).mpr hi
    obtain ⟨p, hp, hvol, rfl, -⟩ := exists_of_lebsOf hget
    exact h _ (List.mem_map_of_mem
      (List.mem_filter.mpr ⟨hperm.mem_iff.mp hp, by simpa using hvol⟩))

lemma assembleLebs_lebsOf (h : r.CopiesAgree vol) {pebs : List (RawPeb pebSize)}
    (hperm : pebs.Perm r.pebs) (lebSize : ℕ) :
    assembleLebs (lebsOf vol pebs) lebSize = fillLebs lebSize (r.lebsInOrder vol) := by
  rw [assembleLebs_eq_fillLebs, maxLeb_lebsOf hperm, lebsInOrder]
  exact congrArg (fun f => fillLebs lebSize ((List.range (r.lastLnum vol + 1)).map f))
    (funext (get?_lebsOf_of_agree h hperm))

/-! ### The volume by the size of a fill -/

/-- The volume that is extracted if absent LEBs are filled up to a size. -/
def volumeBy (r : RawUbi pebSize) (vol lebSize : ℕ) : Option (List UInt8) :=
  if isUbifsImage (trimResult lebSize (fillLebs lebSize (r.lebsInOrder vol))) then
    some (trimResult lebSize (fillLebs lebSize (r.lebsInOrder vol)))
  else none

lemma finishUbifs_lebsOf (h : r.CopiesAgree vol) {pebs : List (RawPeb pebSize)}
    (hperm : pebs.Perm r.pebs) {k : ℕ} {first : List UInt8} {rest : Dict ℕ (List UInt8)}
    (hlebs : lebsOf vol pebs = (k, first) :: rest) :
    (finishUbifs vol (lebsOf vol pebs)).toOption = r.volumeBy vol first.length := by
  have hassemble := assembleLebs_lebsOf h hperm first.length
  rw [hlebs] at hassemble ⊢
  rw [finishUbifs, hassemble, volumeBy]
  split
  · rfl
  · rfl

/-- The LEB that comes first says how large the fill is. -/
lemma extractUbifs_of_cons (h : r.CopiesAgree vol) {p : RawPeb pebSize}
    {after : List (RawPeb pebSize)} (hperm : (p :: after).Perm r.pebs) (hvol : p.OfVolume vol) :
    (extractUbifs (rawImage (p :: after)) pebSize vol).toOption =
      r.volumeBy vol p.leb.length := by
  obtain ⟨first, rest, hlebs⟩ : ∃ first rest,
      lebsOf vol (p :: after) = (p.lnum, first) :: rest := by
    rw [lebsOf, List.filterMap_cons_some (RawPeb.entry_eq_some_iff.mpr ⟨hvol, rfl⟩)]
    exact Dict.exists_setAll_cons _ _ _
  have hfirst : first = p.leb := by
    have hget := get?_lebsOf_of_agree h hperm p.lnum
    rw [lebAt_of_agree h (hperm.mem_iff.mp List.mem_cons_self) hvol, hlebs, Dict.get?,
      if_pos rfl] at hget
    exact Option.some.inj hget
  rw [extractUbifs_rawImage vol ⟨p, rfl, hvol.1⟩, finishUbifs_lebsOf h hperm hlebs, hfirst]

/-- In any order, one of the LEBs says how large the fill is. -/
lemma extractUbifs_of_perm (h : r.CopiesAgree vol) {pebs : List (RawPeb pebSize)}
    (hperm : pebs.Perm r.pebs) (hfirst : RawStartsWithEcHdr pebs) :
    ((∀ p ∈ r.pebs, ¬ p.OfVolume vol) ∧
      (extractUbifs (rawImage pebs) pebSize vol).toOption = none) ∨
    ∃ p ∈ r.pebs, p.OfVolume vol ∧
      (extractUbifs (rawImage pebs) pebSize vol).toOption = r.volumeBy vol p.leb.length := by
  rw [extractUbifs_rawImage vol hfirst]
  cases hlebs : lebsOf vol pebs with
  | nil =>
      refine .inl ⟨fun p hp hvol => ?_, rfl⟩
      obtain ⟨leb, hget⟩ := lebsOf_of_mem (hperm.mem_iff.mpr hp) hvol
      rw [hlebs, Dict.get?_nil] at hget
      cases hget
  | cons e rest =>
      obtain ⟨k, first⟩ := e
      have hget : (lebsOf vol pebs).get? k = some first := by
        rw [hlebs, Dict.get?, if_pos rfl]
      obtain ⟨p, hp, hvol, -, rfl⟩ := exists_of_lebsOf hget
      exact .inr ⟨p, hperm.mem_iff.mp hp, hvol, hlebs ▸ finishUbifs_lebsOf h hperm hlebs⟩

/-- Among the copies of a LEB there is a newest one. -/
lemma exists_newest {pebs : List (RawPeb pebSize)} {p : RawPeb pebSize} (hp : p ∈ pebs)
    (hvol : p.OfVolume vol) : ∃ q : RawPeb pebSize, q.Newest vol pebs ∧ q.lnum = p.lnum := by
  have hmem : p ∈ pebs.filter fun q => q.OfVolume vol ∧ q.lnum = p.lnum :=
    List.mem_filter.mpr ⟨hp, by simpa using hvol⟩
  obtain ⟨q, hq⟩ : ∃ q, q ∈ List.argmax RawPeb.sqnum
      (pebs.filter fun q => q.OfVolume vol ∧ q.lnum = p.lnum) :=
    Option.ne_none_iff_exists'.mp fun hnone => by
      rw [List.argmax_eq_none.mp hnone] at hmem
      cases hmem
  obtain ⟨hqmem, hqvol⟩ := List.mem_filter.mp (List.argmax_mem hq)
  obtain ⟨hqvol, hlnum⟩ : q.OfVolume vol ∧ q.lnum = p.lnum := by simpa using hqvol
  refine ⟨q, ⟨hqmem, hqvol, fun q' hq' hvol' hlnum' => ?_⟩, hlnum⟩
  refine not_lt.mp (List.not_lt_of_mem_argmax (List.mem_filter.mpr ⟨hq', ?_⟩) hq)
  simpa using ⟨hvol', hlnum'.trans hlnum⟩

/-- A PEB can be put in front of the others. -/
lemma exists_perm_cons {pebs : List (RawPeb pebSize)} {p : RawPeb pebSize} (hp : p ∈ pebs) :
    ∃ after, (p :: after).Perm pebs := by
  obtain ⟨before, after, rfl⟩ := List.append_of_mem hp
  exact ⟨before ++ after, List.perm_middle.symm⟩

/-- The copy that comes last counts, be it the newest or not. -/
lemma agree_of_positionFree (h : r.PositionFree vol) : r.CopiesAgree vol := by
  -- every copy holds what the newest does: else it could be moved to the end of the image
  have hnewest : ∀ p q : RawPeb pebSize, p.Newest vol r.pebs → q ∈ r.pebs → q.OfVolume vol →
      q.lnum = p.lnum → q.leb = p.leb := by
    intro p q hp hq hqvol hlnum
    by_contra hne
    obtain ⟨after, hpfirst⟩ := exists_perm_cons hp.1
    have hq' : q ∈ after := by
      rcases List.mem_cons.mp (hpfirst.mem_iff.mpr hq) with rfl | hq
      · exact absurd rfl hne
      · exact hq
    obtain ⟨after', hqfirst⟩ := exists_perm_cons hq'
    have hperm : (p :: after' ++ [q]).Perm r.pebs := by
      refine List.Perm.trans ?_ hpfirst
      exact ((List.perm_append_singleton q after').trans hqfirst).cons p
    obtain ⟨-, lebs, hscan, hget⟩ := h _ hperm ⟨p, rfl, hp.2.1.1⟩
    rw [scanPebs_rawImage vol _ (four_le_pebSize r.first)] at hscan
    obtain rfl := Except.ok.inj hscan
    have hp' := hget p hp
    rw [lebsOf_append_singleton, RawPeb.entry_eq_some_iff.mpr ⟨hqvol, rfl⟩, Option.elim_some,
      ← hlnum, Dict.get?_set_self] at hp'
    exact hne (Option.some.inj hp')
  intro p hp q hq hpvol hqvol hlnum
  obtain ⟨m, hm, hmlnum⟩ := exists_newest hp hpvol
  rw [hnewest m p hm hp hpvol hmlnum.symm, hnewest m q hm hq hqvol (by rw [hmlnum, hlnum])]

/-- The order matters as far as it says which LEB comes first. -/
lemma positionFree_iff_volumeBy (r : RawUbi pebSize) (vol : ℕ) :
    r.PositionFree vol ↔ r.CopiesAgree vol ∧ ∀ p ∈ r.pebs, ∀ q ∈ r.pebs, p.OfVolume vol →
      q.OfVolume vol → r.volumeBy vol p.leb.length = r.volumeBy vol q.leb.length := by
  constructor
  · intro h
    have hagree := agree_of_positionFree h
    refine ⟨hagree, fun p hp q hq hpvol hqvol => ?_⟩
    obtain ⟨after, hpfirst⟩ := exists_perm_cons hp
    obtain ⟨after', hqfirst⟩ := exists_perm_cons hq
    rw [← extractUbifs_of_cons hagree hpfirst hpvol, ← extractUbifs_of_cons hagree hqfirst hqvol,
      (h _ hpfirst ⟨p, rfl, hpvol.1⟩).1, (h _ hqfirst ⟨q, rfl, hqvol.1⟩).1]
  · rintro ⟨hagree, hsize⟩ pebs hperm hfirst
    refine ⟨?_, lebsOf vol pebs, scanPebs_rawImage vol pebs (four_le_pebSize hfirst),
      fun p hp => ?_⟩
    · rcases extractUbifs_of_perm hagree hperm hfirst with ⟨hnone, heq⟩ | ⟨p, hp, hpvol, heq⟩
      · rcases extractUbifs_of_perm hagree (.refl _) r.first with ⟨-, heq'⟩ | ⟨q, hq, hqvol, -⟩
        · rw [heq, heq']
        · exact absurd hqvol (hnone q hq)
      · rcases extractUbifs_of_perm hagree (.refl _) r.first with ⟨hnone, -⟩ | ⟨q, hq, hqvol, heq'⟩
        · exact absurd hpvol (hnone p hp)
        · rw [heq, heq', hsize p hp q hq hpvol hqvol]
    · rw [get?_lebsOf_of_agree hagree hperm, lebAt_of_agree hagree hp.1 hp.2.1]

/-- The first LEB comes first. -/
lemma fillLebs_lebsInOrder (r : RawUbi pebSize) (vol lebSize : ℕ) :
    ∃ behind, fillLebs lebSize (r.lebsInOrder vol) =
      (r.lebAt vol 0).getD (List.replicate lebSize 0xFF) ++ behind := by
  rw [lebsInOrder, List.range_succ_eq_map, List.map_cons, fillLebs_cons]
  exact ⟨_, rfl⟩

/-- Without a magic number in LEB 0 no fill makes a UBIFS. -/
lemma volumeBy_eq_none (h : ¬ r.HoldsUbifs vol) {lebSize : ℕ} (hsize : 4 ≤ lebSize) :
    r.volumeBy vol lebSize = none := by
  refine if_neg fun hubifs => h ?_
  have htrimmed := (isUbifsImage_iff _).mp hubifs
  have htake : (fillLebs lebSize (r.lebsInOrder vol)).take 4 = ubifsMagic := by
    obtain ⟨cut, hcut⟩ := trimResult_prefix lebSize (fillLebs lebSize (r.lebsInOrder vol))
    have hlength := congrArg List.length htrimmed
    rw [List.length_take] at hlength
    change min 4 _ = 4 at hlength
    rw [← hcut, List.take_append_of_le_length (by omega), htrimmed]
  obtain ⟨behind, hbehind⟩ := r.fillLebs_lebsInOrder vol lebSize
  rw [hbehind] at htake
  cases hleb : r.lebAt vol 0 with
  | none =>
      rw [hleb, Option.getD_none,
        List.take_append_of_le_length (by rw [List.length_replicate]; exact hsize),
        List.take_replicate, Nat.min_eq_left hsize] at htake
      exact absurd htake (by decide)
  | some leb =>
      obtain ⟨p, hp, hvol, hlnum, rfl⟩ := exists_of_lebAt hleb
      rw [hleb, Option.getD_some, List.take_append_of_le_length (r.room p hp vol hvol)] at htake
      exact ⟨p, hp, hvol, hlnum, htake⟩

lemma getElem?_lebsInOrder {i : ℕ} (h : i ≤ r.lastLnum vol) :
    (r.lebsInOrder vol)[i]? = some (r.lebAt vol i) := by
  rw [lebsInOrder, List.getElem?_map, List.getElem?_range (by omega)]
  rfl

lemma exists_of_getElem?_lebsInOrder {i : ℕ} {leb : Option (List UInt8)}
    (h : (r.lebsInOrder vol)[i]? = some leb) : r.lebAt vol i = leb := by
  obtain ⟨hi, -⟩ := List.getElem?_eq_some_iff.mp h
  rw [lebsInOrder, List.length_map, List.length_range] at hi
  rw [getElem?_lebsInOrder (by omega)] at h
  exact Option.some.inj h

/-- No LEB is absent before the last one in which a byte is written. -/
lemma noneAbsent_iff (hagree : r.CopiesAgree vol) {before after : List (Option (List UInt8))}
    {leb : List UInt8} (horder : r.lebsInOrder vol = before ++ some leb :: after)
    (hleb : ¬ isErasedLeb leb = true) (hafter : AllErased after) :
    r.NoneAbsent vol ↔ none ∉ before := by
  have hbefore : ∀ i < before.length, before[i]? = (r.lebsInOrder vol)[i]? := by
    intro i hi
    rw [horder, List.getElem?_append_left hi]
  constructor
  · intro h hnone
    have hlast : r.lebAt vol before.length = some leb := exists_of_getElem?_lebsInOrder (by
      rw [horder, List.getElem?_append_right (Nat.le_refl _), Nat.sub_self]
      rfl)
    obtain ⟨p, hp, hvol, hlnum, rfl⟩ := exists_of_lebAt hlast
    obtain ⟨i, hi⟩ := List.mem_iff_getElem?.mp hnone
    obtain ⟨hlt, -⟩ := List.getElem?_eq_some_iff.mp hi
    rw [hbefore i hlt] at hi
    exact lebAt_eq_none_iff.mp (exists_of_getElem?_lebsInOrder hi)
      (h p hp hvol hleb i (by rw [hlnum]; exact hlt))
  · intro h p hp hvol hwritten i hi
    by_contra hnone
    have hget := getElem?_lebsInOrder (lnum_le_lastLnum hp hvol)
    rw [lebAt_of_agree hagree hp hvol] at hget
    -- the LEB is not behind the last one
    have hle : p.lnum ≤ before.length := by
      by_contra hbehind
      obtain ⟨j, hj⟩ : ∃ j, p.lnum - before.length = j + 1 :=
        ⟨p.lnum - before.length - 1, by omega⟩
      rw [horder, List.getElem?_append_right (by omega), hj, List.getElem?_cons_succ] at hget
      exact hwritten (hafter _ (List.mem_of_getElem? hget))
    have hlnum := lnum_le_lastLnum hp hvol
    refine h (List.mem_iff_getElem?.mpr ⟨i, ?_⟩)
    rw [hbefore i (by omega), getElem?_lebsInOrder (by omega), lebAt_eq_none_iff.mpr hnone]

/-- With a magic number in LEB 0, what is extracted are the LEBs up to the last byte that is written,
and some padding. -/
lemma exists_volumeBy_eq (hagree : r.CopiesAgree vol) (hubifs : r.HoldsUbifs vol) :
    ∃ (before : List (Option (List UInt8))) (front : List UInt8) (x : UInt8), x ≠ 0xFF ∧
      (r.NoneAbsent vol ↔ none ∉ before) ∧ ∀ lebSize, r.volumeBy vol lebSize =
        some (fillLebs lebSize before ++ front ++
          x :: List.replicate (r.paddingLength vol % lebSize) 0xFF) := by
  obtain ⟨p, hp, hvol, hlnum, hmagic⟩ := hubifs
  have hroom := r.room p hp vol hvol
  have hzero : r.lebAt vol 0 = some p.leb := hlnum ▸ lebAt_of_agree hagree hp hvol
  have hwritten : ¬ AllErased (r.lebsInOrder vol) := by
    intro h
    have hmem : some p.leb ∈ r.lebsInOrder vol := List.mem_of_getElem? (i := 0) (by
      rw [getElem?_lebsInOrder (Nat.zero_le _), hzero])
    rw [(isErasedLeb_iff _).mp (h _ hmem), List.take_replicate, Nat.min_eq_left hroom] at hmagic
    exact absurd hmagic (by decide)
  obtain ⟨before, leb, after, horder, hleb, hafter⟩ := exists_last_written hwritten
  obtain ⟨front, x, k, rfl, hx⟩ := exists_last_byte hleb
  refine ⟨before, front, x, hx, noneAbsent_iff hagree horder hleb hafter, fun lebSize => ?_⟩
  have hpadding : r.paddingLength vol = k + (fillLebs 0 after).length := by
    rw [← length_rtakeWhile_fillLebs hx hafter, ← horder]
    rfl
  have hfill : (fillLebs lebSize (r.lebsInOrder vol)).take 4 = ubifsMagic := by
    obtain ⟨behind, hbehind⟩ := r.fillLebs_lebsInOrder vol lebSize
    rw [hbehind, hzero, Option.getD_some, List.take_append_of_le_length hroom, hmagic]
  rw [horder, fillLebs_eq_padding lebSize hafter] at hfill
  rw [volumeBy, horder, trimResult_fillLebs lebSize hx hafter, ← hpadding,
    if_pos ((isUbifsImage_iff _).mpr (take_ubifsMagic_of_padding _ hfill))]

/-- Two sizes of a fill give the same volume exactly when no LEB is absent where it counts and the
padding is cut down to the same length. -/
lemma volumeBy_eq_iff (hagree : r.CopiesAgree vol) (hubifs : r.HoldsUbifs vol) {a b : ℕ} :
    r.volumeBy vol a = r.volumeBy vol b ↔
      a = b ∨ r.NoneAbsent vol ∧ r.paddingLength vol % a = r.paddingLength vol % b := by
  obtain ⟨before, front, x, hx, hnone, hvolume⟩ := exists_volumeBy_eq hagree hubifs
  rw [hvolume a, hvolume b, Option.some.injEq]
  constructor
  · intro h
    obtain ⟨hfront, hpadding⟩ := padding_inj hx h
    rcases fillLebs_eq_iff.mp (List.append_cancel_right hfront) with hab | hbefore
    · exact .inl hab
    · exact .inr ⟨hnone.mpr hbefore, hpadding⟩
  · rintro (rfl | ⟨habsent, hpadding⟩)
    · rfl
    · rw [fillLebs_of_not_mem (hnone.mp habsent) a b, hpadding]

end RawUbi

/-- **Where the PEBs are does not matter exactly when** copies of a LEB agree and, if there is a
UBIFS, it does not matter which LEB says how large an absent one is. -/
theorem ubi_positionFree_iff {pebSize : ℕ} (r : RawUbi pebSize) (vol : ℕ) :
    r.PositionFree vol ↔ r.CopiesAgree vol ∧ (r.HoldsUbifs vol → r.SizesAgree vol) := by
  rw [RawUbi.positionFree_iff_volumeBy]
  refine and_congr_right fun hagree => ?_
  by_cases hubifs : r.HoldsUbifs vol
  · rw [forall_prop_of_true hubifs]
    exact forall₂_congr fun p _ => forall₂_congr fun q _ => forall₂_congr fun _ _ =>
      RawUbi.volumeBy_eq_iff hagree hubifs
  · refine iff_of_true (fun p hp q hq hpvol hqvol => ?_) fun h => absurd h hubifs
    rw [RawUbi.volumeBy_eq_none hubifs (r.room p hp vol hpvol),
      RawUbi.volumeBy_eq_none hubifs (r.room q hq vol hqvol)]

/-- A LEB written again, whose old copy comes last. -/
def staleUbi : RawUbi tinyUbi.pebSize where
  pebs := [(tinyPeb 0 0 2 ubifsMagic rfl).toRaw, (tinyPeb 0 1 2 [2, 2, 2, 2] rfl).toRaw,
    (tinyPeb 0 1 1 [1, 1, 1, 1] rfl).toRaw]
  first := ⟨_, rfl, by decide⟩
  room := by
    intro p hp vol _
    simp only [List.mem_cons, List.not_mem_nil, or_false] at hp
    rcases hp with rfl | rfl | rfl
    · decide
    · decide
    · decide
  sqnums := by
    refine List.Pairwise.cons ?_ (List.Pairwise.cons ?_ (List.pairwise_singleton _ _))
    · intro q hq vol _ _ hlnum
      rcases List.mem_pair.mp hq with rfl | rfl
      · exact absurd hlnum (by decide)
      · exact absurd hlnum (by decide)
    · intro q hq vol _ _ _
      rw [List.mem_singleton.mp hq]
      decide

/-- The old copy counts. -/
theorem ubi_restores_stale_copy : ¬ staleUbi.PositionFree 0 := by
  intro h
  have hagree := RawUbi.agree_of_positionFree h (tinyPeb 0 1 2 [2, 2, 2, 2] rfl).toRaw
    (by simp [staleUbi]) (tinyPeb 0 1 1 [1, 1, 1, 1] rfl).toRaw (by simp [staleUbi]) (by decide)
    (by decide) (by decide)
  exact absurd hagree (by decide)

end Defib
