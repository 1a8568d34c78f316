import Defib.Boot.SplImage

/-!
# Where the SPL code ends

`_detect_spl_size` looks for the header of a compressed payload between `0x4000` and `0x10000` and
has the upload end below it.  `spl_detection_iff` says for which images it does.  It reads up to
four bytes behind the one it is at: an image that ends in the first bytes of a gzip header makes it
raise, and one that ends in an LZMA header without the last byte of its dictionary size is read as
if a zero followed.  Where a header is complete, neither matters.
-/

namespace Defib

variable {firmware : List UInt8} {i j : ℕ}

/-! ## Headers -/

/-- An LZMA header with a dictionary size of 64 KiB to 16 MiB. -/
def StartsLzma (firmware : List UInt8) (i : ℕ) : Prop :=
  i + 5 ≤ firmware.length ∧ firmware[i]? = some 0x5D ∧
    ∃ n, 16 ≤ n ∧ n ≤ 24 ∧ readLe32 (firmware.drop (i + 1)) = 2 ^ n

/-- A gzip header. -/
def StartsGzip (firmware : List UInt8) (i : ℕ) : Prop := [0x1F, 0x8B, 0x08] <+: firmware.drop i

def StartsHeader (firmware : List UInt8) (i : ℕ) : Prop :=
  StartsLzma firmware i ∨ StartsGzip firmware i

/-- The image ends within a gzip header. -/
def CutGzip (firmware : List UInt8) (i : ℕ) : Prop :=
  firmware.drop i = [0x1F] ∨ firmware.drop i = [0x1F, 0x8B]

/-- The image ends within an LZMA header, and would have one if a zero followed. -/
def CutLzma (firmware : List UInt8) (i : ℕ) : Prop :=
  ∃ n < 8, firmware.drop i = [0x5D, 0x00, 0x00, UInt8.ofNat (2 ^ n)]

/-- An offset that is looked at. -/
def InScan (firmware : List UInt8) (i : ℕ) : Prop :=
  0x4000 ≤ i ∧ i < min firmware.length 0x10000

lemma mem_markerOffsets : i ∈ markerOffsets firmware ↔ InScan firmware i := by
  rw [markerOffsets, List.mem_filter, List.mem_range, decide_eq_true_eq, InScan, and_comm]

lemma validLzmaDict_iff {ds : ℕ} : validLzmaDict ds = true ↔ ∃ n, 16 ≤ n ∧ n ≤ 24 ∧ ds = 2 ^ n := by
  rw [validLzmaDict, List.any_eq_true]
  refine exists_congr fun n => ?_
  rw [List.mem_range'_1, decide_eq_true_eq, and_assoc]
  exact and_congr_right fun _ => and_congr_left fun _ => by omega

/-- A dictionary size that is cut off has its highest byte last. -/
lemma readLe32_cut_iff {tail : List UInt8} (h : tail.length < 4) :
    (∃ n, 16 ≤ n ∧ n ≤ 24 ∧ readLe32 tail = 2 ^ n) ↔
      ∃ n < 8, tail = [0x00, 0x00, UInt8.ofNat (2 ^ n)] := by
  have hzero : (0 : UInt8).toNat = 0 := rfl
  constructor
  · rintro ⟨n, hle, -, hread⟩
    obtain ⟨m, rfl⟩ : ∃ m, n = m + 16 := ⟨n - 16, by omega⟩
    have ha := (tail.getD 0 0).toNat_lt
    have hb := (tail.getD 1 0).toNat_lt
    have hc := (tail.getD 2 0).toNat_lt
    have hd : tail.getD 3 0 = 0 := List.getD_eq_default _ _ (by omega)
    rw [readLe32, hd, hzero, pow_add] at hread
    have hvalues : (tail.getD 0 0).toNat = 0 ∧ (tail.getD 1 0).toNat = 0 ∧
        (tail.getD 2 0).toNat = 2 ^ m := by omega
    have hthree : tail.length = 3 := by
      by_contra hne
      have hnone : tail.getD 2 0 = 0 := List.getD_eq_default _ _ (by omega)
      have hpos := Nat.two_pow_pos m
      rw [hnone, hzero] at hvalues
      omega
    have hm : m < 8 := by
      by_contra hm
      have := Nat.pow_le_pow_right (n := 2) (by decide) (Nat.not_lt.mp hm)
      omega
    obtain ⟨a, b, c, rfl⟩ := List.length_eq_three.mp hthree
    refine ⟨m, hm, ?_⟩
    rw [← hvalues.2.2]
    simp only [List.getD_cons_zero, List.getD_cons_succ] at hvalues ⊢
    rw [UInt8.ofNat_toNat, UInt8.toNat_inj.mp (hvalues.1.trans hzero.symm),
      UInt8.toNat_inj.mp (hvalues.2.1.trans hzero.symm)]
  · rintro ⟨n, hn, rfl⟩
    have hc : (UInt8.ofNat (2 ^ n)).toNat = 2 ^ n := by
      rw [UInt8.toNat_ofNat', Nat.mod_eq_of_lt (Nat.pow_lt_pow_right (by decide) hn)]
    refine ⟨n + 16, by omega, by omega, ?_⟩
    simp only [readLe32, List.getD_cons_zero, List.getD_cons_succ, List.getD_nil, hc]
    rw [hzero, pow_add]
    omega

/-- `markerAt` reads what the image has from the offset on. -/
lemma markerAt_eq (firmware : List UInt8) (i : ℕ) :
    markerAt firmware i = markerAt (firmware.drop i) 0 := by
  rw [markerAt, markerAt, List.getElem?_drop, List.getElem?_drop, List.getElem?_drop,
    List.drop_drop]
  rfl

lemma markerAt_lzma {tail : List UInt8} :
    markerAt (0x5D :: tail) 0 = .ok true ↔
      (4 ≤ tail.length ∧ ∃ n, 16 ≤ n ∧ n ≤ 24 ∧ readLe32 tail = 2 ^ n) ∨
        ∃ n < 8, tail = [0x00, 0x00, UInt8.ofNat (2 ^ n)] := by
  have hmarker : markerAt (0x5D :: tail) 0 = .ok (validLzmaDict (readLe32 tail)) := rfl
  rw [hmarker, Except.ok.injEq, validLzmaDict_iff]
  rcases Nat.lt_or_ge tail.length 4 with hlt | hge
  · rw [readLe32_cut_iff hlt]
    exact (or_iff_right fun h => absurd h.1 (by omega)).symm
  · refine ⟨fun h => .inl ⟨hge, h⟩, ?_⟩
    rintro (h | ⟨n, -, rfl⟩)
    · exact h.2
    · exact absurd hge (by simp)

lemma markerAt_gzip {tail : List UInt8} :
    (markerAt (0x1F :: tail) 0 = .ok true ↔ [0x8B, 0x08] <+: tail) ∧
      ((∃ e, markerAt (0x1F :: tail) 0 = .error e) ↔ tail = [] ∨ tail = [0x8B]) := by
  cases tail with
  | nil =>
      have hmarker : markerAt [0x1F] 0 = .error "index out of range" := rfl
      rw [hmarker]
      simp
  | cons b tail =>
      by_cases hb : b = 0x8B
      · subst hb
        cases tail with
        | nil =>
            have hmarker : markerAt [0x1F, 0x8B] 0 = .error "index out of range" := rfl
            rw [hmarker]
            simp
        | cons c tail =>
            have hmarker : markerAt (0x1F :: 0x8B :: c :: tail) 0 = .ok (decide (c = 0x08)) := rfl
            rw [hmarker]
            simpa [List.cons_prefix_cons] using eq_comm
      · have hmarker : markerAt (0x1F :: b :: tail) 0 = .ok false := if_neg hb
        rw [hmarker]
        simp [hb, Ne.symm hb, List.cons_prefix_cons]

lemma markerAt_other {a : UInt8} {tail : List UInt8} (hlzma : a ≠ 0x5D) (hgzip : a ≠ 0x1F) :
    markerAt (a :: tail) 0 = .ok false := by
  have hfirst : ∀ b : UInt8, a ≠ b → (a :: tail)[0]? ≠ some b :=
    fun b hne h => hne (Option.some.inj h)
  rw [markerAt, if_neg (hfirst _ hlzma), if_neg (hfirst _ hgzip)]

/-- **What is taken for a marker**: a header, or an LZMA header that the image cuts off. -/
lemma markerAt_eq_true_iff :
    markerAt firmware i = .ok true ↔ StartsHeader firmware i ∨ CutLzma firmware i := by
  have hlzma : StartsLzma firmware i ↔ ∃ tail, firmware.drop i = 0x5D :: tail ∧
      4 ≤ tail.length ∧ ∃ n, 16 ≤ n ∧ n ≤ 24 ∧ readLe32 tail = 2 ^ n := by
    have hfirst : firmware[i]? = (firmware.drop i)[0]? := by rw [List.getElem?_drop, Nat.add_zero]
    have htail : firmware.drop (i + 1) = (firmware.drop i).drop 1 := List.drop_drop.symm
    have hlen : i + 5 ≤ firmware.length ↔ 5 ≤ (firmware.drop i).length := by
      rw [List.length_drop]
      omega
    rw [StartsLzma, hlen, hfirst, htail]
    cases firmware.drop i with
    | nil => simp
    | cons a tail => simp [and_left_comm]
  rw [markerAt_eq, StartsHeader, hlzma, StartsGzip, CutLzma]
  cases firmware.drop i with
  | nil => simp [markerAt]
  | cons a tail =>
      by_cases ha : a = 0x5D
      · subst ha
        rw [markerAt_lzma]
        simp
      · by_cases hb : a = 0x1F
        · subst hb
          rw [markerAt_gzip.1]
          simp
        · rw [markerAt_other ha hb]
          simp [ha, Ne.symm hb]

lemma markerAt_eq_error_iff :
    (∃ e, markerAt firmware i = .error e) ↔ CutGzip firmware i := by
  rw [markerAt_eq, CutGzip]
  cases firmware.drop i with
  | nil => simp [markerAt]
  | cons a tail =>
      by_cases ha : a = 0x1F
      · subst ha
        rw [markerAt_gzip.2]
        simp
      · by_cases hb : a = 0x5D
        · subst hb
          have hmarker : markerAt (0x5D :: tail) 0 = .ok (validLzmaDict (readLe32 tail)) := rfl
          rw [hmarker]
          simp
        · rw [markerAt_other hb ha]
          simp [ha]

lemma not_of_passedOver (h : markerAt firmware i = .ok false) :
    ¬ StartsHeader firmware i ∧ ¬ CutLzma firmware i ∧ ¬ CutGzip firmware i := by
  have htrue : ¬ markerAt firmware i = .ok true := by rw [h]; simp
  have herror : ¬ ∃ e, markerAt firmware i = .error e := by rw [h]; simp
  rw [markerAt_eq_true_iff, not_or] at htrue
  rw [markerAt_eq_error_iff] at herror
  exact ⟨htrue.1, htrue.2, herror⟩

lemma StartsHeader.add_three_le (h : StartsHeader firmware i) : i + 3 ≤ firmware.length := by
  rcases h with ⟨hlen, -⟩ | hgzip
  · omega
  · have hlen := hgzip.length_le
    rw [List.length_drop, List.length_cons, List.length_cons, List.length_singleton] at hlen
    omega

lemma CutGzip.length_le (h : CutGzip firmware i) : firmware.length ≤ i + 2 := by
  have hlen : (firmware.drop i).length ≤ 2 := by
    rcases h with h | h <;> rw [h] <;> decide
  rw [List.length_drop] at hlen
  omega

lemma CutLzma.length_eq (h : CutLzma firmware i) : firmware.length = i + 4 := by
  obtain ⟨n, -, hdrop⟩ := h
  have hlen := congrArg List.length hdrop
  rw [List.length_drop] at hlen
  simp only [List.length_cons, List.length_nil] at hlen
  omega

/-- From an LZMA header that is cut off, nothing else begins. -/
lemma CutLzma.alone (h : CutLzma firmware i) (hle : i ≤ j) :
    ¬ StartsHeader firmware j ∧ ¬ CutGzip firmware j ∧ (CutLzma firmware j → j = i) := by
  have hlen := h.length_eq
  obtain ⟨n, hn, hdrop⟩ := h
  obtain ⟨k, rfl⟩ := Nat.exists_eq_add_of_le hle
  have hrest : firmware.drop (i + k) = [0x5D, 0x00, 0x00, UInt8.ofNat (2 ^ n)].drop k := by
    rw [← hdrop, List.drop_drop]
  have hlast : UInt8.ofNat (2 ^ n) ≠ 0x1F ∧ UInt8.ofNat (2 ^ n) ≠ 0x8B := by
    have hall : ∀ n < 8, UInt8.ofNat (2 ^ n) ≠ 0x1F ∧ UInt8.ofNat (2 ^ n) ≠ 0x8B := by decide
    exact hall n hn
  refine ⟨fun hheader => ?_, fun hcut => ?_, fun hcut => ?_⟩
  · have hthree := hheader.add_three_le
    rcases hheader with ⟨hfive, -⟩ | hgzip
    · omega
    · rw [StartsGzip, hrest] at hgzip
      obtain rfl | rfl : k = 0 ∨ k = 1 := by omega
      · exact absurd (List.cons_prefix_cons.mp hgzip).1 (by decide)
      · exact absurd (List.cons_prefix_cons.mp hgzip).1 (by decide)
  · rw [CutGzip, hrest] at hcut
    rcases k with _ | _ | _ | _ | k <;> simp [hlast] at hcut
  · have := hcut.length_eq
    omega

/-! ## The loop -/

/-- The loop stops at the first offset that is not passed over. -/
lemma detectLoop_cases {is : List ℕ} (hsorted : is.Pairwise (· < ·)) :
    (∀ j ∈ is, markerAt firmware j = .ok false) ∧ detectLoop firmware is = .ok none ∨
      ∃ i ∈ is, (∀ j ∈ is, j < i → markerAt firmware j = .ok false) ∧
        (markerAt firmware i = .ok true ∧
            detectLoop firmware is = .ok (some (i / 1024 * 1024)) ∨
          ∃ e, markerAt firmware i = .error e ∧ detectLoop firmware is = .error e) := by
  induction is with
  | nil => exact .inl ⟨fun j hj => absurd hj List.not_mem_nil, rfl⟩
  | cons k is ih =>
      obtain ⟨hk, hsorted⟩ := List.pairwise_cons.mp hsorted
      have hfirst : ∀ j ∈ k :: is, j < k → markerAt firmware j = .ok false := by
        intro j hj hlt
        rcases List.mem_cons.mp hj with rfl | hj
        · exact absurd hlt (lt_irrefl j)
        · exact absurd hlt (hk j hj).not_gt
      rw [detectLoop]
      cases hmarker : markerAt firmware k with
      | error e => exact .inr ⟨k, List.mem_cons_self, hfirst, .inr ⟨e, hmarker, rfl⟩⟩
      | ok found =>
          cases found with
          | true => exact .inr ⟨k, List.mem_cons_self, hfirst, .inl ⟨hmarker, rfl⟩⟩
          | false =>
              rcases ih hsorted with ⟨hnone, hloop⟩ | ⟨i, hi, hbefore, hstop⟩
              · exact .inl ⟨List.forall_mem_cons.mpr ⟨hmarker, hnone⟩, hloop⟩
              · exact .inr ⟨i, List.mem_cons_of_mem k hi,
                  List.forall_mem_cons.mpr ⟨fun _ => hmarker, hbefore⟩, hstop⟩

lemma markerOffsets_pairwise (firmware : List UInt8) :
    (markerOffsets firmware).Pairwise (· < ·) :=
  List.Pairwise.filter _ List.pairwise_lt_range

/-! ## The boundary -/

/-- A boundary, capped at the limit. -/
def capAt (sramLimit : Option ℕ) (boundary : ℕ) : ℕ := sramLimit.elim boundary (min boundary)

lemma capBoundary_some (profileMax : ℕ) (sramLimit : Option ℕ) (boundary : ℕ) :
    capBoundary profileMax sramLimit (some boundary) = capAt sramLimit boundary := by
  cases sramLimit with
  | none => rfl
  | some limit =>
      rw [capAt, Option.elim_some, min_def]
      dsimp only [capBoundary]
      split_ifs <;> omega

/-- The first header that is looked at. -/
structure FirstHeader (firmware : List UInt8) (i : ℕ) : Prop where
  scanned : InScan firmware i
  starts : StartsHeader firmware i
  first : ∀ j < i, InScan firmware j → ¬ StartsHeader firmware j

/-- The upload ends below the first header and within the limit, or where the profile has it. -/
structure EndsBelowPayload (firmware : List UInt8) (profileMax : ℕ) (sramLimit : Option ℕ)
    (size : ℕ) : Prop where
  limited : ∀ limit, sramLimit = some limit → size ≤ limit
  rounded : ∀ i, FirstHeader firmware i → size = capAt sramLimit (i / 1024 * 1024)
  below : ∀ i, FirstHeader firmware i → size ≤ i
  fallback : (∀ i, InScan firmware i → ¬ StartsHeader firmware i) → size = profileMax

/-- The image has a header in the part that is looked at, or does not end within one there. -/
def EndsOutsideHeader (firmware : List UInt8) (profileMax : ℕ) (sramLimit : Option ℕ) : Prop :=
  (∃ i, InScan firmware i ∧ StartsHeader firmware i) ∨
    (∀ i, InScan firmware i → ¬ CutGzip firmware i) ∧
      ∀ i, InScan firmware i → CutLzma firmware i → capAt sramLimit (i / 1024 * 1024) = profileMax

lemma capAt_le (sramLimit : Option ℕ) (boundary : ℕ) : capAt sramLimit boundary ≤ boundary := by
  cases sramLimit with
  | none => exact le_rfl
  | some limit => exact min_le_left boundary limit

lemma FirstHeader.unique (hi : FirstHeader firmware i) (hj : FirstHeader firmware j) : i = j := by
  rcases Nat.lt_trichotomy i j with hlt | heq | hgt
  · exact absurd hi.starts (hj.first i hlt hi.scanned)
  · exact heq
  · exact absurd hj.starts (hi.first j hgt hj.scanned)

/-- With a header, the upload ends below it. -/
lemma endsBelowPayload_of_header (h : FirstHeader firmware i) (profileMax : ℕ)
    (sramLimit : Option ℕ) :
    EndsBelowPayload firmware profileMax sramLimit (capAt sramLimit (i / 1024 * 1024)) where
  limited limit hlimit := by
    rw [hlimit]
    exact min_le_right _ limit
  rounded j hj := by rw [h.unique hj]
  below j hj := by
    rw [← h.unique hj]
    exact (capAt_le _ _).trans (Nat.div_mul_le_self i 1024)
  fallback hnone := absurd h.starts (hnone i h.scanned)

/-- Without one, the profile decides. -/
lemma endsBelowPayload_iff (hnone : ∀ i, InScan firmware i → ¬ StartsHeader firmware i)
    {profileMax : ℕ} {sramLimit : Option ℕ}
    (hlimit : ∀ limit, sramLimit = some limit → profileMax ≤ limit) (size : ℕ) :
    EndsBelowPayload firmware profileMax sramLimit size ↔ size = profileMax := by
  refine ⟨fun h => h.fallback hnone, fun hsize => ⟨?_, ?_, ?_, fun _ => hsize⟩⟩
  · rwa [hsize]
  · exact fun i hi => absurd hi.starts (hnone i hi.scanned)
  · exact fun i hi => absurd hi.starts (hnone i hi.scanned)

/-- **When the SPL boundary is found**: the function returns one exactly if the image has a complete
header where it is looked for, or does not end within one. -/
theorem spl_detection_iff (firmware : List UInt8) (profileMax : ℕ) (sramLimit : Option ℕ)
    (hlimit : ∀ limit, sramLimit = some limit → profileMax ≤ limit) :
    (∃ size, detectSplSize firmware profileMax sramLimit = .ok size ∧
        EndsBelowPayload firmware profileMax sramLimit size) ↔
      EndsOutsideHeader firmware profileMax sramLimit := by
  have hresult : ∀ found, detectLoop firmware (markerOffsets firmware) = .ok found →
      ((∃ size, detectSplSize firmware profileMax sramLimit = .ok size ∧
          EndsBelowPayload firmware profileMax sramLimit size) ↔
        EndsBelowPayload firmware profileMax sramLimit
          (capBoundary profileMax sramLimit found)) := by
    intro found hloop
    rw [detectSplSize, hloop]
    constructor
    · rintro ⟨size, hsize, h⟩
      exact Except.ok.inj hsize ▸ h
    · intro h
      exact ⟨_, rfl, h⟩
  rcases @detectLoop_cases firmware _ (markerOffsets_pairwise firmware) with
    ⟨hnone, hloop⟩ | ⟨i, hi, hbefore, hstop⟩
  · -- every offset is passed over
    have hclear := fun j (hj : InScan firmware j) =>
      not_of_passedOver (hnone j (mem_markerOffsets.mpr hj))
    rw [hresult none hloop, endsBelowPayload_iff (fun j hj => (hclear j hj).1) hlimit]
    exact iff_of_true rfl (.inr ⟨fun j hj => (hclear j hj).2.2,
      fun j hj hcut => absurd hcut (hclear j hj).2.1⟩)
  · have hscan := mem_markerOffsets.mp hi
    have hclear := fun j (hj : InScan firmware j) (hlt : j < i) =>
      not_of_passedOver (hbefore j (mem_markerOffsets.mpr hj) hlt)
    rcases hstop with ⟨hmarker, hloop⟩ | ⟨e, hmarker, hloop⟩
    · rw [hresult _ hloop, capBoundary_some]
      rcases markerAt_eq_true_iff.mp hmarker with hheader | hcut
      · -- a complete header
        have hfirst : FirstHeader firmware i :=
          ⟨hscan, hheader, fun j hlt hj => (hclear j hj hlt).1⟩
        exact iff_of_true (endsBelowPayload_of_header hfirst profileMax sramLimit)
          (.inl ⟨i, hscan, hheader⟩)
      · -- an LZMA header that is cut off: the only thing that begins in the image
        have hnone : ∀ j, InScan firmware j → ¬ StartsHeader firmware j ∧ ¬ CutGzip firmware j ∧
            (CutLzma firmware j → j = i) := by
          intro j hj
          rcases Nat.lt_or_ge j i with hlt | hge
          · have h := hclear j hj hlt
            exact ⟨h.1, h.2.2, fun hlzma => absurd hlzma h.2.1⟩
          · exact hcut.alone hge
        rw [endsBelowPayload_iff (fun j hj => (hnone j hj).1) hlimit]
        constructor
        · refine fun hsize => .inr ⟨fun j hj => (hnone j hj).2.1, fun j hj hlzma => ?_⟩
          rw [(hnone j hj).2.2 hlzma, hsize]
        · rintro (⟨j, hj, hheader⟩ | ⟨-, hlzma⟩)
          · exact absurd hheader (hnone j hj).1
          · exact hlzma i hscan hcut
    · -- a gzip header that is cut off
      have hcut := markerAt_eq_error_iff.mp ⟨e, hmarker⟩
      refine iff_of_false ?_ ?_
      · rintro ⟨size, hsize, -⟩
        rw [detectSplSize, hloop] at hsize
        cases hsize
      · rintro (⟨j, hj, hheader⟩ | ⟨hgzip, -⟩)
        · have hend := hcut.length_le
          have hthree := hheader.add_three_le
          exact (hclear j hj (by omega)).1 hheader
        · exact hgzip i hscan hcut

/-- An image with a gzip payload behind 16 KiB of code. -/
def gzipImage : List UInt8 := List.replicate 0x4000 0 ++ [0x1F, 0x8B, 0x08]

theorem spl_detection_gzip :
    ∃ size, detectSplSize gzipImage 0x6000 (some 0x8000) = .ok size ∧
      EndsBelowPayload gzipImage 0x6000 (some 0x8000) size := by
  have hlen : gzipImage.length = 0x4003 := by
    rw [gzipImage, List.length_append, List.length_replicate]
    rfl
  have hscan : InScan gzipImage 0x4000 := by
    rw [InScan, hlen]
    decide
  have hdrop : gzipImage.drop 0x4000 = [0x1F, 0x8B, 0x08] :=
    List.drop_left' List.length_replicate
  have hgzip : StartsGzip gzipImage 0x4000 := by
    rw [StartsGzip, hdrop]
  refine (spl_detection_iff gzipImage 0x6000 (some 0x8000) fun limit hlimit => ?_).mpr
    (.inl ⟨0x4000, hscan, .inr hgzip⟩)
  rw [← Option.some.inj hlimit]
  decide

/-- An image of 16 KiB and one byte, which could begin a gzip header. -/
def cutImage : List UInt8 := List.replicate 0x4000 0 ++ [0x1F]

/-- The image makes the function raise. -/
theorem spl_detection_raises :
    ¬ ∃ size, detectSplSize cutImage 0x6000 none = .ok size ∧
      EndsBelowPayload cutImage 0x6000 none size := by
  have hlen : cutImage.length = 0x4001 := by
    rw [cutImage, List.length_append, List.length_replicate]
    rfl
  have hdrop : cutImage.drop 0x4000 = [0x1F] := List.drop_left' List.length_replicate
  -- the last byte is the only one that is looked at
  have hscan : ∀ i, i ∈ markerOffsets cutImage ↔ i = 0x4000 := by
    intro i
    rw [mem_markerOffsets, InScan, hlen]
    omega
  obtain ⟨e, he⟩ := markerAt_eq_error_iff.mpr (Or.inl hdrop : CutGzip cutImage 0x4000)
  rintro ⟨size, hsize, -⟩
  obtain ⟨found, hloop, -⟩ := exists_of_detectSplSize hsize
  rcases @detectLoop_cases cutImage _ (markerOffsets_pairwise cutImage) with
    ⟨hnone, -⟩ | ⟨i, hi, -, ⟨hmarker, -⟩ | ⟨e', -, hraises⟩⟩
  · rw [hnone _ ((hscan _).mpr rfl)] at he
    cases he
  · rw [(hscan i).mp hi, he] at hmarker
    cases hmarker
  · rw [hraises] at hloop
    cases hloop

end Defib
