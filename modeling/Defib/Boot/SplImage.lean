import Mathlib.Data.List.Infix
import Defib.Wire.Packet

/-!
# Profiles, and what is cut from a firmware image

The SoC profile of `profiles/schema.py`, and the two static helpers of `HiSiliconStandard` that
decide which bytes of an image go to the bootrom: `_detect_spl_size` looks for the compressed
payload behind the SPL code, and `_zero_long_ff_runs` rewrites long runs of `0xFF`.

`zeroLongFfRuns_eq_self_iff` says which images the second leaves alone, and
`detectSplSize_cases` that a detected boundary lies inside the image.
-/

namespace Defib

/-- A UART profile, as the properties of `SoCProfile` return its fields. -/
structure SoCProfile where
  prestepData : Option (List UInt8)
  prestep1Data : Option (List UInt8)
  ddrStepData : List UInt8
  ddrStepAddress : ℕ
  splAddress : ℕ
  ubootAddress : ℕ
  splMaxSize : ℕ
  splSramLimit : Option ℕ
  deriving DecidableEq, Repr

/-! ## The SPL boundary -/

/-- `VALID_LZMA_DICT`. -/
def validLzmaDict (ds : ℕ) : Bool := (List.range' 16 9).any fun n => ds = 2 ^ n

/-- Whether a compressed payload starts at an offset.  An LZMA header may be cut off by the end of
the image, a gzip header may not: indexing past the end raises. -/
def markerAt (firmware : List UInt8) (i : ℕ) : Except String Bool :=
  if firmware[i]? = some 0x5D then .ok (validLzmaDict (readLe32 (firmware.drop (i + 1))))
  else if firmware[i]? = some 0x1F then
    match firmware[i + 1]? with
    | none => .error "index out of range"
    | some b =>
        if b = 0x8B then
          match firmware[i + 2]? with
          | none => .error "index out of range"
          | some c => .ok (c = 0x08)
        else .ok false
  else .ok false

/-- The loop of `_detect_spl_size`: the first marker, rounded down to a multiple of 1 KiB. -/
def detectLoop (firmware : List UInt8) : List ℕ → Except String (Option ℕ)
  | [] => .ok none
  | i :: is =>
      match markerAt firmware i with
      | .error e => .error e
      | .ok true => .ok (some (i / 1024 * 1024))
      | .ok false => detectLoop firmware is

/-- The offsets at which `_detect_spl_size` looks for a marker. -/
def markerOffsets (firmware : List UInt8) : List ℕ :=
  (List.range (min firmware.length 0x10000)).filter (0x4000 ≤ ·)

/-- The size for what the loop has found: a marker past the SRAM window is capped, and without one
the profile decides. -/
def capBoundary (profileMax : ℕ) (sramLimit : Option ℕ) : Option ℕ → ℕ
  | none => profileMax
  | some detected =>
      match sramLimit with
      | none => detected
      | some limit => if detected > limit then limit else detected

/-- `_detect_spl_size`. -/
def detectSplSize (firmware : List UInt8) (profileMax : ℕ) (sramLimit : Option ℕ) :
    Except String ℕ :=
  (detectLoop firmware (markerOffsets firmware)).map (capBoundary profileMax sramLimit)

lemma detectLoop_le {firmware : List UInt8} {is : List ℕ} {n : ℕ}
    (h : detectLoop firmware is = .ok (some n)) : ∃ i ∈ is, n ≤ i := by
  induction is with
  | nil => simp [detectLoop] at h
  | cons i is ih =>
      rw [detectLoop] at h
      split at h
      · cases h
      · simp only [Except.ok.injEq, Option.some.injEq] at h
        exact ⟨i, by simp, by omega⟩
      · obtain ⟨j, hj, hle⟩ := ih h
        exact ⟨j, by simp [hj], hle⟩

lemma lt_length_of_mem_markerOffsets {firmware : List UInt8} {i : ℕ}
    (h : i ∈ markerOffsets firmware) : i < firmware.length := by
  rw [markerOffsets, List.mem_filter, List.mem_range] at h
  omega

lemma capBoundary_some_le (profileMax : ℕ) (sramLimit : Option ℕ) (detected : ℕ) :
    capBoundary profileMax sramLimit (some detected) ≤ detected := by
  cases sramLimit with
  | none => exact le_rfl
  | some limit =>
      simp only [capBoundary]
      split <;> omega

/-- No compressed payload starts in the part of the image that is looked at. -/
def Unmarked (firmware : List UInt8) : Prop :=
  ∀ i ∈ markerOffsets firmware, markerAt firmware i = .ok false

instance : DecidablePred Unmarked := fun firmware =>
  inferInstanceAs (Decidable (∀ i ∈ markerOffsets firmware, markerAt firmware i = .ok false))

lemma detectLoop_eq_none_iff {firmware : List UInt8} {is : List ℕ} :
    detectLoop firmware is = .ok none ↔ ∀ i ∈ is, markerAt firmware i = .ok false := by
  induction is with
  | nil => simp [detectLoop]
  | cons i is ih =>
      rw [detectLoop, List.forall_mem_cons]
      split
      · rename_i h
        simp [h]
      · rename_i h
        simp [h]
      · rename_i h
        simp [h, ih]

lemma exists_of_detectSplSize {firmware : List UInt8} {profileMax n : ℕ} {sramLimit : Option ℕ}
    (h : detectSplSize firmware profileMax sramLimit = .ok n) :
    ∃ found, detectLoop firmware (markerOffsets firmware) = .ok found ∧
      capBoundary profileMax sramLimit found = n := by
  unfold detectSplSize at h
  generalize detectLoop firmware (markerOffsets firmware) = result at h
  cases result with
  | error e => cases h
  | ok found => exact ⟨found, rfl, by simpa [Except.map] using h⟩

lemma detectSplSize_of_unmarked {firmware : List UInt8} (h : Unmarked firmware) (profileMax : ℕ)
    (sramLimit : Option ℕ) : detectSplSize firmware profileMax sramLimit = .ok profileMax := by
  rw [detectSplSize, detectLoop_eq_none_iff.mpr h]
  rfl

/-- A boundary is taken from the profile, or it lies inside the image. -/
lemma detectSplSize_cases {firmware : List UInt8} {profileMax n : ℕ} {sramLimit : Option ℕ}
    (h : detectSplSize firmware profileMax sramLimit = .ok n) :
    n = profileMax ∨ n < firmware.length := by
  obtain ⟨found, hloop, rfl⟩ := exists_of_detectSplSize h
  cases found with
  | none => exact .inl rfl
  | some detected =>
      obtain ⟨i, hi, hle⟩ := detectLoop_le hloop
      have hlt := lt_length_of_mem_markerOffsets hi
      have hcap := capBoundary_some_le profileMax sramLimit detected
      exact .inr (by omega)

/-- The boundary lies past the end of the image exactly if the profile decides, and asks for more
than there is. -/
lemma lt_detectSplSize_iff {firmware : List UInt8} {profileMax n : ℕ} {sramLimit : Option ℕ}
    (h : detectSplSize firmware profileMax sramLimit = .ok n) :
    firmware.length < n ↔ Unmarked firmware ∧ n = profileMax ∧ firmware.length < profileMax := by
  constructor
  · intro hlt
    have hcases := detectSplSize_cases h
    have hmax : n = profileMax := by omega
    refine ⟨detectLoop_eq_none_iff.mp ?_, hmax, by omega⟩
    by_contra hfound
    obtain ⟨found, hloop, hcap⟩ := exists_of_detectSplSize h
    cases found with
    | none => exact hfound hloop
    | some detected =>
        obtain ⟨i, hi, hle⟩ := detectLoop_le hloop
        have hi := lt_length_of_mem_markerOffsets hi
        have hcap' := capBoundary_some_le profileMax sramLimit detected
        omega
  · rintro ⟨-, rfl, hlt⟩
    exact hlt

/-! ## Runs of `0xFF` -/

/-- What a finished run of `run` bytes `0xFF` is written as. -/
def writeRun (threshold run : ℕ) : List UInt8 :=
  List.replicate run (if run ≥ threshold then 0 else 0xFF)

/-- The loop of `_zero_long_ff_runs`, while a run of `run` bytes is open. -/
def zeroRunsLoop (threshold : ℕ) : ℕ → List UInt8 → List UInt8
  | run, [] => writeRun threshold run
  | run, b :: bs =>
      if b = 0xFF then zeroRunsLoop threshold (run + 1) bs
      else writeRun threshold run ++ b :: zeroRunsLoop threshold 0 bs

/-- An image has a run of `threshold` bytes `0xFF`. -/
def HasFfRun (threshold : ℕ) (firmware : List UInt8) : Prop :=
  List.replicate threshold 0xFF <:+: firmware

instance (threshold : ℕ) (firmware : List UInt8) : Decidable (HasFfRun threshold firmware) := by
  unfold HasFfRun
  infer_instance

/-- `_zero_long_ff_runs`. -/
def zeroLongFfRuns (firmware : List UInt8) (threshold : ℕ) : List UInt8 :=
  if HasFfRun threshold firmware then zeroRunsLoop threshold 0 firmware else firmware

/-- The default of its `threshold`. -/
def ffThreshold : ℕ := 12

lemma length_zeroRunsLoop (threshold run : ℕ) (bs : List UInt8) :
    (zeroRunsLoop threshold run bs).length = run + bs.length := by
  induction bs generalizing run with
  | nil => simp [zeroRunsLoop, writeRun]
  | cons b bs ih =>
      rw [zeroRunsLoop]
      split
      · rw [ih, List.length_cons]
        omega
      · simp only [List.length_append, writeRun, List.length_replicate, List.length_cons, ih]
        omega

@[simp] lemma length_zeroLongFfRuns (firmware : List UInt8) (threshold : ℕ) :
    (zeroLongFfRuns firmware threshold).length = firmware.length := by
  rw [zeroLongFfRuns]
  split
  · rw [length_zeroRunsLoop, Nat.zero_add]
  · rfl

/-- A constant run does not reach across another value. -/
lemma replicate_infix_append_cons {α : Type*} {n : ℕ} {a b : α} (hne : b ≠ a) {xs ys : List α}
    (h : List.replicate n a <:+: xs ++ b :: ys) :
    List.replicate n a <:+: xs ∨ List.replicate n a <:+: ys := by
  obtain ⟨s, t, h⟩ := h
  rw [List.append_assoc] at h
  rcases List.append_eq_append_iff.mp h with ⟨u, rfl, hu⟩ | ⟨u, rfl, hu⟩
  · -- the run starts in `xs`: it ends there too, or it would hold `b`
    rcases List.append_eq_append_iff.mp hu with ⟨v, rfl, hv⟩ | ⟨v, hv, hvt⟩
    · exact .inl ⟨s, v, by simp⟩
    · cases v with
      | nil => exact .inl ⟨s, [], by simp [hv]⟩
      | cons c v =>
          simp only [List.cons_append, List.cons.injEq] at hvt
          have hmem : c ∈ List.replicate n a := by
            rw [hv]
            simp
          exact absurd (hvt.1.trans (List.eq_of_mem_replicate hmem)) hne
  · -- the run starts after `b`, or at it, and then it is empty
    cases u with
    | nil =>
        cases n with
        | zero => exact .inl ⟨[], xs, by simp⟩
        | succ n =>
            simp only [List.nil_append, List.replicate_succ, List.cons_append,
              List.cons.injEq] at hu
            exact absurd hu.1 hne
    | cons c u =>
        simp only [List.cons_append, List.cons.injEq] at hu
        exact .inr ⟨u, t, by rw [List.append_assoc]; exact hu.2.symm⟩

/-- A loop that changes nothing has met no long run. -/
lemma not_hasFfRun_of_zeroRunsLoop_eq {threshold run : ℕ} (hpos : 0 < threshold)
    {bs : List UInt8}
    (h : zeroRunsLoop threshold run bs = List.replicate run 0xFF ++ bs) :
    ¬ HasFfRun threshold (List.replicate run 0xFF ++ bs) := by
  have hrun : ∀ run : ℕ, ∀ xs ys : List UInt8,
      writeRun threshold run ++ xs = List.replicate run 0xFF ++ ys → run < threshold := by
    intro run xs ys heq
    by_contra hge
    obtain ⟨k, rfl⟩ : ∃ k, run = k + 1 := ⟨run - 1, by omega⟩
    rw [writeRun, if_pos (by omega), List.replicate_succ, List.replicate_succ] at heq
    simp at heq
  have hshort : ∀ run : ℕ, run < threshold →
      ¬ HasFfRun threshold (List.replicate run (0xFF : UInt8)) := by
    intro run hlt hrun
    have hle := hrun.length_le
    simp only [List.length_replicate] at hle
    omega
  induction bs generalizing run with
  | nil =>
      rw [List.append_nil] at h ⊢
      exact hshort run (hrun run [] [] (by simpa [zeroRunsLoop] using h))
  | cons b bs ih =>
      by_cases hb : b = 0xFF
      · subst hb
        rw [zeroRunsLoop, if_pos rfl] at h
        have hshift : List.replicate run (0xFF : UInt8) ++ 0xFF :: bs =
            List.replicate (run + 1) 0xFF ++ bs := by
          rw [List.replicate_succ', List.append_assoc, List.singleton_append]
        rw [hshift] at h ⊢
        exact ih h
      · rw [zeroRunsLoop, if_neg hb] at h
        have hlt := hrun run _ _ h
        rw [writeRun, if_neg (by omega), List.append_cancel_left_eq, List.cons.injEq] at h
        intro hrun
        rcases replicate_infix_append_cons hb hrun with hleft | hright
        · exact hshort run hlt hleft
        · have hrest : zeroRunsLoop threshold 0 bs = List.replicate 0 0xFF ++ bs := h.2
          exact ih hrest hright

/-- **Which images are sent as they are.** -/
lemma zeroLongFfRuns_eq_self_iff {firmware : List UInt8} {threshold : ℕ} (hpos : 0 < threshold) :
    zeroLongFfRuns firmware threshold = firmware ↔ ¬ HasFfRun threshold firmware := by
  rw [zeroLongFfRuns]
  split
  · rename_i hrun
    constructor
    · intro h
      have hloop : zeroRunsLoop threshold 0 firmware = List.replicate 0 0xFF ++ firmware := h
      exact not_hasFfRun_of_zeroRunsLoop_eq hpos hloop
    · intro h
      exact absurd hrun h
  · rename_i hrun
    exact ⟨fun _ => hrun, fun _ => rfl⟩

end Defib
