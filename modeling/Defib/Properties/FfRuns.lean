import Defib.Boot.SendFirmware
import Defib.Boot.Senders

/-!
# Runs of `0xFF`

`_zero_long_ff_runs` tracks the run that it is in while it rewrites the image.  `ff_runs_are_zeroed`
says what comes of it: the maximal runs that are as long as the threshold become zeros and nothing
else changes, so that the result has no run of that length.  A chunk of it has none either, wherever
it is cut, and these chunks are what the DATA frames of the SPL and of U-Boot carry.
-/

namespace Defib

/-- A run of `0xFF` that cannot be made longer. -/
structure MaximalRun (firmware : List UInt8) (start n : ℕ) : Prop where
  run : ∀ i, start ≤ i → i < start + n → firmware[i]? = some 0xFF
  left : start = 0 ∨ firmware[start - 1]? ≠ some 0xFF
  right : firmware[start + n]? ≠ some 0xFF

/-- An index lies in a maximal run as long as the threshold. -/
def InLongRun (threshold : ℕ) (firmware : List UInt8) (i : ℕ) : Prop :=
  ∃ start n, MaximalRun firmware start n ∧ threshold ≤ n ∧ start ≤ i ∧ i < start + n

/-! ## Maximal runs -/

lemma MaximalRun.unique {firmware : List UInt8} {s n s' n' i : ℕ} (h : MaximalRun firmware s n)
    (h' : MaximalRun firmware s' n') (hi : s ≤ i ∧ i < s + n) (hi' : s' ≤ i ∧ i < s' + n') :
    n = n' := by
  have hstart : ∀ {s n s' n'}, MaximalRun firmware s n → MaximalRun firmware s' n' →
      s ≤ i ∧ i < s + n → s' ≤ i ∧ i < s' + n' → s' ≤ s := by
    intro s n s' n' h h' hi hi'
    by_contra hlt
    rcases h'.left with hzero | hleft
    · omega
    · exact hleft (h.run (s' - 1) (by omega) (by omega))
  obtain rfl : s = s' := Nat.le_antisymm (hstart h' h hi' hi) (hstart h h' hi hi')
  rcases Nat.lt_trichotomy n n' with hlt | heq | hgt
  · exact absurd (h'.run (s + n) (by omega) (by omega)) h.right
  · exact heq
  · exact absurd (h.run (s + n') (by omega) (by omega)) h'.right

/-- In a maximal run, the length of the run decides. -/
lemma MaximalRun.inLongRun_iff {firmware : List UInt8} {s n i : ℕ} (h : MaximalRun firmware s n)
    (hi : s ≤ i ∧ i < s + n) (threshold : ℕ) : InLongRun threshold firmware i ↔ threshold ≤ n := by
  constructor
  · rintro ⟨s', n', h', hlong, hi'⟩
    rwa [h.unique h' hi hi']
  · exact fun hlong => ⟨s, n, h, hlong, hi⟩

lemma InLongRun.getElem? {threshold i : ℕ} {firmware : List UInt8}
    (h : InLongRun threshold firmware i) : firmware[i]? = some 0xFF := by
  obtain ⟨s, n, hrun, -, hi⟩ := h
  exact hrun.run i hi.1 hi.2

/-- The run between what ends in another byte and what begins with one. -/
lemma maximalRun_between (run : ℕ) {front rest : List UInt8}
    (hfront : front.getLast? ≠ some 0xFF) (hrest : rest.head? ≠ some 0xFF) :
    MaximalRun (front ++ (List.replicate run 0xFF ++ rest)) front.length run where
  run i hle hlt := by
    rw [List.getElem?_append_right hle, List.getElem?_append_left (by simp; omega),
      List.getElem?_replicate_of_lt (by omega)]
  left := by
    rcases Nat.eq_zero_or_pos front.length with hzero | hpos
    · exact .inl hzero
    · right
      rw [List.getElem?_append_left (by omega), ← List.getLast?_eq_getElem?]
      exact hfront
  right := by
    rw [List.getElem?_append_right (Nat.le_add_right _ _), Nat.add_sub_cancel_left,
      List.getElem?_append_right (by simp), List.length_replicate, Nat.sub_self,
      ← List.head?_eq_getElem?]
    exact hrest

/-! ## The loop -/

/-- A byte of the result: a zero in a long run, and the byte that was there otherwise. -/
def Zeroed (threshold : ℕ) (firmware out : List UInt8) (k i : ℕ) : Prop :=
  (InLongRun threshold firmware i → out[k]? = some 0x00) ∧
    (¬ InLongRun threshold firmware i → out[k]? = firmware[i]?)

/-- What a finished run is written as, in a result that goes on with `out`. -/
lemma zeroed_writeRun {threshold run k : ℕ} {front rest out : List UInt8}
    (hfront : front.getLast? ≠ some 0xFF) (hrest : rest.head? ≠ some 0xFF) (hk : k < run) :
    Zeroed threshold (front ++ (List.replicate run 0xFF ++ rest))
      (writeRun threshold run ++ out) k (front.length + k) := by
  have hmax := maximalRun_between run hfront hrest
  have hin := hmax.inLongRun_iff (i := front.length + k) ⟨by omega, by omega⟩ threshold
  have hout : (writeRun threshold run ++ out)[k]? =
      some (if run ≥ threshold then 0x00 else 0xFF) := by
    rw [writeRun, List.getElem?_append_left (by simpa using hk), List.getElem?_replicate_of_lt hk]
  rw [Zeroed, hin, hout]
  refine ⟨fun hlong => by rw [if_pos hlong], fun hshort => ?_⟩
  rw [if_neg hshort, hmax.run _ (by omega) (by omega)]

lemma zeroed_of_ne {threshold k i : ℕ} {firmware out : List UInt8}
    (hne : firmware[i]? ≠ some 0xFF) (hout : out[k]? = firmware[i]?) :
    Zeroed threshold firmware out k i :=
  ⟨fun hin => absurd hin.getElem? hne, fun _ => hout⟩

/-- **The loop**, in an image of which `front` is done and a run is open. -/
lemma zeroed_zeroRunsLoop (threshold : ℕ) {front : List UInt8} (run : ℕ) (bs : List UInt8)
    (hfront : front.getLast? ≠ some 0xFF) (k : ℕ) :
    Zeroed threshold (front ++ (List.replicate run 0xFF ++ bs)) (zeroRunsLoop threshold run bs) k
      (front.length + k) := by
  induction bs generalizing front run k with
  | nil =>
      rw [zeroRunsLoop]
      rcases Nat.lt_or_ge k run with hlt | hge
      · simpa using @zeroed_writeRun threshold run k front [] [] hfront
          (by simp) hlt
      · have hnone : (front ++ (List.replicate run 0xFF ++ []))[front.length + k]? = none := by
          rw [List.getElem?_eq_none_iff]
          simp only [List.length_append, List.length_replicate, List.length_nil]
          omega
        refine zeroed_of_ne (by rw [hnone]; simp) ?_
        rw [hnone, List.getElem?_eq_none_iff, writeRun, List.length_replicate]
        exact hge
  | cons b bs ih =>
      rw [zeroRunsLoop]
      by_cases hb : b = 0xFF
      · have hopen : List.replicate run 0xFF ++ b :: bs = List.replicate (run + 1) 0xFF ++ bs := by
          rw [hb, List.replicate_succ', List.append_assoc, List.singleton_append]
        rw [if_pos hb, hopen]
        exact ih (run + 1) hfront k
      · rw [if_neg hb]
        rcases Nat.lt_trichotomy k run with hlt | rfl | hgt
        · exact zeroed_writeRun hfront (by simpa using hb) hlt
        · -- the byte that ends the run
          have hbyte :
              (front ++ (List.replicate k 0xFF ++ b :: bs))[front.length + k]? = some b := by
            rw [List.getElem?_append_right (Nat.le_add_right _ _), Nat.add_sub_cancel_left,
              List.getElem?_append_right (by simp)]
            simp
          refine zeroed_of_ne (by rw [hbyte]; simpa using hb) ?_
          rw [hbyte, List.getElem?_append_right (by simp [writeRun])]
          simp [writeRun]
        · -- what is behind it
          obtain ⟨j, rfl⟩ := Nat.exists_eq_add_of_lt hgt
          have hrest := @ih (front ++ (List.replicate run 0xFF ++ [b])) 0 (by simpa using hb) j
          have hwhole : front ++ (List.replicate run 0xFF ++ [b]) ++ (List.replicate 0 0xFF ++ bs) =
              front ++ (List.replicate run 0xFF ++ b :: bs) := by simp
          have hplace : (front ++ (List.replicate run 0xFF ++ [b])).length + j =
              front.length + (run + j + 1) := by
            simp only [List.length_append, List.length_replicate, List.length_singleton]
            omega
          have hout : (writeRun threshold run ++ b :: zeroRunsLoop threshold 0 bs)[run + j + 1]? =
              (zeroRunsLoop threshold 0 bs)[j]? := by
            rw [List.getElem?_append_right (by simp [writeRun]; omega), writeRun,
              List.length_replicate, Nat.add_assoc, Nat.add_sub_cancel_left,
              List.getElem?_cons_succ]
          rw [hwhole, hplace] at hrest
          rw [Zeroed, hout]
          exact hrest

/-! ## The function -/

lemma hasFfRun_of_inLongRun {threshold i : ℕ} {firmware : List UInt8}
    (h : InLongRun threshold firmware i) : HasFfRun threshold firmware := by
  obtain ⟨s, n, hrun, hlong, -⟩ := h
  refine ⟨firmware.take s, firmware.drop (s + threshold), ?_⟩
  have hcut : (firmware.drop s).take threshold = List.replicate threshold 0xFF := by
    refine List.ext_getElem? fun k => ?_
    rw [List.getElem?_take, List.getElem?_drop, List.getElem?_replicate]
    split_ifs with hk
    · exact hrun.run (s + k) (by omega) (by omega)
    · rfl
  rw [← hcut, List.append_assoc, ← List.drop_drop, List.take_append_drop, List.take_append_drop]

lemma zeroed_zeroLongFfRuns (firmware : List UInt8) (threshold i : ℕ) :
    Zeroed threshold firmware (zeroLongFfRuns firmware threshold) i i := by
  rw [zeroLongFfRuns]
  split_ifs with hrun
  · simpa using @zeroed_zeroRunsLoop threshold [] 0 firmware (by simp) i
  · exact ⟨fun hin => absurd (hasFfRun_of_inLongRun hin) hrun, fun _ => rfl⟩

lemma not_hasFfRun_writeRun {threshold : ℕ} (hpos : 1 ≤ threshold) (run : ℕ) :
    ¬ HasFfRun threshold (writeRun threshold run) := by
  intro hrun
  rw [HasFfRun, writeRun] at hrun
  split_ifs at hrun with hlong
  · have hmem : (0xFF : UInt8) ∈ List.replicate run 0x00 :=
      hrun.subset (List.mem_replicate.mpr ⟨by omega, rfl⟩)
    exact absurd (List.eq_of_mem_replicate hmem) (by decide)
  · have hlength := hrun.length_le
    rw [List.length_replicate, List.length_replicate] at hlength
    omega

lemma not_hasFfRun_zeroRunsLoop {threshold : ℕ} (hpos : 1 ≤ threshold) (run : ℕ)
    (bs : List UInt8) : ¬ HasFfRun threshold (zeroRunsLoop threshold run bs) := by
  induction bs generalizing run with
  | nil => exact not_hasFfRun_writeRun hpos run
  | cons b bs ih =>
      rw [zeroRunsLoop]
      split_ifs with hb
      · exact ih (run + 1)
      · intro hrun
        rcases replicate_infix_append_cons hb hrun with hfront | hrest
        · exact not_hasFfRun_writeRun hpos run hfront
        · exact ih 0 hrest

lemma not_hasFfRun_zeroLongFfRuns {threshold : ℕ} (hpos : 1 ≤ threshold)
    (firmware : List UInt8) : ¬ HasFfRun threshold (zeroLongFfRuns firmware threshold) := by
  rw [zeroLongFfRuns]
  split_ifs with hrun
  · exact not_hasFfRun_zeroRunsLoop hpos 0 firmware
  · exact hrun

lemma not_hasFfRun_chunk {threshold : ℕ} (hpos : 1 ≤ threshold) {firmware chunk : List UInt8}
    (h : chunk ∈ chunkData (zeroLongFfRuns firmware threshold) maxDataLen) :
    ¬ HasFfRun threshold chunk := by
  obtain ⟨k, -, rfl⟩ := List.mem_map.mp h
  intro hrun
  exact not_hasFfRun_zeroLongFfRuns hpos firmware
    ((hrun.trans (List.take_prefix _ _).isInfix).trans (List.drop_suffix _ _).isInfix)

/-! ## What is sent -/

/-- A DATA frame carries no run of twelve bytes `0xFF`. -/
def PayloadClear (frame : List UInt8) : Prop :=
  frameLabel frame = .data → ¬ HasFfRun 12 (dataPayload frame)

lemma payloadClear_of_label {frame : List UInt8} (h : frameLabel frame ≠ .data) :
    PayloadClear frame :=
  fun hdata => absurd hdata h

lemma payloadClear_headFrame {length address : ℕ} {frame : List UInt8}
    (h : headFrame length address = .ok frame) : PayloadClear frame := by
  rw [headFrame] at h
  split_ifs at h
  obtain rfl := Except.ok.inj h
  apply payloadClear_of_label
  rw [frameLabel_headBytes]
  decide

namespace HiSiliconStandard

variable {P : List UInt8 → Prop}

open Scripted (Writing)

lemma writing_awaitAck : Writing P awaitAck := by
  intro script x hx
  change .write x ∈ (awaitAckLoop script).trace at hx
  induction script with
  | nil => simp [awaitAckLoop] at hx
  | cons r script ih =>
      cases r with
      | timeout => simp [awaitAckLoop] at hx
      | expired => simp [awaitAckLoop] at hx
      | item b =>
          rw [awaitAckLoop] at hx
          split_ifs at hx
          · simp at hx
          · exact ih (by simpa using hx)

lemma writing_rehandshake (h : P [bootmodeAck]) : Writing P rehandshake := by
  intro script x hx
  change .write x ∈ (rehandshakeLoop 0 script).trace at hx
  generalize 0 = markerCount at hx
  induction script generalizing markerCount with
  | nil => simp [rehandshakeLoop] at hx
  | cons r script ih =>
      cases r with
      | expired => simp [rehandshakeLoop] at hx
      | timeout =>
          rw [rehandshakeLoop] at hx
          split_ifs at hx <;> simp at hx
          exact hx ▸ h
      | item b =>
          rw [rehandshakeLoop] at hx
          split_ifs at hx
          · obtain rfl : x = [bootmodeAck] := by simpa using hx
            exact h
          · exact ih _ (by simpa using hx)
          · exact ih _ (by simpa using hx)
          · simp at hx

lemma writing_blast {head : List UInt8} (h : P (bootmodeAck :: head)) : Writing P (blast head) := by
  have hloop : ∀ script x, .write x ∈ (blastLoop head script).trace → P x := by
    intro script x hx
    induction script with
    | nil => simp [blastLoop] at hx
    | cons r script ih =>
        cases r with
        | expired => simp [blastLoop] at hx
        | timeout =>
            rw [blastLoop, Scripted.Outcome.cons_trace, Scripted.Outcome.cons_trace] at hx
            rcases List.mem_cons.mp hx with hx | hx
            · exact Event.write.inj hx ▸ h
            · exact ih (by simpa using hx)
        | item b =>
            rw [blastLoop] at hx
            split_ifs at hx
            · obtain rfl : x = bootmodeAck :: head := by simpa using hx
              exact h
            · rw [Scripted.Outcome.cons_trace, Scripted.Outcome.cons_trace] at hx
              rcases List.mem_cons.mp hx with hx | hx
              · exact Event.write.inj hx ▸ h
              · exact ih (by simpa using hx)
  intro script x hx
  rcases script with _ | ⟨b | _ | _, script⟩
  · obtain rfl : x = bootmodeAck :: head := by simpa [blast] using hx
    exact h
  · exact hloop _ x hx
  · exact hloop _ x hx
  · obtain rfl : x = bootmodeAck :: head := by simpa [blast] using hx
    exact h

lemma writing_sendFrameWithRetry {frame : List UInt8} (h : P frame) (retries : ℕ) :
    Writing P (sendFrameWithRetry frame retries) := by
  induction retries with
  | zero => exact Writing.pure _
  | succ retries ih =>
      refine Writing.bind Writing.flush fun _ => Writing.bind (Writing.write h) fun _ =>
        Writing.bind writing_awaitAck fun acked => Writing.ite (Writing.pure _) ih

lemma writing_sendChunks {chunks : List (List UInt8)} (h : ∀ seq, ∀ c ∈ chunks, P (dataFrame seq c))
    (seq : ℕ) : Writing P (sendChunks seq chunks) := by
  induction chunks generalizing seq with
  | nil => exact Writing.pure _
  | cons c chunks ih =>
      refine Writing.bind (writing_sendFrameWithRetry (h seq c List.mem_cons_self) _)
        fun acked => ?_
      exact Writing.ite (ih (fun seq c hc => h seq c (List.mem_cons_of_mem _ hc)) _)
        (Writing.pure _)

/-! ### The SPL and U-Boot -/

lemma writing_sendHead (length address : ℕ) : Writing PayloadClear (sendHead length address) :=
  Writing.lift_bind fun _ h => writing_sendFrameWithRetry (payloadClear_headFrame h) _

lemma writing_sendTail (seq : ℕ) : Writing PayloadClear (sendTail seq) := by
  refine writing_sendFrameWithRetry (payloadClear_of_label ?_) _
  rw [frameLabel_tailFrame]
  decide

/-- The chunks of an image that was rewritten. -/
lemma writing_sendChunks_zeroed (firmware : List UInt8) :
    Writing PayloadClear
      (sendChunks 1 (chunkData (zeroLongFfRuns firmware ffThreshold) maxDataLen)) := by
  refine writing_sendChunks (fun seq c hc hdata => ?_) 1
  rw [dataPayload_dataFrame]
  exact not_hasFfRun_chunk (by decide) hc

lemma writing_sendSpl (profile : SoCProfile) (firmware : List UInt8)
    (splOverride : Option (List UInt8)) :
    Writing PayloadClear (sendSpl profile firmware splOverride) := by
  refine Writing.lift_bind fun image himage => ?_
  obtain ⟨splSize, splData⟩ := image
  obtain ⟨size, hdata⟩ : ∃ size,
      splData = zeroLongFfRuns (cutSpl firmware splOverride size) ffThreshold := by
    rw [splImage] at himage
    cases hsize : detectSplSize (splOverride.getD firmware) profile.splMaxSize
        profile.splSramLimit with
    | error e =>
        rw [hsize] at himage
        cases himage
    | ok size =>
        rw [hsize] at himage
        exact ⟨size, (congrArg Prod.snd (Except.ok.inj himage)).symm⟩
  rw [hdata]
  refine Writing.bind (Writing.note _) fun _ => Writing.bind (writing_sendHead _ _) fun _ =>
    Writing.ite ?_ (Writing.pure _)
  refine Writing.bind (writing_sendChunks_zeroed _) fun _ => Writing.ite ?_ (Writing.pure _)
  exact Writing.bind (writing_sendTail _) fun _ => Writing.ite (Writing.pure _) (Writing.pure _)

lemma writing_startUboot (profile : SoCProfile) : Writing PayloadClear (startUboot profile) := by
  refine Writing.ite (Writing.lift_bind fun head h => writing_blast ?_)
    (Writing.bind (writing_rehandshake ?_) fun _ => Writing.pure _)
  · apply payloadClear_of_label
    simp [frameLabel, headMagic, dataMagic, tailMagic, bootmodeAck]
  · exact payloadClear_of_label (by decide)

lemma writing_sendUboot (profile : SoCProfile) (firmware : List UInt8) :
    Writing PayloadClear (sendUboot profile firmware) := by
  refine Writing.bind (Writing.note _) fun _ => Writing.bind (writing_startUboot profile) fun _ =>
    Writing.ite ?_ (Writing.pure _)
  refine Writing.lift_bind fun head hhead => ?_
  refine Writing.bind (writing_sendFrameWithRetry (payloadClear_headFrame hhead) _) fun _ =>
    Writing.ite ?_ (Writing.pure _)
  refine Writing.bind (writing_sendChunks_zeroed _) fun _ => Writing.ite ?_ (Writing.pure _)
  exact Writing.bind (writing_sendTail _) fun _ => Writing.pure _

end HiSiliconStandard

/-- **Long runs of `0xFF` become zeros**, and no DATA frame of the SPL or of U-Boot has twelve of
them in a row. -/
theorem ff_runs_are_zeroed (firmware : List UInt8) (threshold : ℕ) (hpos : 1 ≤ threshold) :
    (zeroLongFfRuns firmware threshold).length = firmware.length ∧
    (∀ i, InLongRun threshold firmware i → (zeroLongFfRuns firmware threshold)[i]? = some 0x00) ∧
    (∀ i, ¬ InLongRun threshold firmware i →
      (zeroLongFfRuns firmware threshold)[i]? = firmware[i]?) ∧
    zeroLongFfRuns (zeroLongFfRuns firmware threshold) threshold =
      zeroLongFfRuns firmware threshold ∧
    ¬ List.replicate threshold 0xFF <:+: zeroLongFfRuns firmware threshold ∧
    ∀ profile splOverride script,
      ∀ frame ∈ writes (HiSiliconStandard.sendSpl profile firmware splOverride script).trace ++
          writes (HiSiliconStandard.sendUboot profile firmware script).trace,
        frameLabel frame = .data → ¬ List.replicate 12 0xFF <:+: dataPayload frame := by
  have hzeroed := zeroed_zeroLongFfRuns firmware threshold
  have hclear := not_hasFfRun_zeroLongFfRuns hpos firmware
  refine ⟨length_zeroLongFfRuns firmware threshold, fun i => (hzeroed i).1, fun i => (hzeroed i).2,
    (zeroLongFfRuns_eq_self_iff hpos).mpr hclear, hclear, ?_⟩
  intro profile splOverride script frame hframe
  rcases List.mem_append.mp hframe with hframe | hframe
  · exact HiSiliconStandard.writing_sendSpl profile firmware splOverride script frame
      (mem_writes.mp hframe)
  · exact HiSiliconStandard.writing_sendUboot profile firmware script frame (mem_writes.mp hframe)

/-- Twelve bytes `0xFF` between others, which become zeros. -/
theorem ff_runs_are_zeroed_padding :
    ¬ List.replicate 12 0xFF <:+:
      zeroLongFfRuns ([0x01] ++ List.replicate 12 0xFF ++ [0x02]) 12 :=
  (ff_runs_are_zeroed ([0x01] ++ List.replicate 12 0xFF ++ [0x02]) 12 (by decide)).2.2.2.2.1

end Defib
