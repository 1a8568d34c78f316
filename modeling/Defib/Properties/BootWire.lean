import Defib.Boot.Web

/-!
# One wire format

The senders of the V500, of the CV6xx and of the browser write the same frames for the same
transfer, those of `protocol/frames.py` (`senders_agree`), for every length and address that the
HEAD frame can hold.
-/

namespace Defib

/-- `HeadFrame`, a `DataFrame` for each piece of `chunk_data`, and `TailFrame`. -/
def encodedFrames (data : List UInt8) (address : ℕ) : Except String (List (List UInt8)) := do
  let head ← headFrame data.length address
  let chunks := chunkData data maxDataLen
  pure (head :: (dataFrames 1 chunks ++ [tailFrame (chunks.length + 1)]))

/-- To a device that ACKs every frame, the sender writes `frames`; and there is such a device. -/
structure Speaks (sender : Host Bool) (frames : List (List UInt8)) : Prop where
  written : ∀ script, AcksEvery (sender script).trace →
    (sender script).result = .ok true ∧ writes (sender script).trace = frames
  exists_device : ∃ script, AcksEvery (sender script).trace

/-! ## The frames of a transfer -/

lemma mem_dataFrames {seq : ℕ} {chunks : List (List UInt8)} {f : List UInt8}
    (h : f ∈ dataFrames seq chunks) : ∃ n c, f = dataFrame n c := by
  induction chunks generalizing seq with
  | nil => cases h
  | cons c cs ih =>
      rcases List.mem_cons.mp h with rfl | h
      · exact ⟨seq, c, rfl⟩
      · exact ih h

lemma mem_transferFrames {length address : ℕ} {chunks : List (List UInt8)} {f : List UInt8}
    (h : f ∈ transferFrames length address chunks) :
    f = headBytes length address ∨ (∃ n c, f = dataFrame n c) ∨ ∃ n, f = tailFrame n := by
  rcases List.mem_cons.mp h with rfl | h
  · exact .inl rfl
  · rcases List.mem_append.mp h with h | h
    · exact .inr (.inl (mem_dataFrames h))
    · exact .inr (.inr ⟨_, List.mem_singleton.mp h⟩)

lemma ne_handshake_of_mem_transferFrames {length address : ℕ} {chunks : List (List UInt8)}
    {f : List UInt8} (h : f ∈ transferFrames length address chunks) : f ≠ [bootmodeAck] := by
  apply HiSiliconStandard.ne_handshake_of_label
  rcases mem_transferFrames h with rfl | ⟨n, c, rfl⟩ | ⟨n, rfl⟩
  · simp [frameLabel_headBytes]
  · simp [frameLabel_dataFrame]
  · simp [frameLabel_tailFrame]

lemma verifyCrc_of_mem_transferFrames {length address : ℕ} {chunks : List (List UInt8)}
    {f : List UInt8} (h : f ∈ transferFrames length address chunks) : verifyCrc f = true := by
  rcases mem_transferFrames h with rfl | ⟨n, c, rfl⟩ | ⟨n, rfl⟩
  · exact verifyCrc_appendCrc (by simp [headMagic])
  · exact verifyCrc_appendCrc (by simp)
  · exact verifyCrc_appendCrc (by simp)

lemma dataOf_dataFrames (seq : ℕ) (chunks : List (List UInt8)) :
    dataOf (dataFrames seq chunks) = dataFrames seq chunks := by
  rw [dataOf, List.filter_eq_self]
  intro f hf
  obtain ⟨n, c, rfl⟩ := mem_dataFrames hf
  simp [frameLabel_dataFrame]

lemma dataOf_transferFrames (length address : ℕ) (chunks : List (List UInt8)) :
    dataOf (transferFrames length address chunks) = dataFrames 1 chunks := by
  have hhead : dataOf [headBytes length address] = [] := by
    simp [dataOf, frameLabel_headBytes]
  have htail : dataOf [tailFrame (chunks.length + 1)] = [] := by
    simp [dataOf, frameLabel_tailFrame]
  rw [transferFrames, ← List.singleton_append, dataOf_append, dataOf_append, hhead, htail,
    dataOf_dataFrames, List.nil_append, List.append_nil]

lemma dataFrames_numbers (seq : ℕ) (chunks : List (List UInt8)) :
    (dataFrames seq chunks).map (fun f => (f.getD 1 0, f.getD 2 0)) =
      (List.range chunks.length).map fun k =>
        (UInt8.ofNat (seq + k), ~~~UInt8.ofNat (seq + k)) := by
  induction chunks generalizing seq with
  | nil => rfl
  | cons c cs ih =>
      rw [dataFrames, List.map_cons, ih, List.length_cons, List.range_succ_eq_map, List.map_cons,
        List.map_map]
      congr 1
      refine List.map_congr_left fun k _ => ?_
      simp only [Function.comp_apply, Nat.succ_eq_add_one]
      rw [show seq + 1 + k = seq + (k + 1) by omega]

lemma flatMap_dataPayload_dataFrames (seq : ℕ) (chunks : List (List UInt8)) :
    (dataFrames seq chunks).flatMap dataPayload = chunks.flatten := by
  induction chunks generalizing seq with
  | nil => rfl
  | cons c cs ih =>
      rw [dataFrames, List.flatMap_cons, List.flatten_cons, ih, dataPayload_dataFrame]

/-! ## The senders -/

/-- A sender that goes through the frames of a transfer, each with at least one attempt. -/
lemma speaks_sendAll {maxRetries : ℕ} (hpos : 0 < maxRetries) (length address : ℕ)
    (chunks : List (List UInt8)) :
    Speaks (sendAll (frameWaitAck maxRetries) (transferFrames length address chunks))
      (transferFrames length address chunks) where
  written script h := by
    have hall := sendAll_of_acksEvery (fun f _ => frameWaitAck_sends hpos f) rfl
      (fun f hf => ne_handshake_of_mem_transferFrames hf) h
    rwa [List.map_id'] at hall
  exists_device := exists_acksEvery_sendAll (fun f _ => frameWaitAck_sends hpos f) rfl

/-- **All senders speak the same wire format.**  The DATA frames are numbered from 1 on, modulo
256, every frame verifies, and the payloads make up the data. -/
theorem senders_agree (data : List UInt8) (address : ℕ) (hlength : data.length < 2 ^ 32)
    (haddress : address < 2 ^ 32) :
    ∃ frames, encodedFrames data address = .ok frames ∧
      Speaks (HiSiliconV500.sendDataToBootrom data address) frames ∧
      Speaks (HiSiliconCV6xx.sendDataToBootrom data address) frames ∧
      Speaks (Web.sendDataToBootrom data address) frames ∧
      (∀ f ∈ frames, verifyCrc f = true) ∧
      (dataOf frames).map (fun f => (f.getD 1 0, f.getD 2 0)) =
        (List.range (dataOf frames).length).map (fun k =>
          (UInt8.ofNat (1 + k), ~~~UInt8.ofNat (1 + k))) ∧
      (dataOf frames).flatMap dataPayload = data := by
  have hspeaks := speaks_sendAll (by omega : 0 < 10) data.length address (chunkData data maxDataLen)
  refine ⟨transferFrames data.length address (chunkData data maxDataLen), ?_, ?_, ?_, ?_, ?_, ?_,
    ?_⟩
  · rw [encodedFrames, headFrame, if_pos ⟨hlength, haddress⟩]
    rfl
  · rw [HiSiliconV500.sendDataToBootrom, sendDataToBootrom_eq _ hlength haddress]
    exact hspeaks
  · rw [HiSiliconCV6xx.sendDataToBootrom, sendDataToBootrom_eq _ hlength haddress]
    exact hspeaks
  · rw [Web.sendDataToBootrom_eq]
    exact hspeaks
  · intro f hf
    exact verifyCrc_of_mem_transferFrames hf
  · rw [dataOf_transferFrames, length_dataFrames]
    exact dataFrames_numbers 1 _
  · rw [dataOf_transferFrames, flatMap_dataPayload_dataFrames,
      chunkData_flatten data (by simp [maxDataLen])]

theorem senders_agree_three_bytes :
    ∃ frames, encodedFrames [0x01, 0x02, 0x03] 0x41000000 = .ok frames ∧
      Speaks (HiSiliconV500.sendDataToBootrom [0x01, 0x02, 0x03] 0x41000000) frames ∧
      Speaks (HiSiliconCV6xx.sendDataToBootrom [0x01, 0x02, 0x03] 0x41000000) frames ∧
      Speaks (Web.sendDataToBootrom [0x01, 0x02, 0x03] 0x41000000) frames := by
  obtain ⟨frames, hframes, hv500, hcv6xx, hweb, -⟩ :=
    senders_agree [0x01, 0x02, 0x03] 0x41000000 (by decide) (by decide)
  exact ⟨frames, hframes, hv500, hcv6xx, hweb⟩

end Defib
