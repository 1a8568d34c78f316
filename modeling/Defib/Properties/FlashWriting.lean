import Defib.Properties.FlashCalls

/-!
# What a flash write leaves behind

The end of a session (`Done`) in terms of the data: `flashAfter_apply` gives the contents of the
flash byte by byte, for an address on a sector boundary.  Three limits of the code show:

* `page_is_ff` looks at whole words, so that one to three bytes after the last whole word are lost
  when everything before them in their page is `0xFF` (`TailProgrammed`);
* the sequence number of a data packet has 16 bits, so that `write_flash` raises at the first
  sector with data from 32 MiB on;
* on a transport without `set_baudrate` the answer to the second `CMD_SET_BAUD` stays unread, and
  is taken for the answer to the request (`reaches_stranded`).
-/

namespace Defib

/-! ## `page_is_ff` -/

lemma readLe32_eq_ff_iff (p : List UInt8) :
    readLe32 p = 0xFFFFFFFF ↔ ∀ i < 4, (p.getD i 0).toNat = 255 := by
  have h : ∀ i, (p.getD i 0).toNat < 256 := fun i => UInt8.toNat_lt _
  have h0 := h 0
  have h1 := h 1
  have h2 := h 2
  have h3 := h 3
  constructor
  · intro heq i hi
    unfold readLe32 at heq
    rcases (show i = 0 ∨ i = 1 ∨ i = 2 ∨ i = 3 by omega) with rfl | rfl | rfl | rfl <;> omega
  · intro hall
    have hall0 := hall 0 (by omega)
    have hall1 := hall 1 (by omega)
    have hall2 := hall 2 (by omega)
    have hall3 := hall 3 (by omega)
    unfold readLe32
    omega

/-- `page_is_ff` looks at the whole words of a page. -/
lemma pageIsFf_iff (page : List UInt8) :
    pageIsFf page = true ↔ ∀ i < page.length / 4 * 4, page.getD i 0xFF = 0xFF := by
  have hbyte : ∀ i < page.length, (page.getD i 0xFF = 0xFF ↔ (page.getD i 0).toNat = 255) := by
    intro i hi
    rw [List.getD_eq_getElem _ _ hi, List.getD_eq_getElem _ _ hi, ← UInt8.toNat_inj]
    rfl
  simp only [pageIsFf, List.all_eq_true, List.mem_range, decide_eq_true_eq, readLe32_eq_ff_iff]
  have hdrop : ∀ i j, (page.drop (4 * i)).getD j 0 = page.getD (4 * i + j) 0 := by
    intro i j
    simp [List.getD_eq_getElem?_getD]
  simp only [hdrop]
  constructor
  · intro h i hi
    rw [hbyte i (by omega)]
    have := h (i / 4) (by omega) (i % 4) (by omega)
    rwa [Nat.div_add_mod] at this
  · intro h i hi j hj
    rw [← hbyte _ (by omega)]
    exact h _ (by omega)

/-! ## Which bytes are programmed -/

/-- The bytes after the last whole word are `0xFF`, or the last page has something else in its
whole words. -/
def TailProgrammed (pageSize : ℕ) (data : List UInt8) : Prop :=
  (∀ i, data.length / 4 * 4 ≤ i → i < data.length → data.getD i 0xFF = 0xFF) ∨
    ∃ i, (data.length - 1) / pageSize * pageSize ≤ i ∧ i < data.length / 4 * 4 ∧
      data.getD i 0xFF ≠ 0xFF

lemma getD_pageOf {pageSize : ℕ} {data : List UInt8} {i j : ℕ} (hj : j < pageSize) :
    (pageOf pageSize data i).getD j 0xFF = data.getD (i / pageSize * pageSize + j) 0xFF := by
  rw [pageOf, List.getD_eq_getElem?_getD, List.getElem?_take_of_lt hj, List.getElem?_drop,
    List.getD_eq_getElem?_getD]

lemma length_pageOf (pageSize : ℕ) (data : List UInt8) (i : ℕ) :
    (pageOf pageSize data i).length = min pageSize (data.length - i / pageSize * pageSize) := by
  simp [pageOf]

lemma page_start_eq {pageSize i k : ℕ} (hlo : k / pageSize * pageSize ≤ i)
    (hhi : i < k / pageSize * pageSize + pageSize) :
    i / pageSize * pageSize = k / pageSize * pageSize := by
  have : i / pageSize = k / pageSize :=
    Nat.div_eq_of_lt_le hlo (by rwa [Nat.add_mul, Nat.one_mul])
  rw [this]

/-- **Only the tail can be lost.**  The page loop programs every byte of the data if and only if
`TailProgrammed` holds. -/
lemma programmed_eq_iff {pageSize : ℕ} (h4 : 4 ∣ pageSize) (hpos : 0 < pageSize)
    {data : List UInt8} (hdata : 0 < data.length) :
    (∀ i < data.length, programmed pageSize data i = data.getD i 0xFF) ↔
      TailProgrammed pageSize data := by
  have hmul : ∀ i, i / pageSize * pageSize % 4 = 0 := fun i =>
    Nat.mod_eq_zero_of_dvd (h4.mul_left _)
  have hstart : ∀ i, i / pageSize * pageSize ≤ i := fun i => Nat.div_mul_le_self _ _
  have hend : ∀ i, i < i / pageSize * pageSize + pageSize := fun i => Nat.lt_div_mul_add hpos
  have hpage4 : pageSize % 4 = 0 := Nat.mod_eq_zero_of_dvd h4
  constructor
  · intro h
    by_contra hbad
    simp only [TailProgrammed, not_or, not_forall, not_exists, not_and, not_not] at hbad
    obtain ⟨⟨i, hlo, hhi, hne⟩, hwords⟩ := hbad
    have hlast : i / pageSize * pageSize = (data.length - 1) / pageSize * pageSize := by
      have := hstart (data.length - 1)
      have := hend (data.length - 1)
      have := hmul (data.length - 1)
      exact page_start_eq (by omega) (by omega)
    have hff : pageIsFf (pageOf pageSize data i) = true := by
      rw [pageIsFf_iff, length_pageOf]
      intro j hj
      rw [getD_pageOf (by omega)]
      have := hstart i
      have := hmul i
      exact hwords _ (by omega) (by omega)
    have hi := h i hhi
    rw [programmed, if_pos hff] at hi
    exact hne hi.symm
  · intro h i hi
    rw [programmed]
    split
    · rename_i hff
      rw [pageIsFf_iff, length_pageOf] at hff
      have hlo := hstart i
      have hhi := hend i
      have hmod := hmul i
      generalize hp : i / pageSize * pageSize = p at *
      have hword : ∀ j, p ≤ j → j < p + (min pageSize (data.length - p)) / 4 * 4 →
          data.getD j 0xFF = 0xFF := by
        intro j hj hj'
        have := hff (j - p) (by omega)
        rwa [getD_pageOf (by omega), hp, show p + (j - p) = j by omega] at this
      by_cases hin : i < p + (min pageSize (data.length - p)) / 4 * 4
      · exact (hword i hlo hin).symm
      · -- the byte lies after the last whole word of the last page
        have hlast : (data.length - 1) / pageSize * pageSize = p := by
          rw [← hp]
          exact page_start_eq (by omega) (by omega)
        rcases h with hff' | ⟨j, hj, hj', hne⟩
        · exact (hff' i (by omega) hi).symm
        · exact absurd (hword j (by omega) (by omega)) hne
    · rfl

/-! ## The contents of the flash -/

namespace WriteJob

variable {w : WriteJob}

/-- Sectors are cut into the same pages as the data. -/
lemma programmed_sectorData {s o : ℕ} (ho : o < w.g.sectorSize) :
    programmed w.g.pageSize (w.job.sectorData s) o =
      programmed w.g.pageSize w.data (s * w.g.sectorSize + o) := by
  obtain ⟨q, hq⟩ := w.g.page_dvd
  have hpage := w.g.page_pos
  have hstart : (s * w.g.sectorSize + o) / w.g.pageSize * w.g.pageSize =
      s * w.g.sectorSize + o / w.g.pageSize * w.g.pageSize := by
    rw [hq, Nat.mul_left_comm, Nat.mul_add_div hpage, Nat.add_mul, Nat.mul_comm w.g.pageSize]
  have hend : o / w.g.pageSize * w.g.pageSize + w.g.pageSize ≤ w.g.sectorSize := by
    have hlt : o / w.g.pageSize < q :=
      (Nat.div_lt_iff_lt_mul hpage).mpr (by rwa [Nat.mul_comm, ← hq])
    have := Nat.mul_le_mul_right w.g.pageSize hlt
    rwa [Nat.succ_mul, Nat.mul_comm q, ← hq] at this
  have hpages : pageOf w.g.pageSize (w.job.sectorData s) o =
      pageOf w.g.pageSize w.data (s * w.g.sectorSize + o) := by
    rw [pageOf, pageOf, hstart, FlashJob.sectorData, w.sectorSz_eq, List.drop_take, List.take_take,
      List.drop_drop, Nat.min_eq_left (by omega)]
    rfl
  have hbyte : (w.job.sectorData s).getD o 0xFF = w.data.getD (s * w.g.sectorSize + o) 0xFF := by
    rw [FlashJob.sectorData, w.sectorSz_eq, List.getD_eq_getElem?_getD,
      List.getElem?_take_of_lt ho, List.getElem?_drop, List.getD_eq_getElem?_getD]
    rfl
  rw [programmed, programmed, hpages, hbyte]

/-- An erase hits exactly its sector. -/
lemma mem_sector_iff (haligned : w.addr % w.g.sectorSize = 0) (s x : ℕ) :
    x / w.g.sectorSize = (w.addr + s * w.g.sectorSize) / w.g.sectorSize ↔
      w.addr + s * w.g.sectorSize ≤ x ∧ x < w.addr + (s + 1) * w.g.sectorSize := by
  obtain ⟨q, hq⟩ := Nat.dvd_of_mod_eq_zero haligned
  have hpos := w.g.sector_pos
  have hsum : w.addr + s * w.g.sectorSize = (q + s) * w.g.sectorSize := by
    rw [hq, Nat.add_mul, Nat.mul_comm]
  rw [hsum, Nat.mul_div_cancel _ hpos, Nat.div_eq_iff hpos, Nat.succ_mul, ← Nat.add_assoc, hsum]
  omega

/-- Nothing of an empty sector is programmed. -/
lemma programmed_of_empty {s o : ℕ} (hempty : w.job.nonEmpty s = false)
    (ho : o < w.g.sectorSize) :
    programmed w.g.pageSize w.data (s * w.g.sectorSize + o) = 0xFF := by
  have hbyte : (w.job.sectorData s).getD o 0xFF = 0xFF := by
    by_cases hlt : o < (w.job.sectorData s).length
    · rw [List.getD_eq_getElem _ _ hlt]
      exact w.job.nonEmpty_eq_false.mp hempty _ (List.getElem_mem hlt)
    · exact List.getD_eq_default _ _ (by omega)
  rw [← programmed_sectorData ho, programmed, hbyte, ite_self]

/-- What the driver calls for one sector do. -/
lemma applyEvents_sectorEvents (haligned : w.addr % w.g.sectorSize = 0) {s : ℕ}
    (hs : s < w.job.numSectors) (flash : Store UInt8) (x : ℕ) :
    applyEvents w.g flash (sectorEvents w.g w.req w.job.sectorData s) x =
      if w.addr + s * w.g.sectorSize ≤ x ∧ x < w.addr + (s + 1) * w.g.sectorSize then
        if x - w.addr < w.data.length then programmed w.g.pageSize w.data (x - w.addr) else 0xFF
      else flash x := by
  have hlt := w.sector_lt hs
  obtain ⟨-, -, -, hsector, hfits⟩ := w.geometry_bounds
  have hlen := w.length_sectorData s
  rw [w.sectorBytes_eq] at hlen
  have hadd : add32 w.req.flashAddr (s * w.g.sectorSize) = w.addr + s * w.g.sectorSize :=
    add32_of_lt (show w.addr + _ < _ by omega)
  have hsucc : (s + 1) * w.g.sectorSize = s * w.g.sectorSize + w.g.sectorSize := Nat.succ_mul _ _
  rw [sectorEvents, hadd, w.announced_eq hs]
  cases hempty : w.job.nonEmpty s with
  | true =>
      rw [if_pos rfl, eraseAndProgram, if_pos (show idealChip.eraseOk _ = true from rfl),
        applyEvents_cons, applyEvents_programPages (by omega), FlashEvent.apply]
      simp only [mem_sector_iff haligned]
      by_cases hx : w.addr + s * w.g.sectorSize ≤ x ∧ x < w.addr + (s + 1) * w.g.sectorSize
      · rw [if_pos hx, if_pos hx]
        by_cases hdata : x - w.addr < w.data.length
        · rw [if_pos ⟨hx.1, by omega⟩, if_pos hdata, UInt8.and_comm, and_ff,
            programmed_sectorData (by omega),
            show s * w.g.sectorSize + (x - (w.addr + s * w.g.sectorSize)) = x - w.addr by omega]
        · rw [if_neg (by omega), if_neg hdata]
      · rw [if_neg (by omega), if_neg hx, if_neg hx]
  | false =>
      rw [if_neg (by decide), applyEvents_cons, applyEvents_nil, FlashEvent.apply]
      simp only [mem_sector_iff haligned]
      by_cases hx : w.addr + s * w.g.sectorSize ≤ x ∧ x < w.addr + (s + 1) * w.g.sectorSize
      · have hff := programmed_of_empty (o := x - (w.addr + s * w.g.sectorSize)) hempty (by omega)
        rw [show s * w.g.sectorSize + (x - (w.addr + s * w.g.sectorSize)) = x - w.addr by omega]
          at hff
        rw [if_pos hx, if_pos hx, hff, ite_self]
      · rw [if_neg hx, if_neg hx]

/-- **The contents of the flash** after the first `k` sectors. -/
lemma flashAfter_apply (haligned : w.addr % w.g.sectorSize = 0) (init : Store UInt8) {k : ℕ}
    (hk : k ≤ w.job.numSectors) (x : ℕ) :
    flashAfter w.g w.req w.job.sectorData init k x =
      if w.addr ≤ x ∧ x < w.addr + k * w.g.sectorSize then
        if x - w.addr < w.data.length then programmed w.g.pageSize w.data (x - w.addr) else 0xFF
      else init x := by
  induction k with
  | zero =>
      rw [if_neg (by omega)]
      rfl
  | succ k ih =>
      have hsucc : (k + 1) * w.g.sectorSize = k * w.g.sectorSize + w.g.sectorSize :=
        Nat.succ_mul _ _
      rw [flashAfter_succ, applyEvents_sectorEvents haligned hk, ih (by omega)]
      split_ifs <;> first | rfl | omega

/-! ## When a session completes -/

/-- Every byte lies in its sector. -/
lemma getElem_mem_sectorData {i : ℕ} (hi : i < w.data.length) :
    w.data[i] ∈ w.job.sectorData (i / w.g.sectorSize) := by
  rw [List.mem_iff_getElem?]
  refine ⟨i % w.g.sectorSize, ?_⟩
  rw [FlashJob.sectorData, w.sectorSz_eq, List.getElem?_take_of_lt (Nat.mod_lt _ w.g.sector_pos),
    List.getElem?_drop, Nat.div_add_mod']
  exact List.getElem?_eq_getElem hi

/-- The sectors that can be encoded, in terms of the data. -/
lemma encoded_iff : (∀ s < w.job.numSectors, (w.job.sendSector s).2 = true) ↔
    ∀ x ∈ w.data.drop (2 ^ 25), x = 0xFF := by
  obtain ⟨hwrap, hchunk, -, -, -⟩ := w.geometry_bounds
  have hpos := w.g.sector_pos
  have hiff : ∀ s < w.job.numSectors, ((w.job.sendSector s).2 = true ↔
      (∀ x ∈ w.job.sectorData s, x = 0xFF) ∨ s * w.g.sectorSize < 2 ^ 25) := by
    intro s hs
    have h := w.job.sendSector_encodes_iff (by rwa [w.sectorSz_eq]) (by rwa [w.sectorSz_eq]) hs
    rwa [w.sectorSz_eq, w.job.nonEmpty_eq_false] at h
  constructor
  · intro h x hx
    obtain ⟨i, hi, rfl⟩ := List.mem_iff_getElem.mp hx
    rw [List.length_drop] at hi
    -- the byte lies in a sector that starts at 32 MiB or later
    have hs : (2 ^ 25 + i) / w.g.sectorSize < w.job.numSectors := by
      have := Nat.div_mul_le_self (2 ^ 25 + i) w.g.sectorSize
      exact w.lt_numSectors (by omega)
    have hlow : 2 ^ 25 ≤ (2 ^ 25 + i) / w.g.sectorSize * w.g.sectorSize := by
      obtain ⟨q, hq⟩ := hwrap
      have : q ≤ (2 ^ 25 + i) / w.g.sectorSize := by
        rw [Nat.le_div_iff_mul_le hpos, Nat.mul_comm, ← hq]
        omega
      calc 2 ^ 25 = q * w.g.sectorSize := by rw [hq, Nat.mul_comm]
        _ ≤ _ := Nat.mul_le_mul_right _ this
    rcases (hiff _ hs).mp (h _ hs) with hff | hlt
    · rw [List.getElem_drop]
      exact hff _ (getElem_mem_sectorData (by omega))
    · omega
  · intro h s hs
    rw [hiff s hs]
    by_cases hlt : s * w.g.sectorSize < 2 ^ 25
    · exact .inr hlt
    · refine .inl fun x hx => h x ?_
      have hdrop : w.data.drop (s * w.g.sectorSize) =
          (w.data.drop (2 ^ 25)).drop (s * w.g.sectorSize - 2 ^ 25) := by
        rw [List.drop_drop, Nat.add_sub_cancel' (by omega)]
      rw [FlashJob.sectorData, w.sectorSz_eq] at hx
      have hx' : x ∈ w.data.drop (s * w.g.sectorSize) := List.mem_of_mem_take hx
      rw [hdrop] at hx'
      exact List.mem_of_mem_drop hx'

/-! ### A transport that cannot follow -/

/-- The first sector can always be sent. -/
lemma encoded_first : (w.job.sendSector 0).2 = true := by
  obtain ⟨hwrap, hchunk, -, -, -⟩ := w.geometry_bounds
  rw [← w.sectorSz_eq] at hwrap hchunk
  rw [w.job.sendSector_encodes_iff hchunk hwrap w.numSectors_pos, Nat.zero_mul]
  exact .inr (by decide)

/-- What the host has sent when it believes its request accepted. -/
def strandedSent (w : WriteJob) : List Packet :=
  [setBaudPacket defaultFastBaud, setBaudPacket fallbackBaud, w.job.request]

/-- A delivery to the host. -/
lemma step_host (w : WriteJob) (s : WriteHost) (t : StreamAgent) (x : Packet)
    (xs ys : List Packet) : w.Step ⟨s, t, x :: xs, ys⟩
      ⟨(WriteHost.recv w.job s x).1, t, xs, ys ++ (WriteHost.recv w.job s x).2⟩ :=
  .fst s t x xs ys

/-- A delivery to the agent. -/
lemma step_agent (w : WriteJob) (s : WriteHost) (t : StreamAgent) (xs : List Packet) (y : Packet)
    (ys : List Packet) : w.Step ⟨s, t, xs, y :: ys⟩
      ⟨s, (StreamAgent.recv w.b w.info t y).1, xs ++ (StreamAgent.recv w.b w.info t y).2, ys⟩ :=
  .snd s t xs y ys

/-- **The answer that is left over.**  The host has sent its request, and the answer to the second
`CMD_SET_BAUD` is on its way. -/
lemma reaches_stranded (hswitches : w.switches = true) (hcan : w.client.canSetBaud = false)
    (init ram : Store UInt8) : Reaches w.Step (w.start init ram 0)
      ⟨⟨.awaitAck, w.strandedSent⟩, ⟨init, .ready ram⟩, [ackPacket ackOk], [w.job.request]⟩ := by
  have hstart : w.start init ram 0 = ⟨⟨.switching .awaitAck, [setBaudPacket defaultFastBaud]⟩,
      ⟨init, .ready ram⟩, [], [setBaudPacket defaultFastBaud]⟩ := by
    have hhost : WriteHost.start w.job =
        ⟨.switching .awaitAck, [setBaudPacket defaultFastBaud]⟩ := if_pos hswitches
    rw [start, hhost]
    rfl
  have hnext : writeFlashRecv w.job (.switching .awaitAck) (ackPacket ackOk) =
      (.awaitAck, [setBaudPacket fallbackBaud, w.job.request]) := by
    have hrecv : switchRecv w.job.client .awaitAck (ackPacket ackOk) =
        (.over, [setBaudPacket fallbackBaud]) := by
      have hcan : w.job.client.canSetBaud = false := hcan
      simp [switchRecv, ackPacket, hcan, show rspAck ≠ rspReady by decide]
    rw [writeFlashRecv, FlashJob.afterSwitch, hrecv]
    simp only [announce_eq, List.singleton_append]
  have hasked := step_agent w ⟨.switching .awaitAck, [setBaudPacket defaultFastBaud]⟩
    ⟨init, .ready ram⟩ [] (setBaudPacket defaultFastBaud) []
  rw [recv_setBaud init ram (by decide) (by decide)] at hasked
  have hturned := step_host w ⟨.switching .awaitAck, [setBaudPacket defaultFastBaud]⟩
    ⟨init, .ready ram⟩ (ackPacket ackOk) [] []
  rw [WriteHost.recv, hnext] at hturned
  have hback := step_agent w ⟨.awaitAck, w.strandedSent⟩ ⟨init, .ready ram⟩ []
    (setBaudPacket fallbackBaud) [w.job.request]
  rw [recv_setBaud init ram (by decide) (by decide)] at hback
  rw [hstart]
  exact (((Reaches.refl _).tail hasked).tail hturned).tail hback

/-- Two `ACK_OK`s in a row, and the host returns `True`. -/
lemma recv_two_acks (sent : List Packet) :
    let first := WriteHost.recv w.job ⟨.awaitAck, sent⟩ (ackPacket ackOk)
    (WriteHost.recv w.job first.1 (ackPacket ackOk)).1.phase = .returned true := by
  have hturn : writeFlashRecv w.job .awaitAck (ackPacket ackOk) =
      (w.hostAt 1, w.sectorPackets 0) :=
    turn_eq (Nat.zero_le _) fun _ => encoded_first
  have hpos := w.numSectors_pos
  simp only [WriteHost.recv, hturn, hostAt, if_neg (show (1 : ℕ) ≠ 0 by decide),
    if_pos (show 1 ≤ w.job.numSectors from hpos)]
  rfl

/-! ### The calls that complete -/

/-- What a call of `write_flash` against a fault-free agent over a perfect link is to do, whatever
flash, RAM and announcements it starts from. -/
structure Completes (w : WriteJob) : Prop where
  /-- No order of deliveries makes the host raise. -/
  never_raises : ∀ flash ram stale c, Reaches w.Step (w.start flash ram stale) c →
    c.fst.phase ≠ .raised
  /-- Every session comes to an end. -/
  bounded : ∀ flash ram stale, ∃ bound, ∀ n c, Run w.Step n (w.start flash ram stale) c → n ≤ bound
  /-- The call returns on the last reply: the agent is back in its main loop, and nothing it has
  sent is left to read. -/
  answers : ∀ flash ram stale c ok, Reaches w.Step (w.start flash ram stale) c →
    c.fst.phase = .returned ok → ok = true ∧ c.snd.phase = .finished ∧ c.toFst = []
  /-- When nothing is left to deliver, every data packet of every sector with data has been
  encoded and sent, and the call has returned what the final `ACK_OK` says. -/
  returns : ∀ flash ram stale c, Reaches w.Step (w.start flash ram stale) c →
    (∀ d, ¬ w.Step c d) → c.fst.phase = .returned true ∧
      (∀ s < w.job.numSectors, (w.job.sendSector s).2 = true) ∧
      c.fst.sent = w.preamble ++ w.job.request ::
        (List.range w.job.numSectors).flatMap fun s => (w.job.sendSector s).1

/-- From every start some session ends: with the host raised, or done. -/
lemma exists_end (hfollow : w.CanFollow) (flash ram : Store UInt8) (stale : ℕ) :
    ∃ c, Reaches w.Step (w.start flash ram stale) c ∧
      (w.Overrun c ∨ w.Done flash c ∧ ∀ d, ¬ w.Step c d) := by
  obtain ⟨n, hstart⟩ := conforms_start hfollow flash ram stale
  obtain ⟨c, hreach, hend⟩ := exists_stuck (conforms_ranked flash) n hstart
  refine ⟨c, hreach, hend.imp_right ?_⟩
  rintro ⟨⟨m, hm⟩, hstuck⟩
  exact ⟨conforms_stuck hm hstuck, hstuck⟩

lemma not_overrun (h : ∀ s < w.job.numSectors, (w.job.sendSector s).2 = true) (c : Session) :
    ¬ w.Overrun c := by
  rintro ⟨-, s, hs, hfail⟩
  rw [h s hs] at hfail
  cases hfail

/-- **The answer left over ends the call early.** -/
lemma canFollow_of_completes (h : w.Completes) : w.CanFollow := by
  intro hswitches
  by_contra hcan
  rw [Bool.not_eq_true] at hcan
  have hreach := reaches_stranded hswitches hcan (fun _ => 0xFF) (fun _ => 0)
  obtain ⟨next, e', hrecv, he', hadv⟩ := w.recv_request (fun _ => 0xFF) (fun _ => 0)
  have hreplies := hadv.replies
  rw [streamReplies_cons _ he', streamReply, if_pos (.inl rfl)] at hreplies
  have hbegun := step_agent w ⟨.awaitAck, w.strandedSent⟩ ⟨fun _ => 0xFF, .ready fun _ => 0⟩
    [ackPacket ackOk] w.job.request []
  rw [hrecv, StreamAgent.resume, hreplies] at hbegun
  have hend := ((hreach.tail hbegun).tail (.fst _ _ _ _ _)).tail (.fst _ _ _ _ _)
  obtain ⟨-, hfinished, hread⟩ := h.answers _ _ _ _ true hend (recv_two_acks _)
  -- an agent that is back in its main loop has sent more than one reply
  obtain ⟨hnext, hflash⟩ : next.1 = none ∧ e' = w.req.numSectors w.g + 2 := by
    have hnext := StreamAgent.phaseOf_eq_finished.mp hfinished
    have hreached := hadv.reached
    rw [hnext] at hreached
    cases hreached with
    | done h => exact ⟨hnext, rfl⟩
  have hlen := congrArg List.length hread
  rw [length_streamReplies, List.length_nil] at hlen
  omega

/-- A sector that cannot be encoded stops every session short. -/
lemma encoded_of_completes (h : w.Completes) :
    ∀ s < w.job.numSectors, (w.job.sendSector s).2 = true := by
  obtain ⟨c, hreach, hover | ⟨hdone, -⟩⟩ :=
    w.exists_end (canFollow_of_completes h) (fun _ => 0xFF) (fun _ => 0) 0
  · exact absurd hover.1 (h.never_raises _ _ _ c hreach)
  · exact hdone.encoded

lemma completes_of_encoded (hfollow : w.CanFollow)
    (h : ∀ s < w.job.numSectors, (w.job.sendSector s).2 = true) : w.Completes := by
  have hrank : ∀ flash ram stale, ∃ bound, ∀ n c, Run w.Step n (w.start flash ram stale) c →
      n ≤ bound ∧ ∃ m, w.Conforms flash m c := by
    intro flash ram stale
    obtain ⟨bound, hstart⟩ := conforms_start hfollow flash ram stale
    refine ⟨bound, fun n c hrun => ?_⟩
    rcases hrun.ranked (conforms_ranked flash) overrun_absorbing hstart with ⟨m, hm, hle⟩ | hover
    · exact ⟨by omega, m, hm⟩
    · exact absurd hover (not_overrun h c)
  constructor
  · rintro flash ram stale c ⟨n, hrun⟩ hraised
    obtain ⟨bound, hbound⟩ := hrank flash ram stale
    obtain ⟨-, m, hm⟩ := hbound n c hrun
    exact (conforms_phase hm).1 hraised
  · intro flash ram stale
    obtain ⟨bound, hbound⟩ := hrank flash ram stale
    exact ⟨bound, fun n c hrun => (hbound n c hrun).1⟩
  · rintro flash ram stale c ok ⟨n, hrun⟩ hret
    obtain ⟨bound, hbound⟩ := hrank flash ram stale
    obtain ⟨-, m, hm⟩ := hbound n c hrun
    cases ok with
    | false => exact absurd hret (conforms_phase hm).2
    | true =>
        have hdone := conforms_returned hm hret
        exact ⟨rfl, hdone.finished, hdone.read⟩
  · rintro flash ram stale c ⟨n, hrun⟩ hstuck
    obtain ⟨bound, hbound⟩ := hrank flash ram stale
    obtain ⟨-, m, hm⟩ := hbound n c hrun
    have hdone := conforms_stuck hm hstuck
    exact ⟨hdone.returned, hdone.encoded, hdone.sent⟩

end WriteJob

/-- **A flash write completes exactly when** the transport can follow a change of the rate that the
call asks for, and nothing but `0xFF` lies beyond 32 MiB. -/
theorem writeFlash_completes_iff (w : WriteJob) :
    w.Completes ↔ (w.switches = true → w.client.canSetBaud = true) ∧
      ∀ x ∈ w.data.drop (2 ^ 25), x = 0xFF :=
  ⟨fun h => ⟨WriteJob.canFollow_of_completes h,
      WriteJob.encoded_iff.mp (WriteJob.encoded_of_completes h)⟩,
    fun h => WriteJob.completes_of_encoded h.1 (WriteJob.encoded_iff.mpr h.2)⟩

lemma norPageSize_pos : 0 < 256 := by decide

/-- A call on a board with a 64 MiB NOR. -/
def WriteJob.onNor (addr : ℕ) (data : List UInt8) (hpos : 0 < data.length)
    (hfits : addr + data.length ≤ 2 ^ 26) : WriteJob where
  b := ⟨hi3516ev300, hi3516ev300_mem, ⟨0x100, fun _ => (0xEF, 0x40, 0x1A), none⟩⟩
  g := ⟨2 ^ 26, 0x10000, 256, by decide, by decide, by decide, norPageSize_pos, by decide⟩
  geometry_eq := rfl
  spi := by decide
  client := serialClient
  info := []
  addr := addr
  data := data
  data_pos := hpos
  fits := hfits

/-- One byte of data behind 32 MiB of `0xFF`. -/
def lateByte : List UInt8 := List.replicate (2 ^ 25) 0xFF ++ [0x00]

lemma length_lateByte : lateByte.length = 2 ^ 25 + 1 := by
  rw [lateByte, List.length_append, List.length_replicate, List.length_singleton]

/-- On that image the sequence number `65536` does not fit, and the host raises after the agent has
erased 32 MiB. -/
theorem writeFlash_raises_on_lateByte :
    ¬ (WriteJob.onNor 0 lateByte (by rw [length_lateByte]; omega)
      (by rw [length_lateByte]; omega)).Completes := by
  intro h
  have hff := WriteJob.encoded_iff.mp (WriteJob.encoded_of_completes h) 0x00 (by
    show (0x00 : UInt8) ∈ lateByte.drop (2 ^ 25)
    rw [lateByte, List.drop_left' List.length_replicate]
    exact List.mem_singleton.mpr rfl)
  exact absurd hff (by decide)

/-! ## What a completed session has written -/

/-- A call whose address is on a sector boundary. -/
structure AlignedJob extends WriteJob where
  aligned : addr % g.sectorSize = 0

/-- The flash holds the data, and the sectors around it are what they were. -/
def WriteJob.Written (w : WriteJob) (init flash : Store UInt8) : Prop :=
  flash.load w.addr w.data.length = w.data ∧
    ∀ x, x / w.g.sectorSize < w.addr / w.g.sectorSize ∨
      (w.addr + w.data.length - 1) / w.g.sectorSize < x / w.g.sectorSize → flash x = init x

/-- When the host returns `True`, in whatever order packets were delivered and driver calls made,
the data is written. -/
def WriteJob.Faithful (w : WriteJob) : Prop :=
  ∀ init ram stale c, Reaches w.FineStep (w.start init ram stale).idle c →
    c.fst.phase = .returned true → w.Written init c.snd.agent.flash

namespace AlignedJob

variable {w : AlignedJob}

/-- The sectors of the data are the ones that cover its range. -/
lemma outside {x : ℕ} (hx : x / w.g.sectorSize < w.addr / w.g.sectorSize ∨
    (w.addr + w.data.length - 1) / w.g.sectorSize < x / w.g.sectorSize) :
    ¬ (w.addr ≤ x ∧ x < w.addr + w.job.numSectors * w.g.sectorSize) := by
  rintro ⟨hlo, hhi⟩
  have hpos := w.g.sector_pos
  obtain ⟨q, hq⟩ := Nat.dvd_of_mod_eq_zero w.aligned
  have hnum := w.numSectors_pos
  have hlast := w.sector_lt (show w.job.numSectors - 1 < w.job.numSectors by omega)
  rcases hx with hx | hx
  · have := Nat.div_le_div_right (c := w.g.sectorSize) hlo
    omega
  · have hx' : x / w.g.sectorSize < q + w.job.numSectors := by
      rw [Nat.div_lt_iff_lt_mul hpos, Nat.add_mul, Nat.mul_comm q, ← hq]
      exact hhi
    have hcover : q + (w.job.numSectors - 1) ≤
        (w.addr + w.data.length - 1) / w.g.sectorSize := by
      rw [Nat.le_div_iff_mul_le hpos, Nat.add_mul, Nat.mul_comm q, ← hq]
      omega
    omega

lemma lt_sectors {i : ℕ} (hi : i < w.data.length) : i < w.job.numSectors * w.g.sectorSize := by
  have hpos := w.g.sector_pos
  have hs : i / w.g.sectorSize < w.job.numSectors := by
    have := Nat.div_mul_le_self i w.g.sectorSize
    exact w.lt_numSectors (by omega)
  exact (Nat.div_lt_iff_lt_mul hpos).mp hs

/-- **A finished session** has written the data unless its tail is lost. -/
lemma written_iff {init : Store UInt8} {c : WriteJob.Session} (hdone : w.Done init c) :
    w.Written init c.snd.flash ↔ TailProgrammed w.g.pageSize w.data := by
  obtain ⟨-, -, h4, -, -⟩ := w.geometry_bounds
  have hflash := WriteJob.flashAfter_apply w.aligned init (Nat.le_refl w.job.numSectors)
  rw [← hdone.flash] at hflash
  have hbyte : ∀ i < w.data.length, c.snd.flash (w.addr + i) =
      programmed w.g.pageSize w.data i := by
    intro i hi
    have := lt_sectors hi
    rw [hflash, if_pos (by omega), Nat.add_sub_cancel_left, if_pos hi]
  have hout : ∀ x, x / w.g.sectorSize < w.addr / w.g.sectorSize ∨
      (w.addr + w.data.length - 1) / w.g.sectorSize < x / w.g.sectorSize →
      c.snd.flash x = init x := by
    intro x hx
    rw [hflash, if_neg (outside hx)]
  rw [← programmed_eq_iff h4 w.g.page_pos w.data_pos, WriteJob.Written, Store.load_eq_iff]
  constructor
  · rintro ⟨⟨-, hload⟩, -⟩ i hi
    have := hload i hi
    rw [← hbyte i hi, List.getD_eq_getElem?_getD, this, Option.getD_some]
  · intro h
    refine ⟨⟨rfl, fun i hi => ?_⟩, hout⟩
    rw [hbyte i hi, h i hi, List.getElem?_eq_getElem hi, List.getD_eq_getElem _ _ hi]

/-- A lost tail beyond 32 MiB is never reached. -/
lemma tailProgrammed_of_encoded (hlong : 2 ^ 25 < w.data.length)
    (henc : ∀ s < w.job.numSectors, (w.job.sendSector s).2 = true) :
    TailProgrammed w.g.pageSize w.data := by
  refine .inl fun i hlo hhi => ?_
  have hff := WriteJob.encoded_iff.mp henc
  rw [List.getD_eq_getElem _ _ hhi]
  refine hff _ (List.mem_iff_getElem?.mpr ⟨i - 2 ^ 25, ?_⟩)
  rw [List.getElem?_drop, Nat.add_sub_cancel' (by omega), List.getElem?_eq_getElem hhi]

/-- A host whose transport cannot follow may return `True` before the agent has made a driver
call. -/
lemma canFollow_of_faithful (h : w.Faithful) : w.CanFollow := by
  intro hswitches
  by_contra hcan
  rw [Bool.not_eq_true] at hcan
  -- a flash that holds something else at the first byte
  set init : Store UInt8 := fun _ => w.data.getD 0 0 + 1 with hinit
  have hstranded := (WriteJob.reaches_stranded hswitches hcan init fun _ => 0).lift
    WriteJob.fine_of_step
  obtain ⟨phase, events, hreact⟩ := w.react_request fun _ => 0
  have hbegun := WriteJob.FineStep.agent (w := w.toWriteJob) ⟨.awaitAck, w.strandedSent⟩
    ⟨init, .ready fun _ => 0⟩ [ackPacket ackOk] w.job.request []
  rw [hreact] at hbegun
  have hacked := WriteJob.FineStep.event (w := w.toWriteJob) ⟨.awaitAck, w.strandedSent⟩
    ⟨init, phase⟩ (sendAck ackOk) events [ackPacket ackOk] []
  have hsame : w.b.applyEvents init [sendAck ackOk] = init := by
    rw [Board.applyEvents_eq w.geometry_eq]
    rfl
  rw [hsame] at hacked
  have hend := (((hstranded.tail hbegun).tail hacked).tail (.host _ _ _ _ _)).tail
    (.host _ _ _ _ _)
  obtain ⟨hload, -⟩ := h _ _ _ _ hend (WriteJob.recv_two_acks _)
  have hfirst := (Store.load_eq_iff.mp hload).2 0 w.data_pos
  rw [List.getElem?_eq_getElem w.data_pos, Option.some.injEq] at hfirst
  rw [hinit, List.getD_eq_getElem _ _ w.data_pos] at hfirst
  simp at hfirst

/-- A short enough image with a lost tail is reported as written. -/
lemma tailProgrammed_of_faithful (h : w.Faithful) (hshort : w.data.length ≤ 2 ^ 25) :
    TailProgrammed w.g.pageSize w.data := by
  have henc : ∀ s < w.job.numSectors, (w.job.sendSector s).2 = true := by
    refine WriteJob.encoded_iff.mpr fun x hx => ?_
    rw [List.drop_of_length_le hshort] at hx
    cases hx
  obtain ⟨c, hreach, hover | ⟨hdone, -⟩⟩ :=
    w.exists_end (canFollow_of_faithful h) (fun _ => 0xFF) (fun _ => 0) 0
  · exact absurd hover (WriteJob.not_overrun henc c)
  · exact (written_iff hdone).mp
      (h _ _ _ c.idle (hreach.lift WriteJob.fine_of_step) hdone.returned)

lemma faithful_of_tailProgrammed (hfollow : w.CanFollow)
    (h : TailProgrammed w.g.pageSize w.data ∨ 2 ^ 25 < w.data.length) : w.Faithful := by
  intro init ram stale c hreach hret
  obtain ⟨hdone, htodo⟩ := WriteJob.fine_returned hfollow hreach hret
  have hwritten : w.Written init (w.settle c).snd.flash := by
    refine (written_iff hdone).mpr ?_
    rcases h with htail | hlong
    · exact htail
    · exact tailProgrammed_of_encoded hlong hdone.encoded
  rwa [WriteJob.settle, htodo, WriteJob.applyEvents_none] at hwritten

end AlignedJob

/-- **What `True` means.**  The data is in the flash, byte for byte, unless the transport cannot
follow a change of the rate that the call asks for, or `page_is_ff` misses the tail of the data. -/
theorem writeFlash_written_iff (w : AlignedJob) :
    w.Faithful ↔ (w.switches = true → w.client.canSetBaud = true) ∧
      (TailProgrammed w.g.pageSize w.data ∨ 2 ^ 25 < w.data.length) := by
  constructor
  · intro h
    refine ⟨AlignedJob.canFollow_of_faithful h, ?_⟩
    rcases Nat.lt_or_ge (2 ^ 25) w.data.length with hlong | hshort
    · exact .inr hlong
    · exact .inl (AlignedJob.tailProgrammed_of_faithful h hshort)
  · exact fun h => AlignedJob.faithful_of_tailProgrammed h.1 h.2

/-- A single zero byte is not programmed, and the host returns `True`. -/
theorem writeFlash_loses_single_byte :
    ¬ (WriteJob.onNor 0 [0x00] (by decide) (by decide)).Faithful := by
  intro h
  have htail : TailProgrammed 256 [0x00] :=
    AlignedJob.tailProgrammed_of_faithful
      (w := ⟨WriteJob.onNor 0 [0x00] (by decide) (by decide), rfl⟩) h (by decide)
  rcases htail with hff | ⟨i, -, hi, -⟩
  · exact absurd (hff 0 (by decide) (by decide)) (by decide)
  · exact absurd hi (by simp)

end Defib
