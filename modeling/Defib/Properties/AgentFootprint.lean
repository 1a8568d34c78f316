import Defib.Agent.RamStores

/-!
# The agent does not overwrite itself

Four handlers write to RAM outside the agent: where the bytes they receive are staged, or where a
bandwidth test runs.  `handle_membw` refuses ranges that meet the agent's footprint, and the two
buffers of `handle_flash_stream` lie below it.  The staging area of `handle_flash_write` begins
below it and is as long as the request.  `handle_selfupdate` stages the new program 1 MiB above its
target, behind the running one when the target is the address it was loaded at.
-/

namespace Defib

/-! ## Where the stores go -/

variable {b : AgentBoard}

/-- The memory map of every build. -/
lemma AgentBoard.layout (b : AgentBoard) :
    0x40000000 ≤ b.soc.ramBase ∧ b.soc.ramBase ≤ 0x80000000 ∧
      b.soc.ramBase + 0x1000000 ≤ b.agentLoadAddr ∧
      b.agentLoadAddr ≤ b.soc.ramBase + 0x1000400 := by
  have h : ∀ m ∈ agentBuilds, 0x40000000 ≤ m.1.ramBase ∧ m.1.ramBase ≤ 0x80000000 ∧
      m.1.ramBase + 0x1000000 ≤ m.2.1 ∧ m.2.1 ≤ m.1.ramBase + 0x1000400 := by
    decide
  exact h _ b.build_mem

/-- A receive loop stores within its area. -/
lemma exists_of_mem_copyStores {dest received limit : ℕ} {pkt : List UInt8} {p : ℕ × UInt8}
    (h : p ∈ copyStores dest received limit pkt) : ∃ i < limit, p.1 = add32 dest i := by
  obtain ⟨i, hi, rfl⟩ := List.mem_mapIdx.mp h
  refine ⟨received + i, ?_, rfl⟩
  rw [List.length_take] at hi
  omega

lemma afterStores_append (ram : Store UInt8) (xs ys : List (ℕ × UInt8)) :
    afterStores ram (xs ++ ys) = afterStores (afterStores ram xs) ys := List.foldl_append

/-- Received bytes are stored one behind the other. -/
lemma afterStores_mapIdx (ram : Store UInt8) (base : ℕ) (xs : List UInt8) :
    afterStores ram (xs.mapIdx fun i x => (base + i, x)) = ram.write base xs := by
  induction xs using List.reverseRecOn with
  | nil =>
      funext i
      simp [afterStores, Store.write]
  | append_singleton xs x ih =>
      rw [List.mapIdx_concat, afterStores_append, ih, ← Store.write_write_append]
      funext i
      change (if i = base + xs.length then x else ram.write base xs i) = _
      by_cases hi : i = base + xs.length
      · rw [if_pos hi, hi, ← Nat.add_zero (base + xs.length)]
        exact (Store.write_apply_add _ _ [x] rfl).symm
      · rw [if_neg hi]
        rcases Nat.lt_or_gt_of_ne hi with hlt | hgt
        · exact (Store.write_apply_of_lt _ [x] hlt).symm
        · exact (Store.write_apply_of_ge _ [x] hgt).symm

/-- **The receive loops store what they copy**, as long as addresses do not wrap around. -/
lemma copyIn_eq (ram : Store UInt8) {dest received limit : ℕ} (pkt : List UInt8)
    (hwrap : dest + limit ≤ 2 ^ 32) :
    copyIn ram dest received limit pkt =
      (afterStores ram (copyStores dest received limit pkt),
        received + (copyStores dest received limit pkt).length) := by
  have hflat : copyStores dest received limit pkt =
      ((pkt.drop 2).take (limit - received)).mapIdx fun i x => (dest + received + i, x) := by
    apply List.mapIdx_eq_mapIdx_iff.mpr
    intro i hi
    rw [List.length_take] at hi
    rw [add32_of_lt (by omega), Nat.add_assoc]
  rw [hflat, afterStores_mapIdx, List.length_mapIdx]
  rfl

/-- What `handle_flash_write` is seen to store is what changes its RAM. -/
lemma flashWriteRecv_ram (b : Board) (g : Geometry) (chip : Chip) (addr size crc : ℕ)
    (st : RxState) (p : Packet) (hwrap : b.soc.ramBase + 0x200000 + size ≤ 2 ^ 32) :
    ∀ st' ∈ (flashWriteRecv b g chip addr size crc st p).1,
      st'.ram = afterStores st.ram (flashWriteStores b size st p) := by
  intro st' hst'
  rw [flashWriteRecv] at hst'
  rw [flashWriteStores]
  split_ifs at hst' ⊢ with hdata htimeout
  · dsimp only at hst'
    split_ifs at hst'
    · obtain rfl := Option.some.inj hst'
      exact congrArg Prod.fst (copyIn_eq st.ram p.data hwrap)
    · cases hst'
  · cases hst'
  · obtain rfl := Option.some.inj hst'
    rfl

lemma streamAdvance_ram (b : Board) (g : Geometry) (chip : Chip) (req : StreamReq) (left : ℕ)
    (st : StreamState) : ∀ st' ∈ (streamAdvance b g chip req left st).1, st'.ram = st.ram := by
  induction left generalizing st with
  | zero => exact fun st' h => by cases h
  | succ left ih =>
      intro st' hst'
      rw [streamAdvance] at hst'
      dsimp only at hst'
      split_ifs at hst'
      · obtain rfl := Option.some.inj hst'
        rfl
      · exact ih { st with s := st.s + 1, pending := none } st' hst'
      · cases hst'
      · cases hst'

lemma StreamReq.sectorBytes_le_buffer (g : Geometry) (req : StreamReq) (s : ℕ) :
    req.sectorBytes g s ≤ 0x20000 := by
  have := g.sector_le
  rw [StreamReq.sectorBytes]
  split_ifs <;> omega

/-- What `handle_flash_stream` is seen to store is what changes its RAM. -/
lemma streamRecv_ram (b : AgentBoard) (g : Geometry) (chip : Chip) (req : StreamReq)
    (st : StreamState) (p : Packet) :
    ∀ st' ∈ (streamRecv b.toBoard g chip req st p).1,
      st'.ram = afterStores st.ram (streamStores b.toBoard g req st p) := by
  have hlayout := b.layout
  have hbytes := req.sectorBytes_le_buffer g st.s
  have hwrap : bufAddr b.toBoard st.rxBuf + req.sectorBytes g st.s ≤ 2 ^ 32 := by
    rw [bufAddr]
    split_ifs <;> omega
  have hcopy := congrArg Prod.fst (@copyIn_eq st.ram _ st.bufReceived _ p.data hwrap)
  intro st' hst'
  rw [streamRecv] at hst'
  rw [streamStores]
  split_ifs at hst' ⊢ with hdata htimeout
  · dsimp only at hst'
    split_ifs at hst'
    · obtain rfl := Option.some.inj hst'
      exact hcopy
    · exact (streamAdvance_ram _ _ _ _ _ _ st' hst').trans hcopy
    · cases hst'
  · cases hst'
  · obtain rfl := Option.some.inj hst'
    rfl

/-! ## The handlers -/

lemma exists_of_mem_flashWriteStores {b : Board} {size : ℕ} {st : RxState} {packet : Packet}
    {p : ℕ × UInt8} (h : p ∈ flashWriteStores b size st packet) :
    ∃ i < size, p.1 = add32 (b.soc.ramBase + 0x200000) i := by
  rw [flashWriteStores] at h
  split_ifs at h
  · exact exists_of_mem_copyStores h
  · cases h

/-- `handle_flash_write` stores within its staging area. -/
lemma exists_of_mem_handleFlashWriteStores {b : Board} {chip : Chip} {ram : Store UInt8}
    {data : List UInt8} {inputs : List Packet} {p : ℕ × UInt8}
    (h : p ∈ handleFlashWriteStores b chip ram data inputs) :
    ∃ i < readLe32 (data.drop 4), p.1 = add32 (b.soc.ramBase + 0x200000) i := by
  rw [handleFlashWriteStores] at h
  split_ifs at h
  · cases h
  · cases hgeometry : b.geometry with
    | none =>
        rw [hgeometry] at h
        cases h
    | some g =>
        rw [hgeometry] at h
        dsimp only at h
        split_ifs at h
        · obtain ⟨st, packet, hp⟩ := exists_of_mem_outputs h
          exact exists_of_mem_flashWriteStores hp
        · cases h

lemma add32_add (base j i : ℕ) : add32 (base + j) i = add32 base (j + i) := by
  rw [add32, add32, Nat.add_assoc]

/-- The second buffer begins where a sector of the first may end. -/
lemma exists_of_mem_streamStores {b : Board} {g : Geometry} {req : StreamReq} {st : StreamState}
    {packet : Packet} {p : ℕ × UInt8} (h : p ∈ streamStores b g req st packet) :
    ∃ i < 0x40000, p.1 = add32 (b.soc.ramBase + 0x200000) i := by
  rw [streamStores] at h
  split_ifs at h
  · obtain ⟨i, hi, hp⟩ := exists_of_mem_copyStores h
    have hbytes := req.sectorBytes_le_buffer g st.s
    cases hbuf : st.rxBuf with
    | false =>
        rw [hbuf, bufAddr, if_neg Bool.false_ne_true] at hp
        exact ⟨i, by omega, hp⟩
    | true =>
        have hsecond : b.soc.ramBase + 0x220000 = b.soc.ramBase + 0x200000 + 0x20000 := by omega
        rw [hbuf, bufAddr, if_pos rfl, hsecond, add32_add] at hp
        exact ⟨0x20000 + i, by omega, hp⟩
  · cases h

lemma exists_of_mem_streamRunStores {b : Board} {g : Geometry} {chip : Chip} {ram : Store UInt8}
    {len : ℕ} {req : StreamReq} {inputs : List Packet} {p : ℕ × UInt8}
    (h : p ∈ streamRunStores b g chip ram len req inputs) :
    ∃ i < 0x40000, p.1 = add32 (b.soc.ramBase + 0x200000) i := by
  rw [streamRunStores] at h
  split at h
  · cases h
  · obtain ⟨st, packet, hp⟩ := exists_of_mem_outputs h
    exact exists_of_mem_streamStores hp

/-- `handle_flash_stream` stores within its two buffers. -/
lemma exists_of_mem_handleFlashStreamStores {b : Board} {chip : Chip} {ram : Store UInt8}
    {data : List UInt8} {inputs : List Packet} {p : ℕ × UInt8}
    (h : p ∈ handleFlashStreamStores b chip ram data inputs) :
    ∃ i < 0x40000, p.1 = add32 (b.soc.ramBase + 0x200000) i := by
  rw [handleFlashStreamStores] at h
  split_ifs at h
  · cases h
  · cases hgeometry : b.geometry with
    | none =>
        rw [hgeometry] at h
        cases h
    | some g =>
        rw [hgeometry] at h
        exact exists_of_mem_streamRunStores h

/-- Where `handle_selfupdate` may store: its staging area, and the place of the trampoline. -/
def UpdateStore (b : AgentBoard) (addr size : ℕ) (p : ℕ × UInt8) : Prop :=
  (∃ i < size, p.1 = add32 (selfupdateStaging addr) i) ∨ p ∈ trampolineStores b

variable {addr size crc : ℕ}

lemma updateStore_of_mem_finish {ram : Store UInt8} {e : RamEvent}
    (he : e ∈ selfupdateFinish b addr size crc ram) :
    ∀ p ∈ e.store?, UpdateStore b addr size p := by
  rw [selfupdateFinish] at he
  intro p hp
  split_ifs at he
  · rw [List.mem_singleton.mp he] at hp
    cases hp
  · rcases List.mem_append.mp he with he | he
    · rcases List.mem_cons.mp he with rfl | he
      · cases hp
      · obtain ⟨q, hq, rfl⟩ := List.mem_map.mp he
        exact .inr (Option.some.inj hp ▸ hq)
    · rw [List.mem_singleton.mp he] at hp
      cases hp

lemma updateStore_of_mem_recv {st : RxState} {packet : Packet} {e : RamEvent}
    (he : e ∈ (selfupdateRecv b addr size crc st packet).2) :
    ∀ p ∈ e.store?, UpdateStore b addr size p := by
  have hcopy : e ∈ (copyStores (selfupdateStaging addr) st.received size packet.data).map
      RamEvent.ofStore → ∀ p ∈ e.store?, UpdateStore b addr size p := by
    intro he p hp
    obtain ⟨q, hq, rfl⟩ := List.mem_map.mp he
    exact .inl (Option.some.inj hp ▸ exists_of_mem_copyStores hq)
  rw [selfupdateRecv] at he
  dsimp only at he
  split_ifs at he
  · exact hcopy he
  · rcases List.mem_append.mp he with he | he
    · exact hcopy he
    · exact updateStore_of_mem_finish he
  · intro p hp
    rw [List.mem_singleton.mp he] at hp
    cases hp
  · cases he

/-- `handle_selfupdate` stores within its staging area, and the trampoline. -/
lemma updateStore_of_mem {ram : Store UInt8} {data : List UInt8} {inputs : List Packet}
    {p : ℕ × UInt8} (h : p ∈ storesOf (handleSelfupdate b ram data inputs)) :
    readLe32 (data.drop 4) ≤ maxUpdateSize ∧
      UpdateStore b (readLe32 data) (readLe32 (data.drop 4)) p := by
  obtain ⟨e, he, hp⟩ := List.mem_filterMap.mp h
  have hack : ∀ status, e ≠ ramAck status := by
    rintro status rfl
    cases hp
  rw [handleSelfupdate] at he
  dsimp only at he
  split_ifs at he with _ haccepted
  · exact absurd (List.mem_singleton.mp he) (hack _)
  · rcases List.mem_cons.mp he with he | he
    · exact absurd he (hack _)
    · simp only [selfupdateAccepted, Bool.and_eq_true, decide_eq_true_eq] at haccepted
      obtain ⟨st, packet, he⟩ := exists_of_mem_outputs he
      exact ⟨haccepted.1.1.2, updateStore_of_mem_recv he p hp⟩
  · exact absurd (List.mem_singleton.mp he) (hack _)

/-- The trampoline lies at the beginning of RAM. -/
lemma trampolineStores_lt {p : ℕ × UInt8} (h : p ∈ trampolineStores b) :
    p.1 < b.soc.ramBase + 0x1000 := by
  have hlength : ∀ arm, ((trampolineArm arm).flatMap packU32).length ≤ 0x100 := by decide
  obtain ⟨i, hi, rfl⟩ := List.mem_mapIdx.mp h
  have hle := hlength b.cpuArm926
  change b.soc.ramBase + 0x200 + i < b.soc.ramBase + 0x1000
  omega

/-! ## The bandwidth test -/

/-- **A loop of `stmia`** over whole turns stores to a window, if no address wraps around. -/
lemma stmLoop_eq {n turns count dst : ℕ} (hturns : n < turns)
    (hcount : count + 32 * (n + 1) < 2 ^ 32) (hdst : dst + 32 * (n + 1) ≤ 2 ^ 32) :
    stmLoop turns count dst (count + 32 * (n + 1)) = List.range' dst (32 * (n + 1)) := by
  have hturn : ∀ dst, dst + 32 ≤ 2 ^ 32 → (List.range 32).map (add32 dst) = List.range' dst 32 := by
    intro dst hdst
    rw [List.range_eq_range', List.map_congr_left (g := (dst + ·))]
    · exact List.map_add_range' 0 32 1
    · intro i hi
      have := (List.mem_range'_1.mp hi).2
      exact add32_of_lt (by omega)
  induction n generalizing turns count dst with
  | zero =>
      obtain ⟨turns, rfl⟩ := Nat.exists_eq_add_one_of_ne_zero (Nat.ne_of_gt hturns)
      rw [stmLoop, hturn dst (by omega), add32_of_lt (by omega), if_neg (by omega), List.append_nil]
  | succ n ih =>
      obtain ⟨turns, rfl⟩ := Nat.exists_eq_add_one_of_ne_zero (Nat.ne_zero_of_lt hturns)
      have hrest := @ih turns (count + 32) (dst + 32) (by omega) (by omega) (by omega)
      have hstop : count + 32 + 32 * (n + 1) = count + 32 * (n + 1 + 1) := by omega
      have hlength : 32 * (n + 1 + 1) = 32 + 32 * (n + 1) := by omega
      rw [hstop] at hrest
      rw [stmLoop, hturn dst (by omega), add32_of_lt (by omega : count + 32 < 2 ^ 32),
        if_pos (by omega), add32_of_lt (by omega : dst + 32 < 2 ^ 32), hrest, hlength]
      exact List.range'_append_1

/-- What the checks of `handle_membw` leave. -/
structure MembwReq.Fits (b : AgentBoard) (r : MembwReq) : Prop where
  size_dvd : r.size % 256 = 0
  base_le : b.soc.ramBase ≤ r.addr
  le_window : r.addr + 2 * r.size ≤ b.soc.ramBase + 0x8000000
  spared : r.addr + 2 * r.size ≤ b.membwAgentGuardLo ∨ b.membwAgentGuardHi ≤ r.addr

lemma MembwReq.fits_of_accepted {r : MembwReq} (haddr : r.addr < 2 ^ 32)
    (h : r.accepted b = true) : r.Fits b := by
  have hlayout := b.layout
  simp only [MembwReq.accepted, Bool.and_eq_true, Bool.not_eq_true', Bool.and_eq_false_iff,
    decide_eq_true_eq, decide_eq_false_iff_not] at h
  obtain ⟨⟨⟨⟨⟨-, hsize⟩, hdvd⟩, hbase⟩, hwindow⟩, hspared⟩ := h
  simp only [maxMembwSize, add32] at hsize hwindow hspared
  refine ⟨hdvd, hbase, by omega, hspared.imp (fun h => by omega) (fun h => by omega)⟩

/-- A bandwidth test that is accepted stores to its range. -/
lemma MembwReq.Fits.mem_addrs {r : MembwReq} (h : r.Fits b) (hpos : 0 < r.size) {a : ℕ}
    (ha : a ∈ r.addrs) : r.addr ≤ a ∧ a < r.addr + 2 * r.size := by
  have hlayout := b.layout
  have hdvd := h.size_dvd
  have hwindow := h.le_window
  obtain ⟨n, hn⟩ : ∃ n, r.size = 32 * (n + 1) := ⟨r.size / 32 - 1, by omega⟩
  have hfirst : add32 r.addr r.size = r.addr + r.size := add32_of_lt (by omega)
  have hturns : n < stmTurns := by
    rw [stmTurns]
    omega
  have hmemset : membwMemset r.addr r.size = List.range' r.addr r.size := by
    rw [membwMemset, hfirst, hn]
    exact stmLoop_eq hturns (by omega) (by omega)
  have hmemcpy : membwMemcpy (add32 r.addr r.size) r.addr r.size =
      List.range' (r.addr + r.size) r.size := by
    rw [membwMemcpy, hfirst, hn]
    exact stmLoop_eq hturns (by omega) (by omega)
  rw [MembwReq.addrs, hmemset, hmemcpy] at ha
  rcases List.mem_append.mp ha with ha | ha
  · obtain ⟨l, hl, ha⟩ := List.mem_flatten.mp ha
    rw [List.eq_of_mem_replicate hl, List.mem_range'_1] at ha
    omega
  · obtain ⟨l, hl, ha⟩ := List.mem_flatten.mp ha
    rw [List.eq_of_mem_replicate hl, List.mem_range'_1] at ha
    omega

/-! ## The footprint -/

/-- `[AGENT_LOAD_ADDR - 64 KiB, AGENT_LOAD_ADDR + 8 MiB)`, which `handle_membw` keeps clear of. -/
def AgentBoard.InFootprint (b : AgentBoard) (addr : ℕ) : Prop :=
  b.membwAgentGuardLo ≤ addr ∧ addr < b.membwAgentGuardHi

/-- The stack and the image, up to where a new program is staged. -/
def AgentBoard.InImage (b : AgentBoard) (addr : ℕ) : Prop :=
  b.membwAgentGuardLo ≤ addr ∧ addr < b.agentLoadAddr + 0x100000

lemma membwReq_addr_lt (b : AgentBoard) (data : List UInt8) : (membwReq b data).addr < 2 ^ 32 := by
  have hlayout := b.layout
  have haddr := readLe32_lt (data.drop 8)
  simp only [membwReq, AgentBoard.membwDefaultAddr]
  split_ifs <;> omega

lemma membwReq_size_pos (b : AgentBoard) (data : List UInt8) : 0 < (membwReq b data).size := by
  simp only [membwReq]
  split_ifs <;> omega

/-- **A bandwidth test** keeps clear of the footprint. -/
lemma membw_spares {times : MembwTimes} {data : List UInt8} {p : ℕ × UInt8}
    (h : p ∈ storesOf (handleMembw b times data)) : ¬ b.InFootprint p.1 := by
  obtain ⟨e, he, hp⟩ := List.mem_filterMap.mp h
  have hsend : ∀ packet, e = .send packet → ¬ b.InFootprint p.1 := by
    rintro packet rfl
    cases hp
  rw [handleMembw] at he
  dsimp only at he
  split_ifs at he with _ _ haccepted
  · exact hsend _ (List.mem_singleton.mp he)
  · exact hsend _ (List.mem_singleton.mp he)
  · rcases List.mem_append.mp he with he | he
    · obtain ⟨a, ha, rfl⟩ := List.mem_map.mp he
      obtain rfl := Option.some.inj hp
      have hfits := MembwReq.fits_of_accepted (membwReq_addr_lt b data) haccepted
      obtain ⟨hle, hlt⟩ := hfits.mem_addrs (membwReq_size_pos b data) ha
      rintro ⟨hlo, hhi⟩
      rcases hfits.spared with hbelow | habove
      · exact absurd (hlt.trans_le hbelow) (Nat.not_lt.mpr hlo)
      · exact absurd (habove.trans hle) (Nat.not_le.mpr hhi)
    · exact hsend _ (List.mem_singleton.mp he)
  · exact hsend _ (List.mem_singleton.mp he)

lemma AgentBoard.guardLo_eq (b : AgentBoard) :
    b.membwAgentGuardLo = b.agentLoadAddr - 0x10000 := by
  unfold AgentBoard.membwAgentGuardLo
  rfl

/-- A window from the staging area on that ends below the footprint. -/
lemma staged_spares {n i a : ℕ} (hn : n ≤ b.membwAgentGuardLo - (b.soc.ramBase + 0x200000))
    (hi : i < n) (ha : a = add32 (b.soc.ramBase + 0x200000) i) : ¬ b.InFootprint a := by
  have hlayout := b.layout
  rintro ⟨hlo, -⟩
  rw [b.guardLo_eq] at hn hlo
  rw [ha, add32_of_lt (by omega)] at hlo
  omega

/-- A new program for the place of the running one, or above it, is staged behind the image. -/
lemma update_spares {addr size : ℕ} {p : ℕ × UInt8} (haddr : addr < 2 ^ 32)
    (hsize : size ≤ maxUpdateSize) (htarget : b.agentLoadAddr ≤ addr)
    (h : UpdateStore b addr size p) : ¬ b.InImage p.1 := by
  have hlayout := b.layout
  rintro ⟨hlo, hhi⟩
  rw [b.guardLo_eq] at hlo
  rw [maxUpdateSize] at hsize
  rcases h with ⟨i, hi, hp⟩ | h
  · -- an address that wraps around ends up below RAM
    rw [hp, selfupdateStaging, add32, add32] at hlo hhi
    omega
  · have hlt := trampolineStores_lt h
    omega

/-- **What the handlers store** outside the agent's image: a bandwidth test, a stream, and a flash
write whose staging area ends below the footprint keep clear of the footprint; a new program is
staged 1 MiB above its target, and so behind the image when it replaces it. -/
theorem ram_stores_spare_agent (b : AgentBoard) (chip : Chip) (times : MembwTimes)
    (ram : Store UInt8) (data : List UInt8) (inputs : List Packet) :
    (∀ p ∈ storesOf (handleMembw b times data), ¬ b.InFootprint p.1) ∧
      (∀ p ∈ handleFlashStreamStores b.toBoard chip ram data inputs, ¬ b.InFootprint p.1) ∧
      (b.soc.ramBase + 0x200000 + readLe32 (data.drop 4) ≤ b.membwAgentGuardLo →
        ∀ p ∈ handleFlashWriteStores b.toBoard chip ram data inputs, ¬ b.InFootprint p.1) ∧
      (∀ p ∈ storesOf (handleSelfupdate b ram data inputs),
        UpdateStore b (readLe32 data) (readLe32 (data.drop 4)) p) ∧
      (b.agentLoadAddr ≤ readLe32 data →
        ∀ p ∈ storesOf (handleSelfupdate b ram data inputs), ¬ b.InImage p.1) := by
  have hlayout := b.layout
  refine ⟨fun p hp => membw_spares hp, fun p hp => ?_, fun hroom p hp => ?_,
    fun p hp => (updateStore_of_mem hp).2, fun htarget p hp => ?_⟩
  · obtain ⟨i, hi, ha⟩ := exists_of_mem_handleFlashStreamStores hp
    refine staged_spares ?_ hi ha
    rw [b.guardLo_eq]
    omega
  · obtain ⟨i, hi, ha⟩ := exists_of_mem_handleFlashWriteStores hp
    exact staged_spares (Nat.le_sub_of_add_le (by omega)) hi ha
  · obtain ⟨hsize, hstore⟩ := updateStore_of_mem hp
    exact update_spares (readLe32_lt data) hsize htarget hstore

/-- The agent of a hi3516ev300 with a 16 MiB NOR. -/
def evAgentBoard : AgentBoard where
  toBoard := norBoard hi3516ev300 hi3516ev300_mem
  agentLoadAddr := 0x41000000
  cpuArm926 := false
  build_mem := List.mem_cons_self

/-- A command for two bytes at an address, and the first of them. -/
def twoBytes (addr : ℕ) : List UInt8 := packU32 addr ++ packU32 2 ++ packU32 0

def firstByte : Packet := ⟨rspData, [0, 0, 0x55]⟩

/-- The program that replaces the agent is staged 1 MiB above it, within the footprint. -/
theorem selfupdate_stages_in_footprint :
    ∃ p ∈ storesOf (handleSelfupdate evAgentBoard (fun _ => 0) (twoBytes 0x41000000) [firstByte]),
      evAgentBoard.InFootprint p.1 :=
  ⟨(0x41100000, 0x55), by decide, by decide, by decide⟩

/-- A program of eight bytes, which arrives in two packets. -/
def loadedProgram : List UInt8 := [1, 2, 3, 4, 5, 6, 7, 8]

def loadedCommand (addr : ℕ) : List UInt8 :=
  packU32 addr ++ packU32 8 ++ packU32 (zlibCrc32 loadedProgram).toNat

def loadedPackets : List Packet :=
  [⟨rspData, [0, 0] ++ loadedProgram.take 5⟩, ⟨rspData, [1, 0] ++ loadedProgram.drop 5⟩]

/-- The eight bytes are staged for the flash; those of a new agent are staged and followed by the
trampoline that is to copy them. -/
theorem ram_stores_spare_agent_ev300 :
    let chip : Chip := ⟨fun _ => true, fun _ => (0, 0, 0), fun _ => 0xFF⟩
    let written := handleFlashWriteStores evAgentBoard.toBoard chip (fun _ => 0) (loadedCommand 0)
      loadedPackets
    let updated := storesOf
      (handleSelfupdate evAgentBoard (fun _ => 0) (loadedCommand 0x41000000) loadedPackets)
    (written.length = 8 ∧ ∀ p ∈ written, ¬ evAgentBoard.InFootprint p.1) ∧
      updated.length = 84 ∧ ∀ p ∈ updated, ¬ evAgentBoard.InImage p.1 := by
  intro chip written updated
  have hwrite := ram_stores_spare_agent evAgentBoard chip ⟨0, 0, 0, 0⟩ (fun _ => 0)
    (loadedCommand 0) loadedPackets
  have hupdate := ram_stores_spare_agent evAgentBoard chip ⟨0, 0, 0, 0⟩ (fun _ => 0)
    (loadedCommand 0x41000000) loadedPackets
  exact ⟨⟨by decide +kernel, hwrite.2.2.1 (by decide +kernel)⟩, by decide +kernel,
    hupdate.2.2.2.2 (by decide +kernel)⟩

end Defib
