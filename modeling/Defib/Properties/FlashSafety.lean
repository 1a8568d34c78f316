import Defib.Agent.FlashCommands
import Defib.Agent.ReadPaths

/-!
# Which sectors the flash commands touch

Every handler that changes the flash checks `addr + size` against the size of the flash, in 32
bits.  Either the check fails and the only thing that happens is an error ACK, or the handler
starts with `ACK_OK`; and as long as the sum does not wrap, every later call into the driver stays
inside the flash.  `Guarded` is this alternative, proved handler by handler and, for the two that
receive data, along every sequence of `proto_recv` results.  A `CMD_WRITE` that `handle_write` does
not pass on to `handle_flash_write` is a write to RAM, and touches nothing of the flash.
-/

namespace Defib

/-! ## Bounds of driver calls -/

/-- A driver call stays inside a flash of the given size. -/
def FlashEvent.InBounds (size : ℕ) : FlashEvent → Prop
  | .erase addr => addr < size
  | .program addr data => addr < size ∧ addr + data.length ≤ size
  | .send _ => True

/-- A packet, and no driver call. -/
def FlashEvent.IsSend : FlashEvent → Prop
  | .send _ => True
  | _ => False

lemma FlashEvent.IsSend.inBounds {e : FlashEvent} (h : e.IsSend) (size : ℕ) : e.InBounds size := by
  cases e with
  | erase addr => exact h.elim
  | program addr data => exact h.elim
  | send p => trivial

section Bounds

variable {g : Geometry}

lemma eraseLoop_inBounds (chip : Chip) {base sectorSz size : ℕ} (progress : ℕ → ℕ → Packet)
    {is : List ℕ} (h : ∀ i ∈ is, add32 base (i * sectorSz) < size) :
    ∀ e ∈ (eraseLoop chip base sectorSz progress is).1, e.InBounds size := by
  induction is with
  | nil => simp [eraseLoop]
  | cons i is ih =>
      have hi := h i (by simp)
      have hrest := ih fun j hj => h j (by simp [hj])
      intro e he
      rw [eraseLoop] at he
      simp only at he
      split at he
      · simp only [List.mem_cons] at he
        rcases he with rfl | rfl | he
        · exact hi
        · trivial
        · exact hrest e he
      · simp only [List.mem_cons, List.not_mem_nil, or_false] at he
        rcases he with rfl | rfl
        · exact hi
        · trivial

/-- A page of a range that fits the flash. -/
lemma page_inBounds {addr n : ℕ} (h : addr + n ≤ g.size) {c : Cut} {p : ℕ × ℕ}
    (hp : p ∈ c.pieces 0 n) {page : List UInt8} (hlen : page.length ≤ p.2) :
    (FlashEvent.program (add32 addr p.1) page).InBounds g.size := by
  obtain ⟨-, hpos, hle⟩ := c.mem_pieces hp
  have hsize := g.size_lt
  have hadd : add32 addr p.1 = addr + p.1 := add32_of_lt (by omega)
  simp only [FlashEvent.InBounds, hadd]
  omega

lemma writePages_inBounds {addr n : ℕ} (h : addr + n ≤ g.size) (src : Store UInt8) :
    ∀ e ∈ writePages g addr src n, e.InBounds g.size := by
  intro e he
  obtain ⟨p, hp, rfl⟩ := List.mem_map.mp he
  exact page_inBounds h hp (by simp)

lemma programLoop_inBounds {addr n : ℕ} (h : addr + n ≤ g.size) (src : ℕ → Store UInt8)
    (totalSectors : ℕ) : ∀ e ∈ programLoop g addr src n totalSectors, e.InBounds g.size := by
  intro e he
  obtain ⟨p, hp, he⟩ := List.mem_flatMap.mp he
  rcases List.mem_cons.mp he with rfl | he
  · exact page_inBounds h hp (by simp)
  · split at he
    · rw [List.mem_singleton.mp he]
      trivial
    · cases he

lemma eraseAndProgram_inBounds (chip : Chip) {addr : ℕ} {buf : List UInt8} (haddr : addr < g.size)
    (h : addr + buf.length ≤ g.size) :
    ∀ e ∈ (eraseAndProgram g chip addr buf).1, e.InBounds g.size := by
  intro e he
  unfold eraseAndProgram at he
  split at he
  · rcases List.mem_cons.mp he with rfl | he
    · exact haddr
    · obtain ⟨p, hp, hpage⟩ := List.mem_filterMap.mp he
      simp only at hpage
      split at hpage
      · cases hpage
      · cases hpage
        exact page_inBounds h hp (by simp)
  · rw [List.mem_singleton.mp he]
    exact haddr

end Bounds

/-! ## The alternative -/

/-- A lone error ACK. -/
def IsRejection (events : List FlashEvent) : Prop :=
  ∃ status rest, status ≠ ackOk ∧ events = [.send ⟨rspAck, status :: rest⟩]

lemma isRejection_sendAck {status : UInt8} (h : status ≠ ackOk) :
    IsRejection [sendAck status] := ⟨status, [], h, rfl⟩

/-- A handler either rejects, or starts with `ACK_OK` and, where its range fits, stays inside. -/
def Guarded (size : ℕ) (accepted : Bool) (addr n : ℕ) (events : List FlashEvent) : Prop :=
  match accepted with
  | false => IsRejection events
  | true => add32 addr n ≤ size ∧ ∃ tail, events = sendAck ackOk :: tail ∧
      (addr + n ≤ size → ∀ e ∈ tail, e.InBounds size)

/-- The four commands. -/
inductive FlashCommand
  | erase
  | flashWrite
  | flashProgram
  | flashStream
  deriving DecidableEq, Repr

namespace FlashCommand

/-- The flash range a request names: address and size. -/
def range : FlashCommand → List UInt8 → ℕ × ℕ
  | .erase, data => (readLe32 data, readLe32 (data.drop 4))
  | .flashWrite, data => (readLe32 data, readLe32 (data.drop 4))
  | .flashProgram, data => (readLe32 (data.drop 4), readLe32 (data.drop 8))
  | .flashStream, data => ((streamReq data).flashAddr, (streamReq data).size)

/-- What the handler of a command does with a request; `handle_flash_write` has none of its own. -/
def events (b : Board) (m : Machine) (live : ℕ → Store UInt8) (chip : Chip)
    (inputs : List Packet) : FlashCommand → List UInt8 → List FlashEvent
  | .erase, data => handleErase b chip data
  | .flashWrite, data => handleWrite b chip m.bus data inputs
  | .flashProgram, data => handleFlashProgram b m live chip data
  | .flashStream, data => handleFlashStream b chip m.bus data inputs

/-- `handle_write` does not pass the request on to `handle_flash_write`. -/
def toRam (b : Board) : FlashCommand → List UInt8 → Bool
  | .flashWrite, data => data.length ≥ 12 && !(writeReq data).toFlash b
  | _, _ => false

/-- Whether a request passes all checks of its handler. -/
def accepted (b : Board) (m : Machine) (c : FlashCommand) (data : List UInt8) : Bool :=
  match b.geometry with
  | none => false
  | some g =>
      match c with
      | .erase => data.length ≥ 8 && eraseAccepted g (readLe32 data) (readLe32 (data.drop 4))
      | .flashWrite =>
          data.length ≥ 12 && ((writeReq data).toFlash b &&
            flashWriteAccepted g (readLe32 data) (readLe32 (data.drop 4)))
      | .flashProgram =>
          data.length ≥ 16 && flashProgramAccepted b g m (readLe32 data) (readLe32 (data.drop 4))
            (readLe32 (data.drop 8)) (readLe32 (data.drop 12))
      | .flashStream =>
          data.length ≥ 12 && (streamAccepted g (streamReq data) &&
            data.length ≥ 12 + ((streamReq data).numSectors g + 7) / 8)

end FlashCommand

lemma Board.geometry_size {b : Board} {g : Geometry} (h : b.geometry = some g) :
    g.size = b.flashInfo.size := by
  unfold Board.geometry at h
  split at h
  · cases h
    rfl
  · cases h

section Handlers

variable {b : Board} {g : Geometry}

lemma handleErase_guarded (hg : b.geometry = some g) (chip : Chip) (data : List UInt8) :
    Guarded g.size (data.length ≥ 8 && eraseAccepted g (readLe32 data) (readLe32 (data.drop 4)))
      (readLe32 data) (readLe32 (data.drop 4)) (handleErase b chip data) := by
  have hrange := readLe32_lt data
  unfold handleErase
  by_cases hshort : data.length < 8
  · rw [if_pos hshort, show decide (data.length ≥ 8) = false by simp [hshort]]
    exact isRejection_sendAck (by decide)
  rw [if_neg hshort, hg, show decide (data.length ≥ 8) = true by simp; omega, Bool.true_and]
  generalize readLe32 data = addr at *
  generalize readLe32 (data.drop 4) = size at *
  simp only
  cases hacc : eraseAccepted g addr size with
  | false => exact isRejection_sendAck (by decide)
  | true =>
      simp only [eraseAccepted, Bool.and_eq_true, decide_eq_true_eq] at hacc
      obtain ⟨⟨⟨-, hadd⟩, -⟩, -⟩ := hacc
      refine ⟨hadd, _, rfl, fun hfit e he => ?_⟩
      rcases List.mem_append.mp he with he | he
      · refine eraseLoop_inBounds chip _ (fun i hi => ?_) e he
        have hi' : (i + 1) * g.sectorSize ≤ size := by
          have := List.mem_range.mp hi
          exact (Nat.le_div_iff_mul_le g.sector_pos).mp this
        have hpos := g.sector_pos
        have hsize := g.size_lt
        rw [Nat.add_mul, Nat.one_mul] at hi'
        rw [add32_of_lt (by omega)]
        omega
      · split at he
        · rw [List.mem_singleton.mp he]
          trivial
        · cases he

lemma flashWriteFinish_inBounds {addr size : ℕ} (hfit : addr + size ≤ g.size) (chip : Chip)
    (crc : ℕ) (ram : Store UInt8) (received : ℕ) :
    ∀ e ∈ flashWriteFinish b g chip addr size crc ram received, e.InBounds g.size := by
  intro e he
  simp only [flashWriteFinish] at he
  split at he
  · rw [List.mem_singleton.mp he]
    trivial
  · rcases List.mem_append.mp he with he | he
    · exact writePages_inBounds hfit _ e he
    · split at he <;> rw [List.mem_singleton.mp he] <;> trivial

lemma flashWriteRecv_inBounds {addr size : ℕ} (hfit : addr + size ≤ g.size) (chip : Chip)
    (crc : ℕ) (st : RxState) (p : Packet) :
    ∀ e ∈ (flashWriteRecv b g chip addr size crc st p).2, e.InBounds g.size := by
  intro e he
  simp only [flashWriteRecv] at he
  split at he
  · split at he
    · cases he
    · exact flashWriteFinish_inBounds hfit chip crc _ _ e he
  · split at he
    · rw [List.mem_singleton.mp he]
      trivial
    · cases he

lemma handleFlashWrite_guarded (hg : b.geometry = some g) (chip : Chip) (ram : Store UInt8)
    (data : List UInt8) (inputs : List Packet) :
    Guarded g.size
      (data.length ≥ 12 && flashWriteAccepted g (readLe32 data) (readLe32 (data.drop 4)))
      (readLe32 data) (readLe32 (data.drop 4)) (handleFlashWrite b chip ram data inputs) := by
  unfold handleFlashWrite
  by_cases hshort : data.length < 12
  · rw [if_pos hshort, show decide (data.length ≥ 12) = false by simp [hshort]]
    exact isRejection_sendAck (by decide)
  rw [if_neg hshort, hg, show decide (data.length ≥ 12) = true by simp; omega, Bool.true_and]
  generalize readLe32 data = addr
  generalize readLe32 (data.drop 4) = size
  simp only
  cases hacc : flashWriteAccepted g addr size with
  | false => exact isRejection_sendAck (by decide)
  | true =>
      simp only [flashWriteAccepted, Bool.and_eq_true, decide_eq_true_eq] at hacc
      refine ⟨hacc.2, _, rfl, fun hfit e he => ?_⟩
      obtain ⟨st, p, he⟩ := exists_of_mem_outputs he
      exact flashWriteRecv_inBounds hfit chip _ st p e he

/-- **What is not passed on** reaches no driver. -/
lemma isSend_handleWrite {chip : Chip} {ram : Store UInt8} {data : List UInt8}
    {inputs : List Packet} (h : FlashCommand.flashWrite.toRam b data = true) :
    ∀ e ∈ handleWrite b chip ram data inputs, e.IsSend := by
  obtain ⟨hlong, hram⟩ := (Bool.and_eq_true _ _).mp h
  have hlong : ¬ data.length < 12 := not_lt.mpr (of_decide_eq_true hlong)
  have hram : ¬ (writeReq data).toFlash b = true := by simpa using hram
  intro e he
  rw [handleWrite, if_neg hlong, if_neg hram] at he
  split at he
  · rcases List.mem_cons.mp he with rfl | he
    · trivial
    · obtain ⟨st, p, he⟩ := exists_of_mem_outputs he
      simp only [writeRecv] at he
      split at he
      · split at he
        · cases he
        · rw [writeFinish] at he
          dsimp only at he
          split at he <;> rw [List.mem_singleton.mp he] <;> trivial
      · split at he
        · rw [List.mem_singleton.mp he]
          trivial
        · cases he
  · rw [List.mem_singleton.mp he]
    trivial

lemma handleWrite_guarded (hg : b.geometry = some g) (chip : Chip) (ram : Store UInt8)
    (data : List UInt8) (inputs : List Packet)
    (hflash : FlashCommand.flashWrite.toRam b data = false) :
    Guarded g.size
      (data.length ≥ 12 && ((writeReq data).toFlash b &&
        flashWriteAccepted g (readLe32 data) (readLe32 (data.drop 4))))
      (readLe32 data) (readLe32 (data.drop 4)) (handleWrite b chip ram data inputs) := by
  unfold handleWrite
  by_cases hshort : data.length < 12
  · rw [if_pos hshort, show decide (data.length ≥ 12) = false by simp [hshort]]
    exact isRejection_sendAck (by decide)
  have hlong : decide (data.length ≥ 12) = true := decide_eq_true (not_lt.mp hshort)
  have hto : (writeReq data).toFlash b = true := by
    simpa only [FlashCommand.toRam, hlong, Bool.true_and, Bool.not_eq_false'] using hflash
  rw [if_neg hshort, if_pos hto, hto, Bool.true_and]
  exact handleFlashWrite_guarded hg chip ram data inputs

/-- The sectors `handle_flash_program` erases start before the end of its range. -/
lemma programSector_lt {addr size s : ℕ} (hfit : addr + size ≤ g.size)
    (hs : s < (add32 (add32 addr size) (g.sectorSize - 1) / g.sectorSize * g.sectorSize + 2 ^ 32 -
      addr / g.sectorSize * g.sectorSize) % 2 ^ 32 / g.sectorSize) :
    add32 (addr / g.sectorSize * g.sectorSize) (s * g.sectorSize) < g.size := by
  have hpos' := g.sector_pos
  have hsize := g.size_lt
  have hs' : (s + 1) * g.sectorSize ≤ _ := (Nat.le_div_iff_mul_le hpos').mp hs
  rw [Nat.add_mul, Nat.one_mul] at hs'
  have hstart : addr / g.sectorSize * g.sectorSize ≤ addr := Nat.div_mul_le_self _ _
  have hend := Nat.div_mul_le_self (add32 (add32 addr size) (g.sectorSize - 1)) g.sectorSize
  have hend' := Nat.lt_div_mul_add (a := add32 (add32 addr size) (g.sectorSize - 1)) hpos'
  -- past the top of the address space the end of the range wraps to zero
  have hwrap : 2 ^ 32 ≤ addr + size + (g.sectorSize - 1) →
      add32 (add32 addr size) (g.sectorSize - 1) / g.sectorSize * g.sectorSize = 0 := by
    intro h
    have hlt : add32 (add32 addr size) (g.sectorSize - 1) < g.sectorSize := by
      unfold add32
      omega
    rw [Nat.div_eq_of_lt hlt, Nat.zero_mul]
  generalize addr / g.sectorSize * g.sectorSize = start at *
  generalize add32 (add32 addr size) (g.sectorSize - 1) / g.sectorSize * g.sectorSize = stop at *
  generalize s * g.sectorSize = off at *
  unfold add32 at *
  omega

lemma handleFlashProgram_guarded (hg : b.geometry = some g) (m : Machine)
    (live : ℕ → Store UInt8) (chip : Chip) (data : List UInt8) :
    Guarded g.size
      (data.length ≥ 16 && flashProgramAccepted b g m (readLe32 data) (readLe32 (data.drop 4))
        (readLe32 (data.drop 8)) (readLe32 (data.drop 12)))
      (readLe32 (data.drop 4)) (readLe32 (data.drop 8)) (handleFlashProgram b m live chip data) := by
  unfold handleFlashProgram
  by_cases hshort : data.length < 16
  · rw [if_pos hshort, show decide (data.length ≥ 16) = false by simp [hshort]]
    exact isRejection_sendAck (by decide)
  rw [if_neg hshort, hg, show decide (data.length ≥ 16) = true by simp; omega, Bool.true_and]
  generalize readLe32 data = ramAddr
  generalize readLe32 (data.drop 4) = addr
  generalize readLe32 (data.drop 8) = size
  generalize readLe32 (data.drop 12) = crc
  simp only [flashProgramAccepted]
  by_cases hcheck : size = 0 ∨ add32 addr size > g.size ∨ addrReadable b ramAddr size = false
  · rw [if_pos hcheck]
    have hacc : (decide (size ≠ 0) && decide (add32 addr size ≤ g.size) &&
        addrReadable b ramAddr size && decide ((crc32 0 (m.bus.load ramAddr size)).toNat = crc)) =
          false := by
      rcases hcheck with h | h | h
      · simp [h]
      · simp [Nat.not_le.mpr h]
      · simp [h]
    rw [hacc]
    exact isRejection_sendAck (by decide)
  rw [if_neg hcheck]
  simp only [not_or, Nat.not_lt, gt_iff_lt, Bool.not_eq_false] at hcheck
  obtain ⟨hne, hadd, hread⟩ := hcheck
  simp only [hne, hadd, hread, ne_eq, not_false_eq_true, decide_true, Bool.true_and]
  by_cases hcrc : (crc32 0 (m.bus.load ramAddr size)).toNat = crc
  · rw [if_neg (not_not.mpr hcrc), decide_eq_true hcrc]
    refine ⟨hadd, _, rfl, fun hfit e he => ?_⟩
    rcases List.mem_append.mp he with he | he
    · exact eraseLoop_inBounds chip _
        (fun s hs => programSector_lt hfit (List.mem_range.mp hs)) e he
    · split at he
      · rcases List.mem_append.mp he with he | he
        · exact programLoop_inBounds hfit _ _ e he
        · rw [List.mem_singleton.mp he]
          trivial
      · cases he
  · rw [if_pos hcrc, decide_eq_false hcrc]
    exact ⟨ackCrcError, _, by decide, rfl⟩

/-! ### The stream -/

/-- The pending sector of a stream lies inside the flash. -/
def PendingFits (g : Geometry) (pending : Option PendingSector) : Prop :=
  ∀ p ∈ pending, p.addr < g.size ∧ p.addr + p.bytes ≤ g.size

lemma processPending_inBounds (chip : Chip) (ram : Store UInt8) {pending : Option PendingSector}
    (h : PendingFits g pending) :
    ∀ e ∈ (processPending b g chip ram pending).1, e.InBounds g.size := by
  cases pending with
  | none => simp [processPending]
  | some p =>
      obtain ⟨haddr, hbytes⟩ := h p rfl
      exact eraseAndProgram_inBounds chip haddr (by rw [Store.length_load]; exact hbytes)

/-- Sectors of a stream start before the end of its range. -/
lemma StreamReq.sector_lt (req : StreamReq) {s : ℕ} (hs : s < req.numSectors g) :
    s * g.sectorSize < req.size := by
  have hpos := g.sector_pos
  have h : (s + 1) * g.sectorSize ≤ add32 req.size (g.sectorSize - 1) :=
    (Nat.le_div_iff_mul_le hpos).mp hs
  rw [Nat.add_mul, Nat.one_mul] at h
  have hle : add32 req.size (g.sectorSize - 1) ≤ req.size + (g.sectorSize - 1) := Nat.mod_le _ _
  omega

lemma StreamReq.sectorBytes_le (req : StreamReq) (s : ℕ) :
    req.sectorBytes g s ≤ req.size - s * g.sectorSize := by
  unfold StreamReq.sectorBytes
  split <;> omega

/-- What the loop over sectors keeps: the sector it waits for is one of the range, and the
pending one fits. -/
def StreamFits (g : Geometry) (req : StreamReq) (st : StreamState) : Prop :=
  st.s < req.numSectors g ∧ PendingFits g st.pending

lemma streamAdvance_inBounds {req : StreamReq} (hfit : req.flashAddr + req.size ≤ g.size)
    (chip : Chip) (left : ℕ) (st : StreamState) (hleft : st.s + left ≤ req.numSectors g)
    (hpending : PendingFits g st.pending) :
    (∀ e ∈ (streamAdvance b g chip req left st).2, e.InBounds g.size) ∧
      ∀ st' ∈ (streamAdvance b g chip req left st).1, StreamFits g req st' := by
  induction left generalizing st with
  | zero =>
      refine ⟨fun e he => ?_, fun st' h => by simp [streamAdvance] at h⟩
      rcases List.mem_append.mp he with he | he
      · exact processPending_inBounds chip st.ram hpending e he
      · rw [List.mem_singleton.mp he]
        trivial
  | succ left ih =>
      have hsector := req.sector_lt (g := g) (s := st.s) (by omega)
      have hsize := g.size_lt
      have haddr : add32 req.flashAddr (st.s * g.sectorSize) < g.size := by
        rw [add32_of_lt (by omega)]
        omega
      have hdone := processPending_inBounds (b := b) chip st.ram hpending
      simp only [streamAdvance]
      split
      · refine ⟨by simp, fun st' hst' => ?_⟩
        cases hst'
        exact ⟨by simp only; omega, hpending⟩
      · split
        · split
          · obtain ⟨hev, hst⟩ := ih { st with s := st.s + 1, pending := none }
              (by simp only; omega) (fun p hp => by cases hp)
            refine ⟨fun e he => ?_, hst⟩
            simp only [List.mem_append, List.mem_cons, List.not_mem_nil, or_false] at he
            rcases he with (he | rfl | rfl) | he
            · exact hdone e he
            · exact haddr
            · trivial
            · exact hev e he
          · refine ⟨fun e he => ?_, fun st' h => by simp at h⟩
            simp only [List.mem_append, List.mem_cons, List.not_mem_nil, or_false] at he
            rcases he with he | rfl | rfl
            · exact hdone e he
            · exact haddr
            · trivial
        · refine ⟨fun e he => ?_, fun st' h => by simp at h⟩
          simp only [List.mem_append, List.mem_cons, List.not_mem_nil, or_false] at he
          rcases he with he | rfl
          · exact hdone e he
          · trivial

lemma streamRecv_inBounds {req : StreamReq} (hfit : req.flashAddr + req.size ≤ g.size)
    (chip : Chip) (st : StreamState) (p : Packet) (hst : StreamFits g req st) :
    (∀ e ∈ (streamRecv b g chip req st p).2, e.InBounds g.size) ∧
      ∀ st' ∈ (streamRecv b g chip req st p).1, StreamFits g req st' := by
  obtain ⟨hs, hpending⟩ := hst
  have hsector := req.sector_lt hs
  have hbytes := req.sectorBytes_le (g := g) st.s
  have hsize := g.size_lt
  have hadd : add32 req.flashAddr (st.s * g.sectorSize) = req.flashAddr + st.s * g.sectorSize :=
    add32_of_lt (by omega)
  simp only [streamRecv]
  split
  · split
    · refine ⟨by simp, fun st' hst' => ?_⟩
      cases hst'
      exact ⟨hs, hpending⟩
    · have hdone := processPending_inBounds (b := b) chip
        (copyIn st.ram (bufAddr b st.rxBuf) st.bufReceived (req.sectorBytes g st.s) p.data).1
        hpending
      split
      · -- the sector just received becomes the pending one
        obtain ⟨hev, hnext⟩ := streamAdvance_inBounds (b := b) hfit chip
          (req.numSectors g - (st.s + 1))
          { ram := (copyIn st.ram (bufAddr b st.rxBuf) st.bufReceived
              (req.sectorBytes g st.s) p.data).1
            s := st.s + 1
            rxBuf := !st.rxBuf
            pending := some ⟨st.rxBuf, add32 req.flashAddr (st.s * g.sectorSize),
              req.sectorBytes g st.s⟩
            totalReceived := st.totalReceived + req.sectorBytes g st.s
            bufReceived := 0 }
          (by simp only; omega)
          (fun q hq => by
            cases hq
            simp only [hadd]
            omega)
        refine ⟨fun e he => ?_, hnext⟩
        simp only [List.mem_cons, List.mem_append] at he
        rcases he with rfl | he | he
        · trivial
        · exact hdone e he
        · exact hev e he
      · refine ⟨fun e he => ?_, fun st' h => by simp at h⟩
        simp only [List.mem_cons, List.mem_append, List.not_mem_nil, or_false] at he
        rcases he with rfl | he | rfl
        · trivial
        · exact hdone e he
        · trivial
  · split
    · refine ⟨fun e he => ?_, fun st' h => by simp at h⟩
      rw [List.mem_singleton.mp he]
      trivial
    · refine ⟨by simp, fun st' hst' => ?_⟩
      cases hst'
      exact ⟨hs, hpending⟩

lemma streamEvents_guarded (chip : Chip) (ram : Store UInt8) (len : ℕ) (req : StreamReq)
    (inputs : List Packet) :
    Guarded g.size (streamAccepted g req && len ≥ 12 + (req.numSectors g + 7) / 8)
      req.flashAddr req.size (streamEvents b g chip ram len req inputs) := by
  unfold streamEvents streamBegin
  cases hacc : streamAccepted g req with
  | false => exact isRejection_sendAck (by decide)
  | true =>
      rw [Bool.true_and, if_pos rfl]
      by_cases hbitmap : len < 12 + (req.numSectors g + 7) / 8
      · rw [if_pos hbitmap, decide_eq_false (by omega)]
        exact isRejection_sendAck (by decide)
      rw [if_neg hbitmap, decide_eq_true (by omega)]
      simp only [streamAccepted, Bool.and_eq_true, decide_eq_true_eq] at hacc
      refine ⟨hacc.2, _, rfl, fun hfit e he => ?_⟩
      obtain ⟨hev, hst⟩ := streamAdvance_inBounds (b := b) hfit chip (req.numSectors g)
        ⟨ram, 0, false, none, 0, 0⟩ (by simp only; omega) (fun p hp => by cases hp)
      rcases List.mem_append.mp he with he | he
      · exact hev e he
      · exact forall_mem_outputs _ (StreamFits g req)
          (fun st p h => (streamRecv_inBounds hfit chip st p h).1)
          (fun st p h => (streamRecv_inBounds hfit chip st p h).2) _ hst inputs e he

lemma handleFlashStream_guarded (hg : b.geometry = some g) (chip : Chip) (ram : Store UInt8)
    (data : List UInt8) (inputs : List Packet) :
    Guarded g.size
      (data.length ≥ 12 && (streamAccepted g (streamReq data) &&
        data.length ≥ 12 + ((streamReq data).numSectors g + 7) / 8))
      (streamReq data).flashAddr (streamReq data).size
      (handleFlashStream b chip ram data inputs) := by
  unfold handleFlashStream
  by_cases hshort : data.length < 12
  · rw [if_pos hshort, show decide (data.length ≥ 12) = false by simp [hshort]]
    exact isRejection_sendAck (by decide)
  rw [if_neg hshort, hg, show decide (data.length ≥ 12) = true by simp; omega, Bool.true_and]
  exact streamEvents_guarded chip ram data.length (streamReq data) inputs

end Handlers

/-! ## All commands -/

/-- A request is safe: whatever packets follow it and however the flash answers, every driver call
stays inside the flash, and a range that is not inside the flash is only rejected, or where it is
one of the RAM does not reach the flash. -/
def FlashSafe (b : Board) (m : Machine) (c : FlashCommand) (data : List UInt8) : Prop :=
  ∀ live chip inputs,
    (∀ e ∈ c.events b m live chip inputs data, e.InBounds b.flashInfo.size) ∧
      (b.flashInfo.size < (c.range data).1 + (c.range data).2 →
        (∀ e ∈ c.events b m live chip inputs data, e.IsSend) ∧
          (c.toRam b data = false → IsRejection (c.events b m live chip inputs data)))

lemma IsRejection.isSend {events : List FlashEvent} (h : IsRejection events) :
    ∀ e ∈ events, e.IsSend := by
  obtain ⟨status, rest, -, rfl⟩ := h
  intro e he
  rw [List.mem_singleton.mp he]
  trivial

lemma FlashCommand.guarded (b : Board) (m : Machine) (live : ℕ → Store UInt8) (c : FlashCommand)
    (chip : Chip) (inputs : List Packet) (data : List UInt8) (hflash : c.toRam b data = false) :
    Guarded b.flashInfo.size (c.accepted b m data) (c.range data).1 (c.range data).2
      (c.events b m live chip inputs data) := by
  cases hg : b.geometry with
  | none =>
      have hacc : c.accepted b m data = false := by
        rw [FlashCommand.accepted, hg]
      have hflashWrite : IsRejection (handleFlashWrite b chip m.bus data inputs) := by
        simp only [handleFlashWrite, hg]
        split <;> exact isRejection_sendAck (by decide)
      rw [hacc]
      cases c with
      | erase =>
          simp only [FlashCommand.events, handleErase, hg]
          split <;> exact isRejection_sendAck (by decide)
      | flashWrite =>
          rw [FlashCommand.events, handleWrite]
          by_cases hshort : data.length < 12
          · rw [if_pos hshort]
            exact isRejection_sendAck (by decide)
          · have hlong : decide (data.length ≥ 12) = true := decide_eq_true (not_lt.mp hshort)
            have hto : (writeReq data).toFlash b = true := by
              simpa only [FlashCommand.toRam, hlong, Bool.true_and, Bool.not_eq_false'] using hflash
            rw [if_neg hshort, if_pos hto]
            exact hflashWrite
      | flashProgram =>
          simp only [FlashCommand.events, handleFlashProgram, hg]
          split <;> exact isRejection_sendAck (by decide)
      | flashStream =>
          simp only [FlashCommand.events, handleFlashStream, hg]
          split <;> exact isRejection_sendAck (by decide)
  | some g =>
      rw [← b.geometry_size hg]
      simp only [FlashCommand.accepted, hg]
      cases c with
      | erase => exact handleErase_guarded hg chip data
      | flashWrite => exact handleWrite_guarded hg chip m.bus data inputs hflash
      | flashProgram => exact handleFlashProgram_guarded hg m live chip data
      | flashStream => exact handleFlashStream_guarded hg chip m.bus data inputs

/-- What a handler of the flash accepts is not a write to RAM. -/
lemma FlashCommand.toRam_of_accepted {b : Board} {m : Machine} {c : FlashCommand}
    {data : List UInt8} (h : c.accepted b m data = true) : c.toRam b data = false := by
  cases c with
  | flashWrite =>
      rw [FlashCommand.accepted] at h
      split at h
      · cases h
      · obtain ⟨-, hto⟩ := (Bool.and_eq_true _ _).mp h
        rw [FlashCommand.toRam, ((Bool.and_eq_true _ _).mp hto).1, Bool.not_true, Bool.and_false]
  | _ => rfl

/-- **When the flash commands are safe.**  Exactly for the requests that fail a check on their way to
the flash or whose address and size add up without wrapping. -/
theorem flash_commands_safe_iff (b : Board) (m : Machine) (c : FlashCommand) (data : List UInt8) :
    FlashSafe b m c data ↔
      ¬ (c.accepted b m data = true ∧ 2 ^ 32 ≤ (c.range data).1 + (c.range data).2) := by
  constructor
  · rintro h ⟨hacc, hwrap⟩
    let chip : Chip := ⟨fun _ => true, fun _ => (0, 0, 0), fun _ => 0⟩
    have hflash := FlashCommand.toRam_of_accepted hacc
    have hguard := c.guarded b m (fun _ => m.bus) chip [] data hflash
    rw [hacc] at hguard
    obtain ⟨hadd, tail, hevents, -⟩ := hguard
    have hsize : b.flashInfo.size < 2 ^ 32 := by
      cases hg : b.geometry with
      | none => simp [FlashCommand.accepted, hg] at hacc
      | some g => exact b.geometry_size hg ▸ g.size_lt
    -- the handler has said ACK_OK, so it did not reject
    obtain ⟨status, rest, hne, hreject⟩ :=
      ((h (fun _ => m.bus) chip []).2 (by omega)).2 hflash
    rw [hevents] at hreject
    simp only [sendAck, ackPacket, List.cons.injEq, FlashEvent.send.injEq, Packet.mk.injEq,
      true_and] at hreject
    exact hne hreject.1.1.symm
  · intro h live chip inputs
    cases hram : c.toRam b data with
    | true =>
        have hsends : ∀ e ∈ c.events b m live chip inputs data, e.IsSend := by
          cases c with
          | flashWrite => exact isSend_handleWrite hram
          | _ => cases hram
        exact ⟨fun e he => (hsends e he).inBounds _, fun _ => ⟨hsends, fun hflash => by cases hflash⟩⟩
    | false =>
        have hguard := c.guarded b m live chip inputs data hram
        cases hacc : c.accepted b m data with
        | false =>
            rw [hacc] at hguard
            have hrejected : IsRejection (c.events b m live chip inputs data) := hguard
            exact ⟨fun e he => (hrejected.isSend e he).inBounds _,
              fun _ => ⟨hrejected.isSend, fun _ => hrejected⟩⟩
        | true =>
            rw [hacc] at hguard
            obtain ⟨hadd, tail, hevents, hin⟩ := hguard
            have hfit : (c.range data).1 + (c.range data).2 ≤ b.flashInfo.size := by
              have hlt : (c.range data).1 + (c.range data).2 < 2 ^ 32 := by
                by_contra hge
                exact h ⟨hacc, by omega⟩
              rwa [add32_of_lt hlt] at hadd
            refine ⟨fun e he => ?_, fun hout => absurd hfit (by omega)⟩
            rw [hevents, List.mem_cons] at he
            rcases he with rfl | he
            · trivial
            · exact hin hfit e he

/-- Two sectors from the last one of the address space: the sum wraps to 64 KiB, and sector
`0xFFFF0000` of a 16 MiB flash is erased. -/
theorem erase_wraps_past_flash :
    ¬ FlashSafe (norBoard hi3516ev300 (by decide)) (uniform 0 0 0) .erase
      (packU32 0xFFFF0000 ++ packU32 0x20000) := by
  intro h
  let chip : Chip := ⟨fun _ => true, fun _ => (0, 0, 0), fun _ => 0⟩
  have hmem : FlashEvent.erase 0xFFFF0000 ∈ FlashCommand.events
      (norBoard hi3516ev300 (by decide)) (uniform 0 0 0) (fun _ _ => 0) chip [] .erase
      (packU32 0xFFFF0000 ++ packU32 0x20000) := by
    decide +kernel
  have hbounds := (h (fun _ _ => 0) chip []).1 _ hmem
  exact absurd hbounds (by simp only [FlashEvent.InBounds]; decide +kernel)

end Defib
