import Defib.Agent.FlashStream
import Defib.Host.EraseFlash

/-!
# Erasing the flash

`erase_flash` against `handle_erase` over a link that loses nothing.  The host waits for as many
packets as there are sectors; the agent sends as many only if every sector erases, and otherwise
stops at the first failure with an error ACK.  The host takes that ACK for progress and then waits
for packets that nobody sends: `eraseFlash_inStep_iff` says that the two agree exactly when the
agent refuses the request at once or every sector erases.
-/

namespace Defib

/-! ## What the agent sends -/

section EraseLoop

variable {chip : Chip} {base sectorSz : ℕ} (progress : ℕ → ℕ → Packet)

lemma eraseLoop_of_ok {is : List ℕ} (h : ∀ i ∈ is, chip.eraseOk (add32 base (i * sectorSz))) :
    packetsOf (eraseLoop chip base sectorSz progress is).1 =
        is.map (fun i => progress i (add32 base (i * sectorSz))) ∧
      (eraseLoop chip base sectorSz progress is).2 = true := by
  induction is with
  | nil => exact ⟨rfl, rfl⟩
  | cons i is ih =>
      obtain ⟨hpackets, hflag⟩ := ih fun j hj => h j (by simp [hj])
      rw [eraseLoop, if_pos (h i (by simp))]
      exact ⟨by simp [hpackets], hflag⟩

/-- A loop that meets a sector it cannot erase reports the ones before and the failure. -/
lemma eraseLoop_of_fails {is : List ℕ} {i : ℕ} (hi : i ∈ is)
    (h : chip.eraseOk (add32 base (i * sectorSz)) = false) :
    ∃ done, done.length < is.length ∧ (∀ p ∈ done, ∃ j a, p = progress j a) ∧
      packetsOf (eraseLoop chip base sectorSz progress is).1 = done ++ [ackPacket ackFlashError] ∧
      (eraseLoop chip base sectorSz progress is).2 = false := by
  induction is with
  | nil => simp at hi
  | cons j is ih =>
      cases hok : chip.eraseOk (add32 base (j * sectorSz)) with
      | false =>
          refine ⟨[], by simp, by simp, ?_, ?_⟩ <;> simp [eraseLoop, hok, sendAck]
      | true =>
          have hmem : i ∈ is := by
            rcases List.mem_cons.mp hi with rfl | hmem
            · simp [hok] at h
            · exact hmem
          obtain ⟨done, hlen, hform, hpackets, hflag⟩ := ih hmem
          refine ⟨progress j (add32 base (j * sectorSz)) :: done, by simpa using hlen, ?_, ?_, ?_⟩
          · intro p hp
            rcases List.mem_cons.mp hp with rfl | hp
            · exact ⟨_, _, rfl⟩
            · exact hform p hp
          · simp [eraseLoop, hok, hpackets]
          · simp [eraseLoop, hok, hflag]

end EraseLoop

/-- The packets `handle_erase` sends for a request that `struct.pack` can encode, and none for any
other. -/
def eraseReply (b : Board) (chip : Chip) (addr size : ℕ) : List Packet :=
  if addr < 2 ^ 32 ∧ size < 2 ^ 32 then
    packetsOf (handleErase b chip (packU32 addr ++ packU32 size))
  else []

/-- The agent's side of the line: what it says while it waits, before the command and after. -/
def eraseStream (b : Board) (chip : Chip) (before after : ℕ) (request : List UInt8) :
    List Packet :=
  List.replicate before readyPacket ++ (packetsOf (handleErase b chip request) ++
    List.replicate after readyPacket)

/-- The request is one the agent does not accept. -/
def EraseRefused (b : Board) (addr size : ℕ) : Prop :=
  ∀ g ∈ b.geometry, eraseAccepted g addr size = false

/-- Every sector of the range erases. -/
def AllErase (b : Board) (chip : Chip) (addr size : ℕ) : Prop :=
  ∀ g ∈ b.geometry, ∀ i < size / g.sectorSize, chip.eraseOk (add32 addr (i * g.sectorSize)) = true

/-- The reply to a request that cannot be accepted. -/
lemma eraseReply_of_refused {b : Board} {chip : Chip} {addr size : ℕ} (haddr : addr < 2 ^ 32)
    (hsize : size < 2 ^ 32) (h : EraseRefused b addr size) :
    packetsOf (handleErase b chip (packU32 addr ++ packU32 size)) =
      [ackPacket ackFlashError] := by
  have hdrop : (packU32 addr ++ packU32 size).drop 4 = packU32 size := rfl
  rw [handleErase, if_neg (by simp), hdrop, readLe32_packU32_append, readLe32_packU32,
    Nat.mod_eq_of_lt haddr, Nat.mod_eq_of_lt hsize]
  cases hg : b.geometry with
  | none => rfl
  | some g =>
      have hrefused := h g hg
      simp [hrefused, sendAck]

/-- The reply to an accepted request: the first ACK, and what the loop over sectors leads to. -/
lemma eraseReply_of_accepted {b : Board} (chip : Chip) {g : Geometry} {addr size : ℕ}
    (haddr : addr < 2 ^ 32) (hsize : size < 2 ^ 32) (hg : b.geometry = some g)
    (hacc : eraseAccepted g addr size = true) :
    packetsOf (handleErase b chip (packU32 addr ++ packU32 size)) =
      let loop := eraseLoop chip addr g.sectorSize (eraseProgress chip)
        (List.range (size / g.sectorSize))
      ackPacket ackOk :: (packetsOf loop.1 ++ if loop.2 then [ackPacket ackOk] else []) := by
  have hdrop : (packU32 addr ++ packU32 size).drop 4 = packU32 size := rfl
  rw [handleErase, if_neg (by simp), hdrop, readLe32_packU32_append, readLe32_packU32,
    Nat.mod_eq_of_lt haddr, Nat.mod_eq_of_lt hsize, hg]
  simp only [hacc, if_true, sendAck, packetsOf_send, packetsOf_append]
  split <;> rfl

/-! ## Agreement -/

/-- What a call returns is what the agent's reply says, progress is progress, and nothing of the
reply is left unread. -/
structure EraseAgrees (run : EraseRun) (reply : List Packet) : Prop where
  true_iff : run.result = .ok true ↔ AckedOk reply
  false_iff : run.result = .ok false ↔ ∃ p ∈ reply, p.cmd = rspAck ∧ p.data.head? ≠ some ackOk
  progress : ∀ p ∈ run.progress, p.cmd ≠ rspAck
  unread : ∀ p ∈ run.unread, p = readyPacket

/-- Host and agent stay in step, however long the agent waited before the command and waits after
it. -/
def EraseInStep (b : Board) (chip : Chip) (sectorSize addr size : ℕ) : Prop :=
  ∀ before after,
    EraseAgrees (eraseFlash sectorSize addr size (eraseStream b chip before after))
      (eraseReply b chip addr size)

lemma replyOk_ackPacket (status : UInt8) :
    replyOk (ackPacket status) = .ok (decide (status = ackOk)) := by
  simp [replyOk, ackPacket]

lemma eraseReceive_refused (numSectors before after : ℕ) :
    eraseReceive numSectors (List.replicate before readyPacket ++
        ([ackPacket ackFlashError] ++ List.replicate after readyPacket)) =
      ⟨.ok false, [], List.replicate after readyPacket⟩ := by
  have hne : (ackPacket ackFlashError).cmd ≠ rspReady := by decide
  rw [eraseReceive, recvResponse_replicate_ready, List.singleton_append, recvResponse_of_ne hne]
  rfl

/-- As many packets as sectors, then the final ACK. -/
lemma eraseReceive_ok {numSectors : ℕ} {done : List Packet} (h : done.length = numSectors)
    (before after : ℕ) :
    eraseReceive numSectors (List.replicate before readyPacket ++
        (ackPacket ackOk :: (done ++ [ackPacket ackOk]) ++ List.replicate after readyPacket)) =
      ⟨.ok true, done, List.replicate after readyPacket⟩ := by
  subst h
  have hne : (ackPacket ackOk).cmd ≠ rspReady := by decide
  have hloop : eraseProgressLoop done.length (done ++ (ackPacket ackOk ::
      List.replicate after readyPacket)) =
      (done, some (ackPacket ackOk :: List.replicate after readyPacket)) := by
    rw [eraseProgressLoop_of_le (by simp), List.take_left, List.drop_left]
  rw [eraseReceive, recvResponse_replicate_ready, List.cons_append, List.append_assoc,
    List.singleton_append, recvResponse_of_ne hne]
  simp only [replyOk_ackPacket, decide_true, hloop, recvResponse_of_ne hne]

/-- A full reply, read to its end. -/
lemma agrees_of_full {done : List Packet} (hdata : ∀ p ∈ done, p.cmd = rspData) (after : ℕ) :
    EraseAgrees ⟨.ok true, done, List.replicate after readyPacket⟩
      (ackPacket ackOk :: (done ++ [ackPacket ackOk])) where
  true_iff := by
    simp only [AckedOk, true_iff]
    rw [List.getLast?_cons_of_ne_nil (by simp), List.getLast?_append_of_ne_nil _ (by simp)]
    rfl
  false_iff := by
    simp only [Except.ok.injEq, Bool.true_eq_false, false_iff, not_exists, not_and]
    intro p hp hcmd
    simp only [List.mem_cons, List.mem_append, List.not_mem_nil, or_false] at hp
    rcases hp with rfl | hp | rfl
    · simp [ackPacket]
    · rw [hdata p hp] at hcmd
      exact absurd hcmd (by decide)
    · simp [ackPacket]
  progress := by
    intro p hp
    rw [hdata p hp]
    decide
  unread := fun _ hp => List.eq_of_mem_replicate hp

/-- A reply that stops early, with nothing after it, leaves the host waiting. -/
lemma eraseReceive_early {numSectors : ℕ} {done : List Packet} (h : done.length < numSectors) :
    ∃ progress, eraseReceive numSectors
        (ackPacket ackOk :: (done ++ [ackPacket ackFlashError])) =
      ⟨.error noPacket, progress, []⟩ := by
  have hne : (ackPacket ackOk).cmd ≠ rspReady := by decide
  rw [eraseReceive, recvResponse_of_ne hne]
  simp only [replyOk_ackPacket, decide_true]
  rcases Nat.lt_or_ge (done.length + 1) numSectors with hlt | hge
  · -- sectors are still outstanding after the error ACK
    rw [eraseProgressLoop_of_lt (by simpa using hlt)]
    exact ⟨_, rfl⟩
  · -- the error ACK stood for the last sector, and the final ACK is missing
    have hlen : numSectors = (done ++ [ackPacket ackFlashError]).length := by
      simp only [List.length_append, List.length_singleton]
      omega
    rw [eraseProgressLoop_of_le (by omega), hlen, List.drop_length]
    exact ⟨_, rfl⟩

lemma clientSectorSz {g : Geometry} {sectorSize : ℕ} (h : sectorSize = g.sectorSize) :
    (if sectorSize = 0 then 0x10000 else sectorSize) = g.sectorSize := by
  have := g.sector_pos
  rw [if_neg (by omega), h]

lemma inStep_of_refused {b : Board} {chip : Chip} {sectorSize addr size : ℕ}
    (haddr : addr < 2 ^ 32) (hsize : size < 2 ^ 32) (h : EraseRefused b addr size) :
    EraseInStep b chip sectorSize addr size := by
  intro before after
  rw [eraseReply, if_pos ⟨haddr, hsize⟩, eraseFlash, if_pos ⟨haddr, hsize⟩, eraseStream,
    eraseReply_of_refused haddr hsize h]
  simp only
  rw [eraseReceive_refused]
  constructor
  · simp [AckedOk, ackPacket, ackOk, ackFlashError]
  · simp [ackPacket, ackOk, ackFlashError]
  · simp
  · exact fun p hp => List.eq_of_mem_replicate hp

lemma inStep_of_allErase {b : Board} {chip : Chip} {g : Geometry} {sectorSize addr size : ℕ}
    (haddr : addr < 2 ^ 32) (hsize : size < 2 ^ 32) (hg : b.geometry = some g)
    (hsector : sectorSize = g.sectorSize) (hacc : eraseAccepted g addr size = true)
    (h : AllErase b chip addr size) : EraseInStep b chip sectorSize addr size := by
  intro before after
  obtain ⟨hpackets, hflag⟩ := eraseLoop_of_ok (eraseProgress chip)
    fun i hi => h g hg i (List.mem_range.mp hi)
  have hreply := eraseReply_of_accepted chip haddr hsize hg hacc
  simp only [hpackets, hflag, if_true] at hreply
  rw [eraseReply, if_pos ⟨haddr, hsize⟩, eraseFlash, if_pos ⟨haddr, hsize⟩, eraseStream,
    clientSectorSz hsector, hreply]
  simp only
  rw [eraseReceive_ok (by rw [List.length_map, List.length_range])]
  refine agrees_of_full (fun p hp => ?_) after
  obtain ⟨i, -, rfl⟩ := List.mem_map.mp hp
  rfl

/-- A failing sector leaves the host without an answer. -/
lemma not_inStep_of_fails {b : Board} {chip : Chip} {g : Geometry} {sectorSize addr size i : ℕ}
    (haddr : addr < 2 ^ 32) (hsize : size < 2 ^ 32) (hg : b.geometry = some g)
    (hsector : sectorSize = g.sectorSize) (hacc : eraseAccepted g addr size = true)
    (hi : i < size / g.sectorSize)
    (h : chip.eraseOk (add32 addr (i * g.sectorSize)) = false) :
    ¬ EraseInStep b chip sectorSize addr size := by
  intro hstep
  obtain ⟨done, hlen, -, hpackets, hflag⟩ := eraseLoop_of_fails (eraseProgress chip)
    (List.mem_range.mpr hi) h
  have hreply := eraseReply_of_accepted chip haddr hsize hg hacc
  simp only [hpackets, hflag, Bool.false_eq_true, if_false, List.append_nil] at hreply
  have hagrees := hstep 0 0
  rw [eraseReply, if_pos ⟨haddr, hsize⟩, eraseFlash, if_pos ⟨haddr, hsize⟩, eraseStream,
    clientSectorSz hsector, hreply, List.replicate_zero, List.nil_append, List.append_nil]
    at hagrees
  obtain ⟨progress, hrun⟩ := eraseReceive_early (by simpa using hlen)
  simp only [hrun] at hagrees
  -- the reply holds an error ACK, but the call has not returned
  have hfalse := hagrees.false_iff.mpr
    ⟨ackPacket ackFlashError, by simp, rfl, by simp [ackPacket, ackOk, ackFlashError]⟩
  cases hfalse

/-- **When eraser and agent agree.**  A client that knows the agent's sector size returns what the
agent's run says, for every failing set of sectors, exactly when the agent refuses the request or
no sector of the range fails. -/
theorem eraseFlash_inStep_iff (b : Board) (chip : Chip) (sectorSize addr size : ℕ)
    (hsector : ∀ g ∈ b.geometry, sectorSize = g.sectorSize) :
    EraseInStep b chip sectorSize addr size ↔
      (addr < 2 ^ 32 → size < 2 ^ 32 → EraseRefused b addr size ∨ AllErase b chip addr size) := by
  constructor
  · intro hstep haddr hsize
    by_contra hneither
    obtain ⟨hrefused, hall⟩ := not_or.mp hneither
    simp only [EraseRefused, AllErase, not_forall, Bool.not_eq_false, Bool.not_eq_true]
      at hrefused hall
    obtain ⟨g, hg, hacc⟩ := hrefused
    obtain ⟨g', hg', i, hi, hfails⟩ := hall
    obtain rfl : g = g' := Option.some.inj (hg.symm.trans hg')
    exact not_inStep_of_fails haddr hsize hg (hsector g hg) hacc hi hfails hstep
  · intro h
    by_cases hrange : addr < 2 ^ 32 ∧ size < 2 ^ 32
    · rcases h hrange.1 hrange.2 with hrefused | hall
      · exact inStep_of_refused hrange.1 hrange.2 hrefused
      · by_cases hrefused : EraseRefused b addr size
        · exact inStep_of_refused hrange.1 hrange.2 hrefused
        · simp only [EraseRefused, not_forall, Bool.not_eq_false] at hrefused
          obtain ⟨g, hg, hacc⟩ := hrefused
          exact inStep_of_allErase hrange.1 hrange.2 hg (hsector g hg) hacc hall
    · -- no command is sent
      intro before after
      rw [eraseReply, if_neg hrange, eraseFlash, if_neg hrange]
      constructor <;> simp [AckedOk]

/-- The chip whose sector at an address does not erase. -/
def chipFailingAt (addr : ℕ) : Chip := ⟨fun a => a ≠ addr, fun _ => (0, 0, 0), fun _ => 0xFF⟩

lemma geometry_norBoard :
    ∃ g, (norBoard hi3516ev300 (by decide)).geometry = some g ∧ g.size = 0x1000000 ∧
      g.sectorSize = 0x10000 := by
  rw [Board.geometry, dif_pos (by decide)]
  exact ⟨_, rfl, by decide, by decide⟩

theorem eraseFlash_inStep_norBoard :
    (∀ g ∈ (norBoard hi3516ev300 (by decide)).geometry, 0x10000 = g.sectorSize) ∧
      (EraseInStep (norBoard hi3516ev300 (by decide)) (chipFailingAt 0x20000) 0x10000 0 0x30000 ↔
        (0 < 2 ^ 32 → 0x30000 < 2 ^ 32 → EraseRefused (norBoard hi3516ev300 (by decide)) 0 0x30000 ∨
          AllErase (norBoard hi3516ev300 (by decide)) (chipFailingAt 0x20000) 0 0x30000)) := by
  obtain ⟨g, hg, -, hsector⟩ := geometry_norBoard
  have h : ∀ g ∈ (norBoard hi3516ev300 (by decide)).geometry, 0x10000 = g.sectorSize := by
    intro g' hg'
    obtain rfl : g = g' := Option.some.inj (hg.symm.trans hg')
    exact hsector.symm
  exact ⟨h, eraseFlash_inStep_iff _ _ _ _ _ h⟩

/-- **The host hangs on a failed sector.**  When the last of three sectors does not erase, the
agent says so and the host never returns `False`. -/
theorem eraseFlash_hangs_on_failure :
    (∀ g ∈ (norBoard hi3516ev300 (by decide)).geometry, 0x10000 = g.sectorSize) ∧
      ¬ EraseInStep (norBoard hi3516ev300 (by decide)) (chipFailingAt 0x20000) 0x10000 0
        0x30000 := by
  obtain ⟨g, hg, hsize, hsector⟩ := geometry_norBoard
  constructor
  · intro g' hg'
    obtain rfl : g = g' := Option.some.inj (hg.symm.trans hg')
    exact hsector.symm
  · refine not_inStep_of_fails (i := 2) (by decide) (by decide) hg hsector.symm ?_ ?_ ?_
    · simp [eraseAccepted, hsize, hsector, add32]
    · rw [hsector]
      decide
    · rw [hsector]
      decide

end Defib
