import Defib.Agent.FlashStream
import Defib.Properties.FlashProgramming
import Defib.Properties.FlashSafety

/-!
# Page programs that fail

`flash_write_page` reports a failed program, as the NAND does on `P_FAIL`, and neither
`handle_flash_program` nor `erase_and_program` looks at what it returns.
`page_failures_reported_iff` therefore comes down to a plan: the pages that a request asks to be
programmed, when its checks pass, its data arrive and its erases succeed.  The last `ACK_OK`
excludes a failure exactly when no page of the plan fails.

The plan of a stream (`streamPlan`) goes through the sectors in order.  The handler itself erases
and programs a sector one turn late, out of the buffer that it does not receive into, and
`follows_outputs` brings the two together.
-/

namespace Defib

/-! ## Failures -/

/-- The page of an event, if it is a program. -/
def FlashEvent.page? : FlashEvent → Option (ℕ × List UInt8)
  | .program addr data => some (addr, data)
  | _ => none

/-- The pages that a handler programs. -/
def pagesOf (events : List FlashEvent) : List (ℕ × List UInt8) := events.filterMap FlashEvent.page?

@[simp] lemma pagesOf_nil : pagesOf [] = [] := rfl

@[simp] lemma pagesOf_append (es es' : List FlashEvent) :
    pagesOf (es ++ es') = pagesOf es ++ pagesOf es' := List.filterMap_append

@[simp] lemma pagesOf_send (p : Packet) (es : List FlashEvent) :
    pagesOf (.send p :: es) = pagesOf es := rfl

@[simp] lemma pagesOf_erase (addr : ℕ) (es : List FlashEvent) :
    pagesOf (.erase addr :: es) = pagesOf es := rfl

/-- A handler that has begun acknowledges a second time. -/
def FinalOk (events : List FlashEvent) : Prop := EndsOk events.tail

/-- **No failure goes unreported**: a handler ends with `ACK_OK` only if every page program that it
made succeeded.  `programOk` is what `flash_write_page` returns for a page. -/
def FailuresReported (programOk : ℕ → List UInt8 → Bool) (events : List FlashEvent) : Prop :=
  FinalOk events → ∀ p ∈ pagesOf events, programOk p.1 p.2 = true

/-- Every page of a plan succeeds, if there is a plan. -/
def AllProgrammed (programOk : ℕ → List UInt8 → Bool) (plan : Option (List (ℕ × List UInt8))) :
    Prop :=
  ∀ pages, plan = some pages → ∀ p ∈ pages, programOk p.1 p.2 = true

/-- A handler does what a plan says: it ends well if there is a plan, and programs its pages. -/
def Follows (events : List FlashEvent) (plan : Option (List (ℕ × List UInt8))) : Prop :=
  match plan with
  | none => ¬ EndsOk events
  | some pages => EndsOk events ∧ pagesOf events = pages

/-- What follows a plan reports what fails of the plan. -/
lemma failuresReported_iff {events : List FlashEvent} {plan : Option (List (ℕ × List UInt8))}
    (h : Follows events.tail plan) (hpages : pagesOf events = pagesOf events.tail)
    (programOk : ℕ → List UInt8 → Bool) :
    FailuresReported programOk events ↔ AllProgrammed programOk plan := by
  rw [FailuresReported, FinalOk, hpages]
  cases plan with
  | none => exact iff_of_true (fun hend => absurd hend h) fun pages hpages => by cases hpages
  | some pages =>
      obtain ⟨hend, hpages⟩ := h
      rw [hpages]
      constructor
      · rintro hall pages' ⟨⟩
        exact hall hend
      · exact fun hall _ => hall pages rfl

lemma not_endsOk_nil : ¬ EndsOk [] := Option.some_ne_none _ ∘ Eq.symm

/-- What comes before does not matter, as long as it does not acknowledge. -/
lemma endsOk_append_iff {es es' : List FlashEvent} (h : sendAck ackOk ∉ es) :
    EndsOk (es ++ es') ↔ EndsOk es' := by
  rw [EndsOk, EndsOk, List.getLast?_append]
  cases hlast : es'.getLast? with
  | some e => rw [Option.some_or]
  | none =>
      rw [Option.none_or]
      exact iff_of_false (fun hmem => h (List.mem_of_getLast? hmem)) (by simp)

/-- More events in front are more pages of the plan. -/
lemma Follows.prepend {es es' : List FlashEvent} {plan : Option (List (ℕ × List UInt8))}
    (hes : sendAck ackOk ∉ es) (h : Follows es' plan) :
    Follows (es ++ es') (plan.map (pagesOf es ++ ·)) := by
  cases plan with
  | none => exact fun hend => h ((endsOk_append_iff hes).mp hend)
  | some pages => exact ⟨(endsOk_append_iff hes).mpr h.1, by rw [pagesOf_append, h.2]⟩

lemma sendAck_ne_progress {status : UInt8} {done total : ℕ} :
    sendAck status ≠ .send (progressPacket done total) := by
  intro h
  simp only [sendAck, FlashEvent.send.injEq] at h
  exact absurd (congrArg Packet.cmd h) (by decide : rspAck ≠ rspData)

/-- A handler that gives up follows no plan. -/
lemma follows_ackFlashError (es : List FlashEvent) : Follows (es ++ [sendAck ackFlashError]) none :=
  not_endsOk_ackFlashError es

/-! ## `handle_flash_program` -/

/-- The pages that a request asks for, when nothing is wrong with it: it passes the checks of the
handler, and its sectors are erased. -/
def programPlan (b : Board) (m : Machine) (live : ℕ → Store UInt8) (chip : Chip)
    (data : List UInt8) : Option (List (ℕ × List UInt8)) :=
  b.geometry.bind fun g =>
    let ramAddr := readLe32 data
    let addr := readLe32 (data.drop 4)
    let size := readLe32 (data.drop 8)
    let sectors := (List.range (programSectors g.sectorSize addr size)).map fun s =>
      add32 (addr / g.sectorSize * g.sectorSize) (s * g.sectorSize)
    if 16 ≤ data.length ∧ flashProgramAccepted b g m ramAddr addr size (readLe32 (data.drop 12)) ∧
        sectors.all chip.eraseOk then
      some (((Cut.upTo g.pageSize g.page_pos).pieces 0 size).map fun p =>
        (add32 addr p.1, (live p.1).load (ramAddr + p.1) p.2))
    else none

lemma eraseLoop_snd (chip : Chip) (base sectorSz : ℕ) (progress : ℕ → ℕ → Packet) (is : List ℕ) :
    (eraseLoop chip base sectorSz progress is).2 =
      (is.map fun i => add32 base (i * sectorSz)).all chip.eraseOk := by
  induction is with
  | nil => rfl
  | cons i is ih =>
      rw [eraseLoop, List.map_cons, List.all_cons]
      dsimp only
      cases hok : chip.eraseOk (add32 base (i * sectorSz)) with
      | true => rw [if_pos rfl, ih, Bool.true_and]
      | false => rw [if_neg Bool.false_ne_true, Bool.false_and]

lemma pagesOf_erasesOf (base sectorSz : ℕ) (progress : ℕ → ℕ → Packet) (is : List ℕ) :
    pagesOf (erasesOf base sectorSz progress is) = [] := by
  rw [pagesOf, List.filterMap_eq_nil_iff]
  intro e he
  obtain ⟨i, -, rfl | rfl⟩ := mem_erasesOf.mp he
  · rfl
  · rfl

lemma pagesOf_programLoop (g : Geometry) (addr : ℕ) (src : ℕ → Store UInt8) (size total : ℕ) :
    pagesOf (programLoop g addr src size total) =
      ((Cut.upTo g.pageSize g.page_pos).pieces 0 size).map fun p =>
        (add32 addr p.1, (src p.1).load p.1 p.2) := by
  rw [programLoop]
  generalize (Cut.upTo g.pageSize g.page_pos).pieces 0 size = ps
  induction ps with
  | nil => rfl
  | cons p ps ih =>
      rw [List.flatMap_cons, pagesOf_append, ih, List.map_cons]
      dsimp only
      split
      · rfl
      · rfl

/-- **`handle_flash_program` follows its plan.** -/
lemma follows_handleFlashProgram (b : Board) (m : Machine) (live : ℕ → Store UInt8) (chip : Chip)
    (data : List UInt8) :
    Follows (handleFlashProgram b m live chip data).tail (programPlan b m live chip data) := by
  rw [handleFlashProgram, programPlan]
  by_cases hshort : data.length < 16
  · rw [if_pos hshort]
    cases b.geometry with
    | none => exact not_endsOk_nil
    | some g =>
        rw [Option.bind_some, if_neg fun h => absurd h.1 (by omega)]
        exact not_endsOk_nil
  rw [if_neg hshort]
  cases b.geometry with
  | none => exact not_endsOk_nil
  | some g =>
      rw [Option.bind_some]
      generalize readLe32 data = ramAddr
      generalize readLe32 (data.drop 4) = addr
      generalize readLe32 (data.drop 8) = size
      generalize readLe32 (data.drop 12) = crc
      dsimp only
      by_cases hcheck : size = 0 ∨ add32 addr size > g.size ∨ addrReadable b ramAddr size = false
      · rw [if_pos hcheck, if_neg]
        · exact not_endsOk_nil
        · rintro ⟨-, haccepted, -⟩
          simp only [flashProgramAccepted, Bool.and_eq_true, decide_eq_true_eq] at haccepted
          rcases hcheck with h | h | h
          · exact haccepted.1.1.1 h
          · omega
          · rw [haccepted.1.2] at h
            cases h
      rw [if_neg hcheck]
      by_cases hcrc : (crc32 0 (m.bus.load ramAddr size)).toNat ≠ crc
      · rw [if_pos hcrc, if_neg]
        · exact not_endsOk_nil
        · rintro ⟨-, haccepted, -⟩
          simp only [flashProgramAccepted, Bool.and_eq_true, decide_eq_true_eq] at haccepted
          exact hcrc haccepted.2
      rw [if_neg hcrc, List.tail_cons, ← programSectors]
      have haccepted : flashProgramAccepted b g m ramAddr addr size crc = true := by
        simp only [not_or, Nat.not_lt, gt_iff_lt, Bool.not_eq_false] at hcheck
        simp only [flashProgramAccepted, Bool.and_eq_true, decide_eq_true_eq]
        exact ⟨⟨⟨hcheck.1, hcheck.2.1⟩, hcheck.2.2⟩, not_not.mp hcrc⟩
      have hall := eraseLoop_snd chip (addr / g.sectorSize * g.sectorSize) g.sectorSize
        (fun s _ => progressPacket (s + 1) (programSectors g.sectorSize addr size))
        (List.range (programSectors g.sectorSize addr size))
      rcases eraseLoop_cases chip (addr / g.sectorSize * g.sectorSize) g.sectorSize
        (fun s _ => progressPacket (s + 1) (programSectors g.sectorSize addr size))
        (List.range (programSectors g.sectorSize addr size)) with hloop | ⟨events, hloop⟩
      · rw [hloop] at hall ⊢
        rw [if_pos rfl, if_pos ⟨by omega, haccepted, hall.symm⟩]
        refine ⟨?_, ?_⟩
        · rw [EndsOk, ← List.append_assoc, List.getLast?_append]
          rfl
        · rw [pagesOf_append, pagesOf_append, pagesOf_erasesOf, pagesOf_programLoop]
          rw [List.nil_append]
          refine (List.append_nil _).trans (List.map_congr_left fun p _ => ?_)
          congr 1
          exact List.map_congr_left fun i _ => by rw [Nat.add_assoc]
      · rw [hloop] at hall ⊢
        rw [if_neg Bool.false_ne_true, if_neg fun h => Bool.false_ne_true (hall.trans h.2.2),
          List.append_nil]
        exact follows_ackFlashError events

/-! ## `handle_flash_stream` -/

/-- The `n` bytes of a sector, out of the packets that bring them, behind what is there already, and
the packets that are left.  A timeout, or the end of the packets, is the end of the stream. -/
def gather (n : ℕ) : List UInt8 → List Packet → Option (List UInt8 × List Packet)
  | _, [] => none
  | got, p :: ps =>
      if p.cmd = rspData ∧ p.data.length > 2 then
        let more := got ++ (p.data.drop 2).take (n - got.length)
        if more.length < n then gather n more ps else some (more, ps)
      else if p.cmd = 0 then none
      else gather n got ps

/-- The pages of a sector that hold anything to program. -/
def sectorPages (g : Geometry) (addr : ℕ) (buf : List UInt8) : List (ℕ × List UInt8) :=
  ((Cut.upTo g.pageSize g.page_pos).pieces 0 buf.length).filterMap fun p =>
    let page := (buf.drop p.1).take p.2
    if pageIsFf page then none else some (add32 addr p.1, page)

/-- A sector that is erased and programmed. -/
def sectorPlan (g : Geometry) (chip : Chip) (addr : ℕ) (buf : List UInt8) :
    Option (List (ℕ × List UInt8)) :=
  if chip.eraseOk addr then some (sectorPages g addr buf) else none

/-- One plan after the other. -/
def planThen (plan plan' : Option (List (ℕ × List UInt8))) : Option (List (ℕ × List UInt8)) :=
  plan.bind fun pages => plan'.map (pages ++ ·)

/-- The sectors from one on, with so many to go. -/
def sectorsPlan (g : Geometry) (chip : Chip) (req : StreamReq) :
    ℕ → ℕ → List Packet → Option (List (ℕ × List UInt8))
  | 0, _, _ => some []
  | left + 1, s, inputs =>
      let addr := add32 req.flashAddr (s * g.sectorSize)
      if bitmapBit req.bitmap s then
        (gather (req.sectorBytes g s) [] inputs).bind fun r =>
          planThen (sectorPlan g chip addr r.1) (sectorsPlan g chip req left (s + 1) r.2)
      else if chip.eraseOk addr then sectorsPlan g chip req left (s + 1) inputs
      else none

/-- The pages that a stream asks for, when nothing is wrong with it: it passes the checks of the
handler, the data of every announced sector arrive, and all sectors are erased. -/
def streamPlan (b : Board) (chip : Chip) (data : List UInt8) (inputs : List Packet) :
    Option (List (ℕ × List UInt8)) :=
  b.geometry.bind fun g =>
    let req := streamReq data
    if streamAccepted g req ∧ 12 + (req.numSectors g + 7) / 8 ≤ data.length then
      sectorsPlan g chip req (req.numSectors g) 0 inputs
    else none

section Stream

variable {b : Board} {g : Geometry} {chip : Chip} {req : StreamReq}

lemma pagesOf_programPages (addr : ℕ) (buf : List UInt8) :
    pagesOf (programPages g addr buf) = sectorPages g addr buf := by
  rw [pagesOf, programPages, sectorPages, List.filterMap_filterMap]
  refine List.filterMap_congr fun p _ => ?_
  dsimp only
  split
  · rfl
  · rfl

/-- What the pending sector adds to the plan. -/
def pendingPlan (b : Board) (g : Geometry) (chip : Chip) (ram : Store UInt8) :
    Option PendingSector → Option (List (ℕ × List UInt8))
  | none => some []
  | some p => sectorPlan g chip p.addr (ram.load (bufAddr b p.buf) p.bytes)

variable (b g chip) in
lemma processPending_cases (ram : Store UInt8) (pending : Option PendingSector) :
    (processPending b g chip ram pending).2 = false ∧ pendingPlan b g chip ram pending = none ∨
      (processPending b g chip ram pending).2 = true ∧
        pendingPlan b g chip ram pending =
          some (pagesOf (processPending b g chip ram pending).1) := by
  cases pending with
  | none => exact .inr ⟨rfl, rfl⟩
  | some p =>
      rw [processPending, eraseAndProgram, pendingPlan, sectorPlan]
      cases chip.eraseOk p.addr with
      | false => exact .inl ⟨rfl, rfl⟩
      | true =>
          refine .inr ⟨rfl, congrArg some ?_⟩
          exact (pagesOf_programPages p.addr _).symm

/-- Nothing is sent for the pending sector. -/
lemma send_not_mem_processPending (ram : Store UInt8) (pending : Option PendingSector)
    (p : Packet) : .send p ∉ (processPending b g chip ram pending).1 := by
  cases pending with
  | none => exact List.not_mem_nil
  | some sector =>
      rw [processPending, eraseAndProgram]
      cases chip.eraseOk sector.addr with
      | false => exact fun h => by cases List.mem_singleton.mp h
      | true =>
          intro h
          rcases List.mem_cons.mp h with h | h
          · cases h
          · obtain ⟨q, -, hq⟩ := List.mem_filterMap.mp h
            dsimp only at hq
            split at hq
            · cases hq
            · cases hq

/-- A stream that waits for the rest of a sector. -/
structure SectorWait (g : Geometry) (req : StreamReq) (st : StreamState) : Prop where
  s_lt : st.s < req.numSectors g
  partly : st.bufReceived < req.sectorBytes g st.s
  other : ∀ p ∈ st.pending, p.buf = !st.rxBuf ∧ p.bytes ≤ g.sectorSize

/-- The plan of a stream that waits: the pending sector, the one that is received, and the rest. -/
def waitingPlan (b : Board) (g : Geometry) (chip : Chip) (req : StreamReq) (st : StreamState)
    (inputs : List Packet) : Option (List (ℕ × List UInt8)) :=
  planThen (pendingPlan b g chip st.ram st.pending)
    ((gather (req.sectorBytes g st.s) (st.ram.load (bufAddr b st.rxBuf) st.bufReceived) inputs).bind
      fun r => planThen (sectorPlan g chip (add32 req.flashAddr (st.s * g.sectorSize)) r.1)
        (sectorsPlan g chip req (req.numSectors g - (st.s + 1)) (st.s + 1) r.2))

lemma map_nil_append (plan : Option (List (ℕ × List UInt8))) : plan.map ([] ++ ·) = plan := by
  cases plan with
  | none => rfl
  | some pages => rfl

lemma planThen_some_nil (plan : Option (List (ℕ × List UInt8))) : planThen (some []) plan = plan :=
  map_nil_append plan

lemma planThen_none (plan : Option (List (ℕ × List UInt8))) : planThen plan none = none := by
  cases plan with
  | none => rfl
  | some pages => rfl

variable (b g chip) in
/-- The pending sector is processed, and what comes next follows its plan. -/
lemma follows_processPending (ram : Store UInt8) (pending : Option PendingSector)
    {es : List FlashEvent} {plan : Option (List (ℕ × List UInt8))} (h : Follows es plan) :
    Follows ((processPending b g chip ram pending).1 ++
        if (processPending b g chip ram pending).2 then es else [sendAck ackFlashError])
      (planThen (pendingPlan b g chip ram pending) plan) := by
  rcases processPending_cases b g chip ram pending with
    ⟨hfail, hplan⟩ | ⟨hok, hplan⟩
  · rw [hfail, hplan, if_neg Bool.false_ne_true]
    exact follows_ackFlashError _
  · rw [hok, hplan, if_pos rfl]
    exact h.prepend (send_not_mem_processPending ram pending _)

/-- **The loop over sectors between two waits**, when what waits follows its plan. -/
lemma follows_streamAdvance {inputs : List Packet}
    (hwaiting : ∀ st, SectorWait g req st →
      Follows (outputs (streamRecv b g chip req) (some st) inputs)
        (waitingPlan b g chip req st inputs))
    (left : ℕ) (st : StreamState) (hleft : st.s + left = req.numSectors g)
    (hother : ∀ p ∈ st.pending, p.buf = !st.rxBuf ∧ p.bytes ≤ g.sectorSize) :
    Follows ((streamAdvance b g chip req left st).2 ++
        outputs (streamRecv b g chip req) (streamAdvance b g chip req left st).1 inputs)
      (planThen (pendingPlan b g chip st.ram st.pending)
        (sectorsPlan g chip req left st.s inputs)) := by
  induction left generalizing st with
  | zero =>
      have hlast : Follows [sendAck ackOk] (some []) := ⟨rfl, rfl⟩
      have h := follows_processPending b g chip st.ram st.pending hlast
      rw [streamAdvance, sectorsPlan, outputs, List.append_nil]
      dsimp only
      cases hok : (processPending b g chip st.ram st.pending).2 with
      | false =>
          rw [hok] at h
          exact h
      | true =>
          rw [hok] at h
          exact h
  | succ left ih =>
      have hs : st.s < req.numSectors g := by omega
      rw [streamAdvance, sectorsPlan]
      dsimp only
      by_cases hbit : bitmapBit req.bitmap st.s = true
      · rw [if_pos hbit, if_pos hbit, List.nil_append]
        have hpos := StreamReq.sectorBytes_pos (req.sector_lt hs)
        have h := hwaiting { st with bufReceived := 0 } ⟨hs, hpos, hother⟩
        rw [waitingPlan] at h
        dsimp only at h
        rw [show req.numSectors g - (st.s + 1) = left by omega] at h
        exact h
      · rw [if_neg hbit, if_neg hbit]
        have hskip : Follows
            (if chip.eraseOk (add32 req.flashAddr (st.s * g.sectorSize)) then
              .erase (add32 req.flashAddr (st.s * g.sectorSize)) ::
                .send (progressPacket (st.s + 1) (req.numSectors g)) ::
                ((streamAdvance b g chip req left { st with s := st.s + 1, pending := none }).2 ++
                  outputs (streamRecv b g chip req)
                    (streamAdvance b g chip req left { st with s := st.s + 1, pending := none }).1
                    inputs)
            else [.erase (add32 req.flashAddr (st.s * g.sectorSize)), sendAck ackFlashError])
            (if chip.eraseOk (add32 req.flashAddr (st.s * g.sectorSize)) then
              sectorsPlan g chip req left (st.s + 1) inputs else none) := by
          split
          · -- the skipped sector is erased, and nothing is pending any more
            have h := ih { st with s := st.s + 1, pending := none } (by dsimp only; omega)
              fun p hp => by cases hp
            have hnot : sendAck ackOk ∉ [.erase (add32 req.flashAddr (st.s * g.sectorSize)),
                FlashEvent.send (progressPacket (st.s + 1) (req.numSectors g))] := by
              intro hmem
              rcases List.mem_cons.mp hmem with hmem | hmem
              · cases hmem
              · exact sendAck_ne_progress (List.mem_singleton.mp hmem)
            rw [pendingPlan, planThen_some_nil] at h
            have h : Follows _ (Option.map ([] ++ ·) _) := h.prepend hnot
            rwa [map_nil_append] at h
          · exact follows_ackFlashError [_]
        have h := follows_processPending b g chip st.ram st.pending hskip
        cases hok : (processPending b g chip st.ram st.pending).2 with
        | false =>
            rw [hok] at h
            rw [if_neg Bool.false_ne_true, outputs, List.append_nil]
            exact h
        | true =>
            rw [hok] at h
            rw [if_pos rfl]
            cases herase : chip.eraseOk (add32 req.flashAddr (st.s * g.sectorSize)) with
            | false =>
                rw [herase] at h
                rw [if_neg Bool.false_ne_true, outputs, List.append_nil]
                exact h
            | true =>
                rw [herase] at h
                rw [if_pos rfl]
                dsimp only
                rw [List.append_assoc, List.append_assoc]
                exact h

variable (b chip) in
/-- Receiving into one buffer leaves the pending sector in the other one alone. -/
lemma pendingPlan_write {rxBuf : Bool} {pending : Option PendingSector}
    (hother : ∀ p ∈ pending, p.buf = !rxBuf ∧ p.bytes ≤ g.sectorSize) (ram : Store UInt8) {off : ℕ}
    {chunk : List UInt8} (hfit : off + chunk.length ≤ g.sectorSize) :
    pendingPlan b g chip (ram.write (bufAddr b rxBuf + off) chunk) pending =
      pendingPlan b g chip ram pending := by
  cases pending with
  | none => rfl
  | some p =>
      obtain ⟨hbuf, hbytes⟩ := hother p rfl
      have hsector := g.sector_le
      have hdisjoint := bufAddr_disjoint b hbuf (n := off + chunk.length) (k := p.bytes)
        (by omega) (by omega)
      rw [pendingPlan, pendingPlan, Store.load_write_of_disjoint]
      omega

lemma timeoutAck_ne_ackOk (received : ℕ) : timeoutAck received ≠ sendAck ackOk := by
  intro h
  simp only [timeoutAck, sendAck, ackPacket, FlashEvent.send.injEq, Packet.mk.injEq,
    List.cons.injEq] at h
  exact absurd h.2.1 (by decide)

variable (b chip req) in
/-- **A stream that waits follows its plan.**  The induction is on the packets. -/
lemma follows_outputs (inputs : List Packet) : ∀ st, SectorWait g req st →
    Follows (outputs (streamRecv b g chip req) (some st) inputs)
      (waitingPlan b g chip req st inputs) := by
  induction inputs with
  | nil =>
      intro st _
      rw [waitingPlan, gather, Option.bind_none, planThen_none]
      exact not_endsOk_nil
  | cons p ps ih =>
      intro st hst
      obtain ⟨hs, hpartly, hother⟩ := hst
      have hsector := req.sectorBytes_le_sector (g := g) st.s
      rw [outputs, streamRecv, waitingPlan, gather, Store.length_load]
      by_cases hdata : p.cmd = rspData ∧ p.data.length > 2
      · rw [if_pos hdata, if_pos hdata]
        dsimp only
        rw [copyIn]
        generalize hchunk : (p.data.drop 2).take (req.sectorBytes g st.s - st.bufReceived) = chunk
        have hlength : st.bufReceived + chunk.length ≤ req.sectorBytes g st.s := by
          rw [← hchunk, List.length_take]
          omega
        have hram : (st.ram.write (bufAddr b st.rxBuf + st.bufReceived) chunk).load
            (bufAddr b st.rxBuf) (st.bufReceived + chunk.length) =
            st.ram.load (bufAddr b st.rxBuf) st.bufReceived ++ chunk := by
          rw [Store.load_add, Store.load_write_of_disjoint _ (.inl (Nat.le_refl _)),
            Store.load_write_self]
        have hpending := pendingPlan_write b chip hother st.ram
          (show st.bufReceived + chunk.length ≤ g.sectorSize by omega)
        dsimp only
        rw [List.length_append, Store.length_load, ← hpending, ← hram]
        generalize st.ram.write (bufAddr b st.rxBuf + st.bufReceived) chunk = ram
        by_cases hlt : st.bufReceived + chunk.length < req.sectorBytes g st.s
        · rw [if_pos hlt, if_pos hlt, List.nil_append]
          exact ih { st with ram := ram, bufReceived := st.bufReceived + chunk.length }
            ⟨hs, hlt, hother⟩
        · have hfull : st.bufReceived + chunk.length = req.sectorBytes g st.s := by omega
          rw [if_neg hlt, if_neg hlt, hfull, Option.bind_some]
          -- the sector before this one is done, and this one becomes the pending one
          have hadvance := follows_streamAdvance ih
            (req.numSectors g - (st.s + 1))
            { ram := ram
              s := st.s + 1
              rxBuf := !st.rxBuf
              pending := some ⟨st.rxBuf, add32 req.flashAddr (st.s * g.sectorSize),
                req.sectorBytes g st.s⟩
              totalReceived := st.totalReceived + req.sectorBytes g st.s
              bufReceived := 0 } (by dsimp only; omega) (by
                rintro q ⟨⟩
                exact ⟨(Bool.not_not _).symm, hsector⟩)
          have h := follows_processPending b g chip ram st.pending hadvance
          have hnot : sendAck ackOk ∉
              [FlashEvent.send (progressPacket (st.s + 1) (req.numSectors g))] := fun hmem =>
            sendAck_ne_progress (List.mem_singleton.mp hmem)
          have h : Follows _ (Option.map ([] ++ ·) _) := h.prepend hnot
          rw [map_nil_append] at h
          cases hok : (processPending b g chip ram st.pending).2 with
          | false =>
              rw [hok] at h
              rw [if_neg Bool.false_ne_true, outputs, List.append_nil]
              exact h
          | true =>
              rw [hok] at h
              rw [if_pos rfl]
              dsimp only
              rw [List.cons_append, List.append_assoc]
              exact h
      · rw [if_neg hdata, if_neg hdata]
        by_cases htimeout : p.cmd = 0
        · rw [if_pos htimeout, if_pos htimeout, Option.bind_none, planThen_none]
          intro hend
          rw [outputs, List.append_nil] at hend
          exact timeoutAck_ne_ackOk _ (Option.some.inj hend)
        · rw [if_neg htimeout, if_neg htimeout, List.nil_append]
          exact ih st ⟨hs, hpartly, hother⟩

/-- **`handle_flash_stream` follows its plan.** -/
lemma follows_handleFlashStream (b : Board) (chip : Chip) (ram : Store UInt8) (data : List UInt8)
    (inputs : List Packet) :
    Follows (handleFlashStream b chip ram data inputs).tail (streamPlan b chip data inputs) := by
  rw [handleFlashStream, streamPlan]
  by_cases hshort : data.length < 12
  · rw [if_pos hshort]
    cases b.geometry with
    | none => exact not_endsOk_nil
    | some g =>
        rw [Option.bind_some, if_neg fun h => absurd h.2 (by omega)]
        exact not_endsOk_nil
  rw [if_neg hshort]
  cases b.geometry with
  | none => exact not_endsOk_nil
  | some g =>
      rw [Option.bind_some]
      generalize streamReq data = req
      dsimp only
      rw [streamEvents, streamBegin]
      by_cases haccepted : streamAccepted g req = true
      · rw [if_pos haccepted]
        by_cases hbitmap : data.length < 12 + (req.numSectors g + 7) / 8
        · rw [if_pos hbitmap, if_neg fun h => absurd h.2 (by omega)]
          exact not_endsOk_nil
        · rw [if_neg hbitmap, if_pos ⟨haccepted, by omega⟩]
          have h := follows_streamAdvance (follows_outputs b chip req inputs) (req.numSectors g)
            ⟨ram, 0, false, none, 0, 0⟩ (Nat.zero_add _) fun p hp => by cases hp
          dsimp only at h ⊢
          rw [pendingPlan, planThen_some_nil] at h
          rw [List.tail_cons]
          exact h
      · rw [if_neg haccepted, if_neg fun h => haccepted h.1]
        exact not_endsOk_nil

end Stream

/-! ## Both handlers -/

lemma pagesOf_handleFlashProgram (b : Board) (m : Machine) (live : ℕ → Store UInt8) (chip : Chip)
    (data : List UInt8) :
    pagesOf (handleFlashProgram b m live chip data) =
      pagesOf (handleFlashProgram b m live chip data).tail := by
  have hsend : ∃ p es, handleFlashProgram b m live chip data = .send p :: es := by
    rw [handleFlashProgram]
    by_cases hshort : data.length < 16
    · rw [if_pos hshort]
      exact ⟨_, _, rfl⟩
    rw [if_neg hshort]
    cases b.geometry with
    | none => exact ⟨_, _, rfl⟩
    | some g =>
        dsimp only
        split_ifs
        · exact ⟨_, _, rfl⟩
        · exact ⟨_, _, rfl⟩
        · exact ⟨_, _, rfl⟩
        · exact ⟨_, _, rfl⟩
  obtain ⟨p, es, hsend⟩ := hsend
  rw [hsend, pagesOf_send, List.tail_cons]

lemma pagesOf_handleFlashStream (b : Board) (chip : Chip) (ram : Store UInt8) (data : List UInt8)
    (inputs : List Packet) :
    pagesOf (handleFlashStream b chip ram data inputs) =
      pagesOf (handleFlashStream b chip ram data inputs).tail := by
  rw [handleFlashStream]
  split
  · rfl
  · split
    · rfl
    · rw [streamEvents]
      split
      · rfl
      · exact pagesOf_send _ _

/-- **A failed page goes unreported** exactly when it is one of the pages of the plan: both handlers
end with `ACK_OK` whenever nothing else is wrong. -/
theorem page_failures_reported_iff (b : Board) (m : Machine) (live : ℕ → Store UInt8) (chip : Chip)
    (programOk : ℕ → List UInt8 → Bool) (data : List UInt8) (inputs : List Packet) :
    (FailuresReported programOk (handleFlashProgram b m live chip data) ↔
        AllProgrammed programOk (programPlan b m live chip data)) ∧
      (FailuresReported programOk (handleFlashStream b chip m.bus data inputs) ↔
        AllProgrammed programOk (streamPlan b chip data inputs)) :=
  ⟨failuresReported_iff (follows_handleFlashProgram b m live chip data)
      (pagesOf_handleFlashProgram b m live chip data) programOk,
    failuresReported_iff (follows_handleFlashStream b chip m.bus data inputs)
      (pagesOf_handleFlashStream b chip m.bus data inputs) programOk⟩

/-- A camera with the SPI NAND. -/
def nandCamera : FmcBoard where
  soc := hi3516ev300
  soc_mem := hi3516ev300_mem
  probe := ⟨0x100, fun _ => (0xC2, 0x12, 0x00), none⟩
  fmc := hi3516ev300_fmc100
  found := rfl
  lastSector := 0
  own a := 0x40FF0000 ≤ a ∧ a < 0x41800000

/-- Both handlers program the one page of their range on a NAND that reports `P_FAIL`, and end with
`ACK_OK`. -/
theorem page_failure_acknowledged :
    ¬ FailuresReported (fun _ _ => false)
        (handleFlashProgram nandCamera.toBoard (ramWithZero 0x42000000)
          (fun _ => (ramWithZero 0x42000000).bus) faultlessChip
          (programRequest (ramWithZero 0x42000000) 0x42000000 0 4)) ∧
      ¬ FailuresReported (fun _ _ => false)
        (handleFlashStream nandCamera.toBoard faultlessChip (fun _ => 0)
          (packU32 0 ++ (packU32 4 ++ (packU32 0 ++ [1]))) [⟨rspData, [0, 0, 1, 2, 3, 4]⟩]) := by
  have hprogram : programPlan nandCamera.toBoard (ramWithZero 0x42000000)
      (fun _ => (ramWithZero 0x42000000).bus) faultlessChip
      (programRequest (ramWithZero 0x42000000) 0x42000000 0 4) =
        some [(0, [0, 0xFF, 0xFF, 0xFF])] := by
    decide +kernel
  have hstream : streamPlan nandCamera.toBoard faultlessChip
      (packU32 0 ++ (packU32 4 ++ (packU32 0 ++ [1]))) [⟨rspData, [0, 0, 1, 2, 3, 4]⟩] =
        some [(0, [1, 2, 3, 4])] := by
    decide +kernel
  constructor
  · intro h
    have hall := (failuresReported_iff (follows_handleFlashProgram ..)
      (pagesOf_handleFlashProgram ..) _).mp h
    exact Bool.false_ne_true (hall _ hprogram _ List.mem_cons_self)
  · intro h
    have hall := (failuresReported_iff (follows_handleFlashStream ..)
      (pagesOf_handleFlashStream ..) _).mp h
    exact Bool.false_ne_true (hall _ hstream _ List.mem_cons_self)

end Defib
