import Defib.Properties.EmmcReading

/-!
# What the eMMC driver does to the bus

Nothing is assumed of the controller here: its registers may answer anything, from one poll to the
next.  `emmc_driver_safe` says what holds of every run all the same: the driver stays within its
registers, every command that it sends is one that reads, it takes no more words from the FIFO than
it was just told are there, and it stores at `dst` the words it took and nothing else, a block at
most, and a whole block when it reports success.
-/

namespace Defib

open Himci

/-! ## What it may access -/

/-- The registers of the driver: those of the controller, the pads and one of the clock generator. -/
def driverRegs : List ℕ :=
  [dwCtrl, dwClkdiv, dwClksrc, dwClkena, dwTmout, dwCtype, dwBlksiz, dwBytcnt, dwIntmask, dwCmdarg,
    dwCmd, dwResp 0, dwResp 1, dwResp 2, dwResp 3, dwRintsts, dwStatus, dwFifoth, dwTbbcnt,
    dwCardRstn, dwFifo, crgReg 0x148] ++ (List.range 7).map iocfg0Reg

/-- A word of `DW_CMD` with which nothing is written to the card: an update of the clock, or a command
that identifies, selects or reads, in the direction of the host. -/
def ReadsOnly (cmd : BitVec 32) : Prop :=
  cmd &&& cmdUpdateClkRegs ≠ 0 ∨
    cmd &&& bit 10 = 0 ∧ (cmd &&& 0x3F#32).toNat ∈ [0, 1, 2, 3, 7, 9, 17]

instance (cmd : BitVec 32) : Decidable (ReadsOnly cmd) := inferInstanceAs (Decidable (_ ∨ _))

/-- An access that the driver is meant to make. -/
def Permitted : Access → Prop
  | .load addr _ => addr ∈ driverRegs
  | .store addr v => addr ∈ driverRegs ∧ (addr = dwCmd → ReadsOnly v)

/-- A load of a register other than the FIFO. -/
def OffFifo : Access → Prop
  | .load addr _ => addr ≠ dwFifo
  | .store _ _ => True

/-- Both. -/
def Ordinary (x : Access) : Prop := Permitted x ∧ OffFifo x

lemma ordinary_of_load {addr : ℕ} {v : BitVec 32} (haddr : addr ∈ driverRegs)
    (hfifo : addr ≠ dwFifo) : Ordinary (.load addr v) := ⟨haddr, hfifo⟩

lemma ordinary_load {addr : ℕ} (haddr : addr ∈ driverRegs) (hfifo : addr ≠ dwFifo) :
    Mmio.Always Ordinary (Mmio.load addr) := .load fun _ => ordinary_of_load haddr hfifo

lemma ordinary_store {addr : ℕ} {v : BitVec 32} (haddr : addr ∈ driverRegs)
    (hcmd : addr = dwCmd → ReadsOnly v) : Mmio.Always Ordinary (Mmio.store addr v) :=
  .store ⟨⟨haddr, hcmd⟩, trivial⟩

lemma ordinary_store_off {addr : ℕ} {v : BitVec 32} (haddr : addr ∈ driverRegs)
    (hne : addr ≠ dwCmd) : Mmio.Always Ordinary (Mmio.store addr v) :=
  ordinary_store haddr fun h => absurd h hne

/-! ## Every access of every function -/

lemma ordinary_spinWhile {addr : ℕ} (haddr : addr ∈ driverRegs) (hfifo : addr ≠ dwFifo)
    (mask : BitVec 32) (n : ℕ) : Mmio.Always Ordinary (spinWhile addr mask n) := by
  induction n with
  | zero => exact (ordinary_load haddr hfifo).bind fun _ => .pure _
  | succ n ih => exact (ordinary_load haddr hfifo).bind fun _ => .ite ih (.pure _)

lemma ordinary_updateClkTries (n : ℕ) : Mmio.Always Ordinary (updateClkTries n) := by
  induction n with
  | zero => exact .pure _
  | succ n ih =>
      exact (ordinary_load (by decide) (by decide)).bind fun _ =>
        .ite (.pure _) ((ordinary_load (by decide) (by decide)).bind fun _ => .ite (.pure _) ih)

lemma ordinary_updateClkRetries (n : ℕ) : Mmio.Always Ordinary (updateClkRetries n) := by
  have hword : ReadsOnly (cmdStart ||| cmdUseHoldReg ||| cmdUpdateClkRegs ||| cmdWaitPrvdata) := by
    decide
  induction n with
  | zero => exact .pure _
  | succ n ih =>
      exact (ordinary_store (by decide) fun _ => hword).bind fun _ =>
        (ordinary_updateClkTries _).bind fun _ => .ite (.pure _) ih

lemma ordinary_awaitDone (n : ℕ) : Mmio.Always Ordinary (awaitDone n) := by
  induction n with
  | zero => exact .pure _
  | succ n ih =>
      exact (ordinary_load (by decide) (by decide)).bind fun _ => .ite (.pure _) (.ite (.pure _) ih)

lemma ordinary_emmcSendCmd {cmdIdx : ℕ} {arg flags : BitVec 32}
    (hcmd : ReadsOnly (commandWord cmdIdx flags)) :
    Mmio.Always Ordinary (emmcSendCmd cmdIdx arg flags) :=
  (ordinary_store_off (by decide) (by decide)).bind fun _ =>
    (ordinary_store_off (by decide) (by decide)).bind fun _ =>
      (ordinary_store (by decide) fun _ => hcmd).bind fun _ => ordinary_awaitDone _

lemma ordinary_emmcControllerReset : Mmio.Always Ordinary emmcControllerReset := by
  have hstore : ∀ {addr : ℕ} {v : BitVec 32}, addr ∈ driverRegs → addr ≠ dwCmd →
      Mmio.Always Ordinary (Mmio.store addr v) := fun haddr hne => ordinary_store_off haddr hne
  exact (hstore (by decide) (by decide)).bind fun _ =>
    (ordinary_spinWhile (by decide) (by decide) _ _).bind fun _ =>
    (ordinary_load (by decide) (by decide)).bind fun _ => .ite (.pure _) <|
    (hstore (by decide) (by decide)).bind fun _ => (hstore (by decide) (by decide)).bind fun _ =>
    (hstore (by decide) (by decide)).bind fun _ => (hstore (by decide) (by decide)).bind fun _ =>
    (hstore (by decide) (by decide)).bind fun _ => (hstore (by decide) (by decide)).bind fun _ =>
    (hstore (by decide) (by decide)).bind fun _ => (hstore (by decide) (by decide)).bind fun _ =>
    (hstore (by decide) (by decide)).bind fun _ => (hstore (by decide) (by decide)).bind fun _ =>
    .pure _

lemma ordinary_emmcSetupClock (divider : BitVec 32) :
    Mmio.Always Ordinary (emmcSetupClock divider) :=
  (ordinary_store_off (by decide) (by decide)).bind fun _ =>
    (ordinary_updateClkRetries _).bind fun _ => .ite (.pure _) <|
    (ordinary_store_off (by decide) (by decide)).bind fun _ =>
    (ordinary_store_off (by decide) (by decide)).bind fun _ =>
    (ordinary_updateClkRetries _).bind fun _ => .ite (.pure _) <|
    (ordinary_store_off (by decide) (by decide)).bind fun _ =>
    (ordinary_updateClkRetries _).bind fun _ => .ite (.pure _) (.pure _)

lemma ordinary_awaitIdle (n : ℕ) : Mmio.Always Ordinary (goIdle.awaitIdle n) := by
  induction n with
  | zero => exact .pure _
  | succ n ih =>
      exact (ordinary_load (by decide) (by decide)).bind fun _ => .ite ih (.pure _)

lemma ordinary_goIdle : Mmio.Always Ordinary goIdle :=
  (ordinary_store_off (by decide) (by decide)).bind fun _ =>
    (ordinary_store_off (by decide) (by decide)).bind fun _ =>
    (ordinary_store (by decide) fun _ => by decide).bind fun _ =>
    (ordinary_awaitIdle _).bind fun _ =>
    (ordinary_load (by decide) (by decide)).bind fun _ => .pure _

lemma ordinary_sendOpCond (ocr : BitVec 32) (n : ℕ) :
    Mmio.Always Ordinary (sendOpCond ocr n) := by
  induction n generalizing ocr with
  | zero => exact .pure _
  | succ n ih =>
      exact (ordinary_emmcSendCmd (by decide)).bind fun _ => .ite (.pure _) <|
        (ordinary_load (by decide) (by decide)).bind fun _ => .ite (.pure _) (ih _)

lemma ordinary_selectCard (g : Globals) : Mmio.Always Ordinary (selectCard g) :=
  (ordinary_emmcSendCmd (by decide)).bind fun _ => .ite (.pure _) (.pure _)

lemma ordinary_addressCard (hc : Bool) (g : Globals) : Mmio.Always Ordinary (addressCard hc g) :=
  (ordinary_emmcSendCmd (by decide)).bind fun _ => .ite (.pure _) <|
    (ordinary_emmcSendCmd (by decide)).bind fun _ => .ite (.pure _) <|
    .ite (ordinary_selectCard _) <| (ordinary_load (by decide) (by decide)).bind fun _ =>
    (ordinary_load (by decide) (by decide)).bind fun _ => ordinary_selectCard _

lemma ordinary_emmcCardIdentify (g : Globals) : Mmio.Always Ordinary (emmcCardIdentify g) := by
  refine ordinary_goIdle.bind fun _ => .ite (.pure _) <|
    (ordinary_sendOpCond _ _).bind fun ocr => ?_
  cases ocr with
  | none => exact .pure _
  | some ocr =>
      exact .ite (.pure _) <| (ordinary_emmcSendCmd (by decide)).bind fun _ => .ite (.pure _) <|
        (ordinary_load (by decide) (by decide)).bind fun _ =>
        (ordinary_load (by decide) (by decide)).bind fun _ =>
        (ordinary_load (by decide) (by decide)).bind fun _ =>
        (ordinary_load (by decide) (by decide)).bind fun _ => ordinary_addressCard _ _

lemma ordinary_emmcPinmuxSetup : Mmio.Always Ordinary emmcPinmuxSetup := by
  have hstore : ∀ idx < 7, ∀ v, Mmio.Always Ordinary (Mmio.store (iocfg0Reg idx) v) := by
    intro idx hidx v
    have hregs : ∀ idx < 7, iocfg0Reg idx ∈ driverRegs ∧ iocfg0Reg idx ≠ dwCmd := by decide
    exact ordinary_store_off (hregs idx hidx).1 (hregs idx hidx).2
  exact (hstore 0 (by decide) _).bind fun _ => (hstore 1 (by decide) _).bind fun _ =>
    (hstore 2 (by decide) _).bind fun _ => (hstore 3 (by decide) _).bind fun _ =>
    (hstore 4 (by decide) _).bind fun _ => (hstore 5 (by decide) _).bind fun _ =>
    (hstore 6 (by decide) _).bind fun _ => .pure _

/-- `emmc_init` makes ordinary accesses only. -/
lemma ordinary_emmcInit (g : Globals) : Mmio.Always Ordinary (emmcInit g) := by
  have hcrg : Mmio.Always Ordinary emmcCrgSetup :=
    (ordinary_load (by decide) (by decide)).bind fun _ =>
      (ordinary_store_off (by decide) (by decide)).bind fun _ =>
      ordinary_store_off (by decide) (by decide)
  exact ordinary_emmcPinmuxSetup.bind fun _ => hcrg.bind fun _ =>
    ordinary_emmcControllerReset.bind fun _ => .ite (.pure _) <|
    (ordinary_emmcSetupClock _).bind fun _ => .ite (.pure _) <|
    (ordinary_store_off (by decide) (by decide)).bind fun _ =>
    (ordinary_store_off (by decide) (by decide)).bind fun _ => ordinary_emmcCardIdentify g

lemma ordinary_awaitDto (n : ℕ) : Mmio.Always Ordinary (awaitDto n) := by
  induction n with
  | zero => exact .pure _
  | succ n ih =>
      exact (ordinary_load (by decide) (by decide)).bind fun _ => .ite (.pure _) (.ite (.pure _) ih)

/-! ## The FIFO -/

/-- The word of a load of the FIFO. -/
def fifoLoad : Access → Option (BitVec 32)
  | .load addr v => if addr = dwFifo then some v else none
  | .store _ _ => none

/-- The words that were taken from the FIFO. -/
def fifoLoads (t : List Access) : List (BitVec 32) := t.filterMap fifoLoad

/-- What an access does to the count of words that are known to be there; `none` is a load of the FIFO
beyond it. -/
def creditStep : Option ℕ → Access → Option ℕ
  | none, _ => none
  | some n, .load addr v =>
      if addr = dwStatus then some (statusFifoCount v)
      else if addr = dwFifo then (if n = 0 then none else some (n - 1))
      else some n
  | some n, .store _ _ => some n

/-- The count after some accesses. -/
def credit (t : List Access) : Option ℕ := t.foldl creditStep (some 0)

/-- No load of the FIFO goes beyond the count that `DW_STATUS` gave last. -/
def Covered (t : List Access) : Prop := credit t ≠ none

lemma credit_concat (t : List Access) (x : Access) :
    credit (t ++ [x]) = creditStep (credit t) x := by
  rw [credit, List.foldl_append, List.foldl_cons, List.foldl_nil, credit]

lemma fifoLoads_concat (t : List Access) (x : Access) :
    fifoLoads (t ++ [x]) = fifoLoads t ++ (fifoLoad x).toList := by
  rw [fifoLoads, List.filterMap_append, fifoLoads]
  cases hx : fifoLoad x <;> simp [hx]

/-- A history that goes on: with permitted accesses, covered, and some words taken. -/
structure Extends (t t' : List Access) (ws : List (BitVec 32)) : Prop where
  permitted : (∀ x ∈ t, Permitted x) → ∀ x ∈ t', Permitted x
  covered : Covered t → Covered t'
  words : fifoLoads t' = fifoLoads t ++ ws

namespace Extends

variable {t t' t'' : List Access} {ws ws' : List (BitVec 32)}

lemma refl (t : List Access) : Extends t t [] :=
  ⟨id, id, (List.append_nil _).symm⟩

lemma trans (h : Extends t t' ws) (h' : Extends t' t'' ws') : Extends t t'' (ws ++ ws') where
  permitted := h'.permitted ∘ h.permitted
  covered := h'.covered ∘ h.covered
  words := by rw [h'.words, h.words, List.append_assoc]

/-- An ordinary access. -/
lemma concat {x : Access} (hx : Ordinary x) : Extends t (t ++ [x]) [] where
  permitted h := List.forall_mem_append.mpr ⟨h, List.forall_mem_singleton.mpr hx.1⟩
  covered h := by
    obtain ⟨n, hn⟩ := Option.ne_none_iff_exists'.mp h
    rw [Covered, credit_concat, hn]
    cases x with
    | store addr v => exact Option.some_ne_none n
    | load addr v =>
        have hfifo : addr ≠ dwFifo := hx.2
        rw [creditStep, if_neg hfifo]
        split_ifs
        · exact Option.some_ne_none _
        · exact Option.some_ne_none n
  words := by
    rw [fifoLoads_concat]
    cases x with
    | store addr v => rfl
    | load addr v =>
        have hfifo : addr ≠ dwFifo := hx.2
        rw [fifoLoad, if_neg hfifo]
        rfl

/-- A word of the FIFO, of some that are there. -/
lemma concat_fifo {c : ℕ} (hc : credit t = some c) (hpos : 0 < c) (w : BitVec 32) :
    credit (t ++ [.load dwFifo w]) = some (c - 1) ∧ Extends t (t ++ [.load dwFifo w]) [w] := by
  have hstatus : dwFifo ≠ dwStatus := by decide
  have hregs : dwFifo ∈ driverRegs := by decide
  have hcredit : credit (t ++ [.load dwFifo w]) = some (c - 1) := by
    rw [credit_concat, hc, creditStep, if_neg hstatus, if_pos rfl, if_neg hpos.ne']
  refine ⟨hcredit, fun h => ?_, fun _ => ?_, fifoLoads_concat t _⟩
  · exact List.forall_mem_append.mpr ⟨h, List.forall_mem_singleton.mpr hregs⟩
  · rw [Covered, hcredit]
    exact Option.some_ne_none _

end Extends

/-- Ordinary accesses take nothing from the FIFO. -/
lemma wp_of_ordinary {α : Type} {p : Mmio α} (hp : Mmio.Always Ordinary p) (t : List Access) :
    Mmio.wp recorder p t fun _ t' => Extends t t' [] := by
  induction p generalizing t with
  | ret a => exact .refl t
  | read addr k ih =>
      rintro v t' rfl
      exact (ih v (hp v).2 _).mono fun _ _ h => (Extends.concat (hp v).1).trans h
  | write addr v k ih =>
      exact (ih hp.2 _).mono fun _ _ h => (Extends.concat hp.1).trans h

/-- The rule for a sequence that begins with ordinary accesses. -/
lemma wp_ordinary_bind {α β : Type} {p : Mmio β} {f : β → Mmio α} (hp : Mmio.Always Ordinary p)
    {t : List Access} (ht : Covered t) {Q : α → List (BitVec 32) → Prop}
    (hf : ∀ b t', Covered t' →
      Mmio.wp recorder (f b) t' fun a t'' => ∃ ws, Extends t' t'' ws ∧ Q a ws) :
    Mmio.wp recorder (p >>= f) t fun a t'' => ∃ ws, Extends t t'' ws ∧ Q a ws := by
  rw [Mmio.wp_bind]
  refine (wp_of_ordinary hp t).mono fun b t' h => (hf b t' (h.covered ht)).mono ?_
  rintro a t'' ⟨ws, hext, hQ⟩
  exact ⟨ws, h.trans hext, hQ⟩

/-- As many words as are there. -/
lemma wp_fifoRead_covered (n : ℕ) {c : ℕ} {t : List Access} (hc : credit t = some c) (hn : n ≤ c) :
    Mmio.wp recorder (fifoRead n) t fun bytes t' =>
      ∃ ws, Extends t t' ws ∧ bytes = ws.flatMap leBytes ∧ ws.length = n := by
  induction n generalizing c t with
  | zero => exact ⟨[], .refl t, rfl, rfl⟩
  | succ n ih =>
      rw [fifoRead, Mmio.wp_bind, Mmio.wp_load]
      rintro w t₁ rfl
      obtain ⟨hcredit, hstep⟩ := Extends.concat_fifo hc (by omega) w
      rw [Mmio.wp_bind]
      refine (ih hcredit (by omega)).mono ?_
      rintro bytes t' ⟨ws, hext, rfl, rfl⟩
      exact ⟨w :: ws, hstep.trans hext, rfl, rfl⟩

/-- **Draining** takes what it is told is there, and stores it. -/
lemma wp_drain_covered (n wordsLeft : ℕ) {t : List Access} (ht : Covered t) :
    Mmio.wp recorder (drain n wordsLeft) t fun r t' =>
      ∃ ws, Extends t t' ws ∧ r.2.2 = ws.flatMap leBytes ∧ ws.length + r.2.1 = wordsLeft := by
  induction n generalizing wordsLeft t with
  | zero => exact ⟨[], .refl t, rfl, Nat.zero_add _⟩
  | succ n ih =>
      rw [drain]
      refine Mmio.wp_ite (fun hzero => ⟨[], .refl t, rfl, hzero.symm⟩) fun hne => ?_
      rw [Mmio.wp_bind, Mmio.wp_load]
      rintro status t₁ rfl
      have hstatus : Ordinary (.load dwStatus status) := ordinary_of_load (by decide) (by decide)
      have hext₁ : Extends t (t ++ [.load dwStatus status]) [] := .concat hstatus
      have ht₁ := hext₁.covered ht
      refine Mmio.wp_ite (fun _ => ?_) fun havail => ?_
      · rw [Mmio.wp_bind, Mmio.wp_load]
        rintro stat t₂ rfl
        have hrintsts : Ordinary (.load dwRintsts stat) := ordinary_of_load (by decide) (by decide)
        have hext₂ := hext₁.trans (.concat hrintsts)
        refine Mmio.wp_ite (fun _ => ⟨[], hext₂, rfl, Nat.zero_add _⟩) fun _ => ?_
        refine (ih wordsLeft (hext₂.covered ht)).mono ?_
        rintro r t' ⟨ws, hext, hbytes, hleft⟩
        exact ⟨ws, hext₂.trans hext, hbytes, hleft⟩
      · have hcredit : credit (t ++ [.load dwStatus status]) = some (statusFifoCount status) := by
          obtain ⟨c, hc⟩ := Option.ne_none_iff_exists'.mp ht
          rw [credit_concat, hc, creditStep, if_pos rfl]
        rw [Mmio.wp_bind]
        refine (wp_fifoRead_covered _ hcredit (Nat.min_le_left _ _)).mono ?_
        rintro bytes t₂ ⟨ws, hext₂, rfl, hlength⟩
        rw [Mmio.wp_bind]
        refine (ih _ (hext₂.covered ht₁)).mono ?_
        rintro r t' ⟨ws', hext, hbytes, hleft⟩
        refine ⟨ws ++ ws', hext₁.trans (hext₂.trans hext), ?_, ?_⟩
        · rw [List.flatMap_append, ← hbytes]
        · have hle := Nat.min_le_right (statusFifoCount status) wordsLeft
          rw [List.length_append, hlength]
          show _ + r.2.1 = wordsLeft
          omega

/-- What a call of `emmc_read_block` stores, given the words that it took. -/
def Stores (r : ℤ × List UInt8) (ws : List (BitVec 32)) : Prop :=
  r.2 = ws.flatMap leBytes ∧ ws.length ≤ 128 ∧ (r.1 = 0 → ws.length = 128)

lemma wp_transferBlock_covered (blockNo : BitVec 32) {t : List Access} (ht : Covered t) :
    Mmio.wp recorder (transferBlock blockNo) t fun r t' => ∃ ws, Extends t t' ws ∧ Stores r ws := by
  have hfailed : ∀ code : ℤ, code ≠ 0 → ∀ ws : List (BitVec 32), ws.length ≤ 128 →
      Stores (code, ws.flatMap leBytes) ws := fun code hcode ws hws =>
    ⟨rfl, hws, fun hzero => absurd hzero hcode⟩
  have hcmd : ReadsOnly (commandWord 17 (cmdRespExpected ||| cmdDataExpected)) := by decide
  rw [transferBlock, Mmio.wp_bind]
  refine (wp_of_ordinary (ordinary_emmcSendCmd hcmd) t).mono fun r t₁ hext₁ => ?_
  refine Mmio.wp_ite (fun _ => ⟨[], hext₁, hfailed _ (by decide) [] (by decide)⟩) fun _ => ?_
  rw [Mmio.wp_bind]
  refine (wp_drain_covered _ 128 (hext₁.covered ht)).mono ?_
  rintro drained t₂ ⟨ws, hext₂, hbytes, hlength⟩
  have hext : Extends t t₂ ws := hext₁.trans hext₂
  have hle : ws.length ≤ 128 := by omega
  rw [hbytes]
  refine Mmio.wp_ite (fun _ => ⟨ws, hext, hfailed _ (by decide) ws hle⟩) fun _ => ?_
  refine Mmio.wp_ite (fun _ => ⟨ws, hext, hfailed _ (by decide) ws hle⟩) fun hleft => ?_
  rw [Mmio.wp_bind]
  refine (wp_of_ordinary (ordinary_awaitDto _) t₂).mono fun code t₃ hext₃ => ?_
  have hall : Extends t t₃ (ws ++ []) := hext.trans hext₃
  rw [List.append_nil] at hall
  exact ⟨ws, hall, rfl, hle, fun _ => by omega⟩

lemma wp_emmcReadBlock_covered (g : Globals) (blockNo : BitVec 32) {t : List Access}
    (ht : Covered t) :
    Mmio.wp recorder (Himci.emmcReadBlock g blockNo) t fun r t' =>
      ∃ ws, Extends t t' ws ∧ Stores r ws := by
  have hnothing : ∀ code : ℤ, code ≠ 0 → ∀ t, ∃ ws, Extends t t ws ∧ Stores (code, []) ws :=
    fun code hcode t => ⟨[], .refl t, rfl, by decide, fun hzero => absurd hzero hcode⟩
  rw [Himci.emmcReadBlock]
  refine Mmio.wp_ite (fun _ => hnothing _ (by decide) t) fun _ => ?_
  refine wp_ordinary_bind (ordinary_spinWhile (by decide) (by decide) _ _) ht fun _ t₁ ht₁ => ?_
  refine wp_ordinary_bind (ordinary_load (by decide) (by decide)) ht₁ fun status t₂ ht₂ => ?_
  refine Mmio.wp_ite (fun _ => hnothing _ (by decide) t₂) fun _ => ?_
  refine wp_ordinary_bind (ordinary_load (by decide) (by decide)) ht₂ fun ctrl t₃ ht₃ => ?_
  refine wp_ordinary_bind (ordinary_store_off (by decide) (by decide)) ht₃ fun _ t₄ ht₄ => ?_
  refine wp_ordinary_bind (ordinary_spinWhile (by decide) (by decide) _ _) ht₄ fun _ t₅ ht₅ => ?_
  refine wp_ordinary_bind (ordinary_store_off (by decide) (by decide)) ht₅ fun _ t₆ ht₆ => ?_
  refine wp_ordinary_bind (ordinary_store_off (by decide) (by decide)) ht₆ fun _ t₇ ht₇ => ?_
  refine wp_ordinary_bind (ordinary_store_off (by decide) (by decide)) ht₇ fun _ t₈ ht₈ => ?_
  exact wp_transferBlock_covered blockNo ht₈

/-- Call by call. -/
lemma wp_mapM_emmcReadBlock_covered (g : Globals) (blocks : List (BitVec 32)) {t : List Access}
    (ht : Covered t) :
    Mmio.wp recorder (blocks.mapM (Himci.emmcReadBlock g)) t fun answers t' =>
      ∃ wss, Extends t t' wss.flatten ∧ List.Forall₂ Stores answers wss := by
  induction blocks generalizing t with
  | nil =>
      rw [List.mapM_nil]
      exact ⟨[], .refl t, .nil⟩
  | cons blockNo blocks ih =>
      rw [List.mapM_cons, Mmio.wp_bind]
      refine (wp_emmcReadBlock_covered g blockNo ht).mono ?_
      rintro r t₁ ⟨ws, hext₁, hstores⟩
      rw [Mmio.wp_bind]
      refine (ih (hext₁.covered ht)).mono ?_
      rintro answers t' ⟨wss, hext, hall⟩
      refine ⟨ws :: wss, ?_, .cons hstores hall⟩
      rw [List.flatten_cons]
      exact hext₁.trans hext

/-- **The driver reads, and only reads**, whatever its registers answer.  In every run of `emmc_init`
and any number of calls of `emmc_read_block` it stays within its registers, every word that it writes
to `DW_CMD` has the card read only, no load of the FIFO goes beyond the count that `DW_STATUS` gave
last, and the words of these loads are what the calls store, each its own: no call more than a block,
and one that returns `0` a whole block. -/
theorem emmc_driver_safe {σ : Type} (d : Bus σ) (blocks : List (BitVec 32)) {s s' : σ}
    {t : List Access} {r : ℤ × Globals × List (ℤ × List UInt8)}
    (hrun : Mmio.Runs d (emmcSession blocks) s t r s') :
    (∀ x ∈ t, Permitted x) ∧ Covered t ∧
      ∃ wss, fifoLoads t = wss.flatten ∧ List.Forall₂ Stores r.2.2 wss := by
  have hwp : Mmio.wp recorder (emmcSession blocks) [] fun r t' =>
      ∃ wss, Extends [] t' wss.flatten ∧ List.Forall₂ Stores r.2.2 wss := by
    rw [emmcSession, Mmio.wp_bind]
    refine (wp_of_ordinary (ordinary_emmcInit _) []).mono fun g t₁ hext₁ => ?_
    rw [Mmio.wp_bind]
    refine (wp_mapM_emmcReadBlock_covered _ blocks (hext₁.covered (Option.some_ne_none 0))).mono ?_
    rintro answers t' ⟨wss, hext, hall⟩
    exact ⟨wss, hext₁.trans hext, hall⟩
  obtain ⟨wss, hext, hall⟩ := Mmio.wp_iff_runs.mp hwp _ _ _ (hrun.recorded [])
  rw [List.nil_append] at hext
  exact ⟨hext.permitted (List.forall_mem_nil _), hext.covered (Option.some_ne_none 0), wss, hext.words,
    hall⟩

/-- Three blocks of a card that reports an error for the last one. -/
theorem emmc_driver_safe_sampleChip :
    ∃ t r h', Mmio.Runs sampleChip.host (emmcSession [0, 1, 7]) sampleHost t r h' ∧
      (∀ x ∈ t, Permitted x) ∧ Covered t ∧
      ∃ wss, fifoLoads t = wss.flatten ∧ List.Forall₂ Stores r.2.2 wss := by
  have hexists : ∃ t r h', Mmio.Runs sampleChip.host (emmcSession [0, 1, 7]) sampleHost t r h' :=
    MmcChip.exists_runs _ ⟨le_rfl, by decide⟩
  obtain ⟨t, r, h', hrun⟩ := hexists
  exact ⟨t, r, h', hrun, emmc_driver_safe sampleChip.host [0, 1, 7] hrun⟩

end Defib
