import Defib.Rockusb.Device

/-!
# Images on a Rockchip board

Whatever the usbplug does with a command, the sectors that `write_image` changes are a prefix of the
image, and they are the whole image if it returns: the one thing that is asked of the usbplug is
that it does not report success for a write that it did not make (`HonestSession`).  Without faults
an image that was written is read back.

The step lemmas are about one command (`command_write`, `command_write_faithful`,
`command_read_faithful`), and the run lemmas follow by induction over the commands of a range.
-/

namespace Defib

namespace Rockusb

/-- A command that moves between 1 and 512 sectors. -/
def Cbw.Sized (c : Cbw) : Prop :=
  1 ≤ c.count ∧ c.count ≤ maxSectorsPerTransfer ∧ c.transferLength = c.count * sectorSize

/-- The commands that a usbplug has got since are all sized. -/
def SizedSince (d d' : Usbplug) : Prop := ∃ cs, d'.log = d.log ++ cs ∧ ∀ c ∈ cs, c.Sized

lemma SizedSince.refl (d : Usbplug) : SizedSince d d := by
  refine ⟨[], (List.append_nil _).symm, fun c hc => ?_⟩
  cases hc

lemma SizedSince.trans {d d' d'' : Usbplug} (h : SizedSince d d') (h' : SizedSince d' d'') :
    SizedSince d d'' := by
  obtain ⟨cs, hlog, hcs⟩ := h
  obtain ⟨cs', hlog', hcs'⟩ := h'
  refine ⟨cs ++ cs', by rw [hlog', hlog, List.append_assoc], fun c hc => ?_⟩
  rcases List.mem_append.mp hc with hc | hc
  · exact hcs c hc
  · exact hcs' c hc

/-! ## One command -/

/-- The wrapper of a block command, as the device sees it. -/
def blockCbw (tag : ℕ) (op : Opcode) (dirIn : Bool) (address count : ℕ) : Cbw where
  tag := tag % 2 ^ 32
  transferLength := count * sectorSize
  dirIn := dirIn
  cdbLength := op.cdbLength
  code := op.code
  subcode := 0
  address := address
  count := count

/-- The size of a command of a range, inside the range of the addresses. -/
structure BlockRange (address count : ℕ) : Prop where
  pos : 0 < count
  le : count ≤ maxSectorsPerTransfer
  address_lt : address < 2 ^ 32

section Command

variable {u : Session} {op : Opcode} {address count : ℕ} {dataOut : List UInt8} {readLength : ℕ}

lemma BlockRange.sized (h : BlockRange address count) (tag : ℕ) (op : Opcode) (dirIn : Bool) :
    (blockCbw tag op dirIn address count).Sized := ⟨h.pos, h.le, rfl⟩

/-- **A block command**, as the device and the host go through it. -/
lemma command_eq (h : BlockRange address count) (d : Usbplug)
    (hlength : (if readLength > 0 then readLength else dataOut.length) = count * sectorSize) :
    u.command op 0 address count dataOut readLength d =
      let cbw := blockCbw (u.tags d.log.length) op (decide (readLength > 0)) address count
      let a := u.answers d.log.length cbw
      match writeBulk "command wrapper" op a.wrapperTaken cbwLength with
      | .error e => (.error e, d)
      | .ok _ =>
          (match dataPhase u.maxPacketSize op a dataOut readLength (d.sectors cbw) with
            | .error e => .error e
            | .ok payload =>
                statusPhase op a (u.tags d.log.length) (count * sectorSize) readLength payload,
            d.after cbw a dataOut) := by
  have hpos := h.pos
  have hle : count ≤ 512 := h.le
  have hmul : count * sectorSize ≠ 0 := Nat.mul_ne_zero hpos.ne' (by decide)
  have hdeclared : declaredLength op count (count * sectorSize) = count * sectorSize :=
    if_neg fun hzero => hmul hzero.1
  have hfits : count * sectorSize < 2 ^ 32 := by
    rw [sectorSize]
    omega
  have hbuild : ∃ bytes, buildCbw (u.tags d.log.length) op 0 address count (count * sectorSize)
      (decide (readLength > 0)) = .ok bytes :=
    ⟨_, if_pos ⟨by decide, h.address_lt, by omega, hdeclared.symm ▸ hfits⟩⟩
  obtain ⟨bytes, hbytes⟩ := hbuild
  obtain ⟨hdecode, hlen⟩ := decode_buildCbw hbytes
  rw [hdeclared] at hdecode
  rw [Session.command]
  simp only [decide_eq_true_eq, hlength, hbytes, hdecode, hlen]
  rfl

lemma parseCsw_mod (csw : List UInt8) (tag : ℕ) :
    parseCsw csw (tag % 2 ^ 32) = parseCsw csw tag := by
  rw [parseCsw, parseCsw, Nat.mod_mod]

/-- A status phase that goes well has seen a status wrapper that reports success. -/
lemma exists_csw_of_statusPhase {a : Answer} {tag length : ℕ} {payload bytes : List UInt8}
    (hop : op.residueIsMeaningful = true)
    (h : statusPhase op a tag length readLength payload = .ok bytes) :
    (∃ csw, a.status = some csw ∧ parseCsw csw tag = .ok (0, 0)) ∧ bytes = payload := by
  rw [statusPhase] at h
  cases hstatus : a.status with
  | none =>
      rw [hstatus] at h
      cases h
  | some csw =>
      rw [hstatus] at h
      dsimp only at h
      cases hparse : parseCsw csw tag with
      | error e =>
          rw [hparse] at h
          cases h
      | ok r =>
          obtain ⟨residue, status⟩ := r
          rw [hparse] at h
          dsimp only at h
          by_cases hfailed : status ≠ 0
          · rw [if_pos hfailed] at h
            cases h
          rw [if_neg hfailed] at h
          by_cases hmoved : residue ≠ 0 ∧ op.residueIsMeaningful = true
          · rw [if_pos hmoved] at h
            cases h
          rw [if_neg hmoved] at h
          split at h
          · cases h
          · obtain rfl := Except.ok.inj h
            obtain rfl : residue = 0 := by
              by_contra hne
              exact hmoved ⟨hne, hop⟩
            obtain rfl := not_not.mp hfailed
            exact ⟨⟨csw, rfl, hparse⟩, rfl⟩

lemma writeBulk_ok {what : String} {taken : Option ℕ} {length : ℕ}
    (h : writeBulk what op taken length = .ok ()) : taken = some length := by
  cases taken with
  | none => cases h
  | some written =>
      rw [writeBulk] at h
      by_cases hne : written ≠ length
      · rw [if_pos hne] at h
        cases h
      · rw [not_not.mp hne]

/-- A data phase of a write that goes well has handed over the payload. -/
lemma payloadTaken_of_dataPhase {mps : ℕ} {a : Answer} {sectors bytes : List UInt8}
    (hne : dataOut ≠ []) (h : dataPhase mps op a dataOut 0 sectors = .ok bytes) :
    a.payloadTaken = some dataOut.length := by
  rw [dataPhase, if_neg (Nat.lt_irrefl 0), if_neg hne] at h
  cases htaken : writeBulk "payload" op a.payloadTaken dataOut.length with
  | error e =>
      rw [htaken] at h
      cases h
  | ok _ => exact writeBulk_ok htaken

end Command

lemma write_nil (m : Store UInt8) (a : ℕ) : m.write a [] = m := by
  funext i
  rw [Store.write]
  split
  · rfl
  · rfl

/-- **One write.**  It stores a prefix of its sectors, and all of them if it returns. -/
lemma command_write (u : HonestSession) {address count : ℕ} {chunk : List UInt8}
    (h : BlockRange address count) (hchunk : chunk.length = count * sectorSize) (d : Usbplug) :
    (∃ k ≤ count,
      (u.command .writeLba 0 address count chunk 0 d).2.flash =
        d.flash.write (address * sectorSize) (chunk.take (k * sectorSize)) ∧
      ((u.command .writeLba 0 address count chunk 0 d).1.isOk = true → k = count)) ∧
      SizedSince d (u.command .writeLba 0 address count chunk 0 d).2 := by
  rw [command_eq h d (by rw [if_neg (Nat.lt_irrefl 0), hchunk])]
  dsimp only
  generalize hcbw : blockCbw (u.tags d.log.length) .writeLba (decide (0 > 0)) address count = cbw
  have hsized : cbw.Sized := hcbw ▸ h.sized _ _ _
  have hhonest := u.honest d.log.length cbw
  generalize u.answers d.log.length cbw = a at hhonest
  cases hwrapper : writeBulk "command wrapper" .writeLba a.wrapperTaken cbwLength with
  | error e =>
      refine ⟨⟨0, Nat.zero_le _, ?_, fun hok => ?_⟩, .refl d⟩
      · rw [Nat.zero_mul, List.take_zero, write_nil]
      · cases hok
  | ok _ =>
      have hafter : (d.after cbw a chunk).flash =
          d.flash.write (address * sectorSize) (chunk.take (min a.stored count * sectorSize)) := by
        subst hcbw
        exact if_pos ⟨rfl, rfl, rfl⟩
      refine ⟨⟨min a.stored count, Nat.min_le_right _ _, hafter, fun hok => ?_⟩,
        ⟨[cbw], rfl, fun c hc => List.mem_singleton.mp hc ▸ hsized⟩⟩
      have hne : chunk ≠ [] := by
        rintro rfl
        exact absurd hchunk (Nat.mul_ne_zero h.pos.ne' (by decide)).symm
      dsimp only at hok
      cases hdata : dataPhase u.maxPacketSize .writeLba a chunk 0 (d.sectors cbw) with
      | error e =>
          rw [hdata] at hok
          cases hok
      | ok payload =>
          rw [hdata] at hok
          dsimp only at hok
          cases hstatus : statusPhase .writeLba a (u.tags d.log.length) (count * sectorSize) 0
              payload with
          | error e =>
              rw [hstatus] at hok
              cases hok
          | ok bytes =>
              obtain ⟨⟨csw, hsome, hparse⟩, -⟩ := exists_csw_of_statusPhase rfl hstatus
              have htaken := payloadTaken_of_dataPhase hne hdata
              subst hcbw
              refine Nat.min_eq_right (hhonest (by rw [htaken, hchunk]; rfl) ⟨csw, hsome, ?_⟩)
              exact (parseCsw_mod csw _).trans hparse

/-! ## Writing an image -/

/-- The first command of a range. -/
lemma blockRange_first {lba n : ℕ} (hn : 0 < n) (hrange : lba + n ≤ 2 ^ 32) :
    BlockRange lba ((Cut.upTo maxSectorsPerTransfer (by decide)).first lba n) := by
  refine ⟨Cut.first_pos _ lba n hn, ?_, by omega⟩
  simp only [Cut.upTo]
  split
  · exact Nat.le_refl _
  · omega

/-- **A run of writes** stores a prefix of its sectors, and all of them if it returns. -/
lemma writeCommands_prefix (u : HonestSession) (start : ℕ) (data : List UInt8) (lba n : ℕ) :
    ∀ d : Usbplug, start ≤ lba → (lba - start + n) * sectorSize = data.length → lba + n ≤ 2 ^ 32 →
      (∃ k ≤ n, (u.writeCommands start data (splitLbaTransfers lba n) d).2.flash =
          d.flash.write (lba * sectorSize)
            ((data.drop ((lba - start) * sectorSize)).take (k * sectorSize)) ∧
        ((u.writeCommands start data (splitLbaTransfers lba n) d).1.isOk = true → k = n)) ∧
        SizedSince d (u.writeCommands start data (splitLbaTransfers lba n) d).2 := by
  refine (Cut.upTo maxSectorsPerTransfer (by decide)).pieces_induction (motive := fun lba n =>
    ∀ d : Usbplug, start ≤ lba → (lba - start + n) * sectorSize = data.length → lba + n ≤ 2 ^ 32 →
      (∃ k ≤ n, (u.writeCommands start data (splitLbaTransfers lba n) d).2.flash =
          d.flash.write (lba * sectorSize)
            ((data.drop ((lba - start) * sectorSize)).take (k * sectorSize)) ∧
        ((u.writeCommands start data (splitLbaTransfers lba n) d).1.isOk = true → k = n)) ∧
        SizedSince d (u.writeCommands start data (splitLbaTransfers lba n) d).2)
    (fun lba d _ _ _ => ?_) (fun lba n hn ih d hstart hlength hrange => ?_) lba n
  · refine ⟨⟨0, Nat.le_refl 0, ?_, fun _ => rfl⟩, .refl d⟩
    rw [Nat.zero_mul, List.take_zero, write_nil]
    rfl
  · have hblock := blockRange_first hn hrange
    have hle := (Cut.upTo maxSectorsPerTransfer (by decide)).first_le lba n
    rw [splitLbaTransfers, Cut.pieces_of_pos _ _ hn, Session.writeCommands, ← splitLbaTransfers]
    generalize (Cut.upTo maxSectorsPerTransfer (by decide)).first lba n = count at hblock hle ih
    have hdropped : (data.drop ((lba - start) * sectorSize)).length = n * sectorSize := by
      rw [List.length_drop, ← hlength, ← Nat.sub_mul, Nat.add_sub_cancel_left]
    have hchunk : ((data.drop ((lba - start) * sectorSize)).take (count * sectorSize)).length =
        count * sectorSize := by
      rw [List.length_take, hdropped]
      exact Nat.min_eq_left (Nat.mul_le_mul_right _ hle)
    obtain ⟨⟨k, hk, hflash, hall⟩, hsized⟩ := command_write u hblock hchunk d
    dsimp only
    cases hcommand : (u.command .writeLba 0 lba count
        ((data.drop ((lba - start) * sectorSize)).take (count * sectorSize)) 0 d).1 with
    | error e =>
        refine ⟨⟨k, hk.trans hle, ?_, fun hok => ?_⟩, hsized⟩
        · rw [hflash, List.take_take, Nat.min_eq_left (Nat.mul_le_mul_right _ hk)]
        · cases hok
    | ok bytes =>
        rw [hcommand] at hall
        obtain rfl := hall rfl
        obtain ⟨⟨k', hk', hflash', hall'⟩, hsized'⟩ := ih _ (by omega)
          (by rw [← hlength]; congr 1; omega) (by omega)
        refine ⟨⟨k + k', by omega, ?_, fun hok => ?_⟩, hsized.trans hsized'⟩
        · -- the sectors of the later commands lie behind those of this one
          have hbehind : (lba + k) * sectorSize = lba * sectorSize +
              ((data.drop ((lba - start) * sectorSize)).take (k * sectorSize)).length := by
            rw [hchunk, Nat.add_mul]
          have hdrop : (lba + k - start) * sectorSize =
              (lba - start) * sectorSize + k * sectorSize := by
            rw [← Nat.add_mul]
            congr 1
            omega
          rw [hflash', hflash, List.take_take, Nat.min_self, hbehind, Store.write_write_append,
            hdrop, ← List.drop_drop, ← List.take_add, Nat.add_mul]
        · have := hall' hok
          omega

/-! ## Sessions without faults -/

section Faithful

variable {tags : ℕ → ℕ} {mps : ℕ} {hmps : 0 < mps} {address count : ℕ}

/-- A request that is rounded up to whole packets asks for enough. -/
lemma readBulk_of_length {length : ℕ} {data : List UInt8} (hmps : 0 < mps)
    (h : data.length = length) : readBulk mps length data = data := by
  have hsplit := Nat.mod_add_div (length + mps - 1) mps
  have hmod := Nat.mod_lt (length + mps - 1) hmps
  have henough : length ≤ (length + mps - 1) / mps * mps := by
    rw [Nat.mul_comm]
    omega
  rw [readBulk, List.take_of_length_le (h.trans_le henough), List.take_of_length_le h.le]

/-- A status wrapper that reports success ends a command well. -/
lemma statusPhase_of_success {op : Opcode} {a : Answer} {csw payload : List UInt8}
    {tag length readLength : ℕ} (hstatus : a.status = some csw)
    (hparse : parseCsw csw tag = .ok (0, 0))
    (h : readLength > 0 → payload.length = readLength) :
    statusPhase op a tag length readLength payload = .ok payload := by
  have hnot : ¬ (readLength > 0 ∧ payload.length ≠ readLength) := fun hne => hne.2 (h hne.1)
  rw [statusPhase, hstatus]
  dsimp only
  rw [hparse]
  simp only [ne_eq, not_true_eq_false, false_and, if_false]
  exact if_neg hnot

lemma statusPhase_faithful {op : Opcode} {dirIn : Bool} {tag length readLength : ℕ}
    {payload : List UInt8} (h : readLength > 0 → payload.length = readLength) :
    statusPhase op (.faithful (blockCbw tag op dirIn address count)) tag length readLength payload =
      .ok payload := by
  refine statusPhase_of_success rfl ?_ h
  rw [← parseCsw_mod]
  exact parseCsw_packCsw_ok _

lemma writeBulk_self (what : String) (op : Opcode) (length : ℕ) :
    writeBulk what op (some length) length = .ok () := if_neg (not_not_intro rfl)

variable (tags hmps) in
/-- One write without faults. -/
lemma command_write_faithful {chunk : List UInt8} (h : BlockRange address count)
    (hchunk : chunk.length = count * sectorSize) (d : Usbplug) :
    ((faithfulSession tags mps hmps).command .writeLba 0 address count chunk 0 d).1.isOk =
      true := by
  have hne : chunk ≠ [] := by
    rintro rfl
    exact absurd hchunk (Nat.mul_ne_zero h.pos.ne' (by decide)).symm
  have hdata : ∀ sectors, dataPhase mps .writeLba
      (.faithful (blockCbw (tags d.log.length) .writeLba (decide (0 > 0)) address count)) chunk 0
      sectors = .ok [] := by
    intro sectors
    rw [dataPhase, if_neg (Nat.lt_irrefl 0), if_neg hne, hchunk]
    simp only [Answer.faithful, blockCbw, writeBulk_self]
  rw [command_eq h d (by rw [if_neg (Nat.lt_irrefl 0), hchunk])]
  simp only [faithfulSession, hdata]
  rw [statusPhase_faithful fun hpos => absurd hpos (Nat.lt_irrefl 0)]
  rfl

variable (tags hmps) in
/-- One read without faults. -/
lemma command_read_faithful (h : BlockRange address count) (d : Usbplug) :
    ((faithfulSession tags mps hmps).command .readLba 0 address count [] (count * sectorSize) d).1 =
        .ok (d.flash.load (address * sectorSize) (count * sectorSize)) ∧
      ((faithfulSession tags mps hmps).command .readLba 0 address count [] (count * sectorSize)
        d).2.flash = d.flash ∧
      SizedSince d ((faithfulSession tags mps hmps).command .readLba 0 address count []
        (count * sectorSize) d).2 := by
  have hpos : count * sectorSize > 0 := Nat.mul_pos h.pos (by decide)
  have hdata : dataPhase mps .readLba
      (.faithful (blockCbw (tags d.log.length) .readLba (decide (count * sectorSize > 0)) address
        count)) [] (count * sectorSize)
      (d.sectors (blockCbw (tags d.log.length) .readLba (decide (count * sectorSize > 0)) address
        count)) = .ok (d.flash.load (address * sectorSize) (count * sectorSize)) := by
    have hsectors : d.sectors (blockCbw (tags d.log.length) .readLba
        (decide (count * sectorSize > 0)) address count) =
        d.flash.load (address * sectorSize) (count * sectorSize) :=
      if_pos ⟨rfl, decide_eq_true hpos, rfl⟩
    rw [dataPhase, if_pos hpos, hsectors]
    simp only [Answer.faithful, blockCbw]
    rw [List.take_of_length_le (Nat.le_of_eq (Store.length_load ..)),
      readBulk_of_length hmps (Store.length_load ..)]
  rw [command_eq h d (if_pos hpos)]
  simp only [faithfulSession, hdata]
  rw [statusPhase_faithful fun _ => Store.length_load ..,
    show (Answer.faithful (blockCbw (tags d.log.length) .readLba (decide (count * sectorSize > 0))
      address count)).wrapperTaken = some cbwLength from rfl, writeBulk_self]
  have hcode : Opcode.readLba.code ≠ Opcode.writeLba.code := by decide
  refine ⟨rfl, ?_, ⟨[_], rfl, fun c hc => List.mem_singleton.mp hc ▸ h.sized _ _ _⟩⟩
  simp only [Usbplug.after, blockCbw, hcode, false_and, if_false]

variable (tags hmps) in
/-- A run of writes without faults. -/
lemma writeCommands_faithful (start : ℕ) (data : List UInt8) (lba n : ℕ) :
    ∀ d : Usbplug, start ≤ lba → (lba - start + n) * sectorSize = data.length → lba + n ≤ 2 ^ 32 →
      ((faithfulSession tags mps hmps).writeCommands start data (splitLbaTransfers lba n)
        d).1.isOk = true := by
  refine (Cut.upTo maxSectorsPerTransfer (by decide)).pieces_induction (motive := fun lba n =>
    ∀ d : Usbplug, start ≤ lba → (lba - start + n) * sectorSize = data.length → lba + n ≤ 2 ^ 32 →
      ((faithfulSession tags mps hmps).writeCommands start data (splitLbaTransfers lba n)
        d).1.isOk = true)
    (fun lba d _ _ _ => rfl) (fun lba n hn ih d hstart hlength hrange => ?_) lba n
  have hblock := blockRange_first hn hrange
  have hle := (Cut.upTo maxSectorsPerTransfer (by decide)).first_le lba n
  rw [splitLbaTransfers, Cut.pieces_of_pos _ _ hn, Session.writeCommands, ← splitLbaTransfers]
  generalize (Cut.upTo maxSectorsPerTransfer (by decide)).first lba n = count at hblock hle ih
  have hchunk : ((data.drop ((lba - start) * sectorSize)).take (count * sectorSize)).length =
      count * sectorSize := by
    rw [List.length_take, List.length_drop, ← hlength, ← Nat.sub_mul, Nat.add_sub_cancel_left]
    exact Nat.min_eq_left (Nat.mul_le_mul_right _ hle)
  have hok := command_write_faithful tags hmps hblock hchunk d
  dsimp only
  cases hcommand : ((faithfulSession tags mps hmps).command .writeLba 0 lba count
      ((data.drop ((lba - start) * sectorSize)).take (count * sectorSize)) 0 d).1 with
  | error e =>
      rw [hcommand] at hok
      cases hok
  | ok bytes => exact ih _ (by omega) (by rw [← hlength]; congr 1; omega) (by omega)

variable (tags hmps) in
/-- **A run of reads without faults** returns its sectors. -/
lemma readCommands_faithful (lba n : ℕ) :
    ∀ d : Usbplug, lba + n ≤ 2 ^ 32 →
      ((faithfulSession tags mps hmps).readCommands (splitLbaTransfers lba n) d).1 =
          .ok (d.flash.load (lba * sectorSize) (n * sectorSize)) ∧
        ((faithfulSession tags mps hmps).readCommands (splitLbaTransfers lba n) d).2.flash =
          d.flash ∧
        SizedSince d
          ((faithfulSession tags mps hmps).readCommands (splitLbaTransfers lba n) d).2 := by
  refine (Cut.upTo maxSectorsPerTransfer (by decide)).pieces_induction (motive := fun lba n =>
    ∀ d : Usbplug, lba + n ≤ 2 ^ 32 →
      ((faithfulSession tags mps hmps).readCommands (splitLbaTransfers lba n) d).1 =
          .ok (d.flash.load (lba * sectorSize) (n * sectorSize)) ∧
        ((faithfulSession tags mps hmps).readCommands (splitLbaTransfers lba n) d).2.flash =
          d.flash ∧
        SizedSince d
          ((faithfulSession tags mps hmps).readCommands (splitLbaTransfers lba n) d).2)
    (fun lba d _ => ?_) (fun lba n hn ih d hrange => ?_) lba n
  · refine ⟨?_, rfl, .refl d⟩
    rw [Nat.zero_mul]
    rfl
  · have hblock := blockRange_first hn hrange
    have hle := (Cut.upTo maxSectorsPerTransfer (by decide)).first_le lba n
    rw [splitLbaTransfers, Cut.pieces_of_pos _ _ hn, Session.readCommands, ← splitLbaTransfers]
    generalize (Cut.upTo maxSectorsPerTransfer (by decide)).first lba n = count at hblock hle ih
    obtain ⟨hbytes, hflash, hsized⟩ :=
      command_read_faithful tags hmps hblock d
    obtain ⟨hrest, hflash', hsized'⟩ := ih _ (show lba + count + (n - count) ≤ 2 ^ 32 by omega)
    dsimp only
    rw [hbytes]
    dsimp only
    rw [hrest, hflash]
    refine ⟨?_, hflash'.trans hflash, hsized.trans hsized'⟩
    rw [Except.map, show n * sectorSize = count * sectorSize + (n - count) * sectorSize by
        rw [← Nat.add_mul, Nat.add_sub_cancel' hle], Store.load_add, Nat.add_mul]

end Faithful

/-! ## Both together -/

/-- **Without faults** an image is written, nothing around it changes, and it is read back. -/
def RoundTrips (u : Session) (start : ℕ) (data : List UInt8) (d : Usbplug) : Prop :=
  let written := u.writeImage start data d
  let back := u.readImage start (imageSectors data) written.2
  written.1.isOk = true ∧ back.1 = .ok (padded data) ∧
    (∀ a, a < start * sectorSize ∨ (start + imageSectors data) * sectorSize ≤ a →
      back.2.flash a = d.flash a) ∧
    SizedSince d back.2

/-- **Whatever goes wrong**, a prefix of the sectors is changed, and an image whose write returns is
stored whole. -/
def StoresPrefix (u : Session) (start : ℕ) (data : List UInt8) (d : Usbplug) : Prop :=
  let written := u.writeImage start data d
  (∃ k ≤ imageSectors data, written.2.flash =
      d.flash.write (start * sectorSize) ((padded data).take (k * sectorSize))) ∧
    (written.1.isOk = true → written.2.flash = d.flash.write (start * sectorSize) (padded data)) ∧
    SizedSince d written.2

lemma length_padded (data : List UInt8) :
    imageSectors data * sectorSize = (padded data).length := by
  rw [imageSectors]
  refine Nat.div_mul_cancel (Nat.dvd_of_mod_eq_zero ?_)
  rw [padded]
  split
  · rw [List.length_append, List.length_replicate]
    have hmod := Nat.mod_lt data.length (by decide : 0 < sectorSize)
    rw [sectorSize] at hmod ⊢
    omega
  · exact not_not.mp ‹_›

lemma storesPrefix (u : HonestSession) {start : ℕ} {data : List UInt8}
    (hrange : start + imageSectors data ≤ 2 ^ 32) (d : Usbplug) :
    StoresPrefix u.toSession start data d := by
  have hlength : (start - start + imageSectors data) * sectorSize = (padded data).length := by
    rw [Nat.sub_self, Nat.zero_add, length_padded]
  obtain ⟨⟨k, hk, hflash, hall⟩, hsized⟩ :=
    writeCommands_prefix u start (padded data) start _ d (Nat.le_refl start) hlength hrange
  rw [Nat.sub_self, Nat.zero_mul, List.drop_zero] at hflash
  refine ⟨⟨k, hk, hflash⟩, fun hok => ?_, hsized⟩
  rw [hall hok, List.take_of_length_le (by rw [length_padded])] at hflash
  exact hflash

lemma roundTrips {tags : ℕ → ℕ} {mps : ℕ} (hmps : 0 < mps) {start : ℕ} {data : List UInt8}
    (hrange : start + imageSectors data ≤ 2 ^ 32) (d : Usbplug) :
    RoundTrips (faithfulSession tags mps hmps).toSession start data d := by
  have hlength : (start - start + imageSectors data) * sectorSize = (padded data).length := by
    rw [Nat.sub_self, Nat.zero_add, length_padded]
  have hok := writeCommands_faithful tags hmps start (padded data) start _ d
    (Nat.le_refl start) hlength hrange
  obtain ⟨-, hwhole, hsized⟩ := storesPrefix (faithfulSession tags mps hmps) hrange d
  have hflash := hwhole hok
  obtain ⟨hback, hkept, hsized'⟩ := readCommands_faithful tags hmps start (imageSectors data)
    ((faithfulSession tags mps hmps).writeImage start data d).2 hrange
  refine ⟨hok, hback.trans ?_, fun a ha => ?_, hsized.trans hsized'⟩
  · rw [hflash, length_padded, Store.load_write_self]
  · refine (congrFun hkept a).trans ?_
    rw [hflash]
    rcases ha with ha | ha
    · exact Store.write_apply_of_lt _ _ ha
    · refine Store.write_apply_of_ge _ _ ?_
      rwa [← length_padded, ← Nat.add_mul]

/-- **Block input and output are faithful**, for every image inside the range of the addresses. -/
theorem rockusb_images (u : HonestSession) (tags : ℕ → ℕ) (mps : ℕ) (start : ℕ)
    (data : List UInt8) (d : Usbplug) (hmps : 0 < mps)
    (hrange : start + imageSectors data ≤ 2 ^ 32) :
    RoundTrips (faithfulSession tags mps hmps).toSession start data d ∧
      StoresPrefix u.toSession start data d :=
  ⟨roundTrips hmps hrange d, storesPrefix u hrange d⟩

/-- A usbplug that stores one sector of a write and goes silent. -/
def silentSession : HonestSession where
  answers _ cbw := ⟨some cbwLength, some cbw.transferLength, 1, none, none⟩
  tags := id
  maxPacketSize := 512
  packet_pos := by decide
  honest _ _ _ hok := by
    obtain ⟨csw, hnone, -⟩ := hok
    cases hnone

/-- An image that takes two commands: 512 sectors and one byte. -/
def twoCommands : List UInt8 := List.replicate (512 * 512 + 1) 0x5A

lemma imageSectors_twoCommands : imageSectors twoCommands = 513 := by
  have hlen : twoCommands.length = 512 * 512 + 1 := List.length_replicate
  have hodd : (512 * 512 + 1) % sectorSize ≠ 0 := by decide
  rw [imageSectors, padded, hlen, if_pos hodd, List.length_append, List.length_replicate, hlen]
  rfl

/-- That image at the end of the range of the addresses. -/
theorem rockusb_images_last_sectors :
    RoundTrips (faithfulSession id 512 (by decide)).toSession (2 ^ 32 - 513) twoCommands
        ⟨fun _ => 0, []⟩ ∧
      StoresPrefix silentSession.toSession (2 ^ 32 - 513) twoCommands ⟨fun _ => 0, []⟩ :=
  rockusb_images silentSession id 512 (2 ^ 32 - 513) twoCommands ⟨fun _ => 0, []⟩ (by decide)
    (by rw [imageSectors_twoCommands]; decide)

end Rockusb

end Defib
