import Defib.Capture.Record

/-!
# Recording, then replaying

A replay is to serve what the device sent, each byte once and in order, and a capture is to say what
was written.  `record_replay_iff` says when a recording does: no read returns a byte that was pushed
back, for it would be recorded again, and no read or write is longer than the 16 bits for its length
can say (times and the baud rate have bounds of the same kind).

The induction is over the calls: as long as no byte is read twice, what was recorded is what was
delivered (`Recording.Exact`), and after the first such byte it is longer for good
(`Recording.Surplus`).
-/

namespace Defib

open CaptureFile

/-! ## Reading a replay -/

namespace ReplayTransport

/-- **A replay serves its bytes in order**, whatever the sizes of its reads. -/
lemma reads_eq (buffer : List UInt8) (log : List (List UInt8)) (sizes : List ℕ) :
    reads ⟨buffer, log, false⟩ sizes = buffer.take sizes.sum := by
  induction sizes generalizing buffer with
  | nil => rw [reads, List.sum_nil, List.take_zero]
  | cons size sizes ih =>
      rw [reads, read, if_neg Bool.false_ne_true, List.sum_cons, List.take_add]
      by_cases hnil : buffer = []
      · rw [if_pos hnil]
        dsimp only
        rw [ih, hnil]
        simp
      · rw [if_neg hnil]
        dsimp only
        rw [ih]
        rfl

end ReplayTransport

/-! ## Conditions on the calls -/

namespace Recording

/-- What a read returns, when it returns at most `count` bytes. -/
def readData (s : Recording) (size count : ℕ) : List UInt8 :=
  (s.transport.inner.pushed ++ s.transport.inner.incoming).take (min size count)

/-- A call does not return a byte that was pushed back. -/
def Fresh (s : Recording) : RecordedCall → Prop
  | .read size _ (.returns count) => min size count = 0 ∨ s.transport.inner.pushed = []
  | .read _ _ .raises => True
  | .write _ _ => True
  | .unread _ => True

/-- The time and the length of what a call transfers are narrow enough for a record. -/
def Narrow (s : Recording) : RecordedCall → Prop
  | .read size time (.returns count) =>
      s.readData size count ≠ [] → time < 2 ^ 64 ∧ (s.readData size count).length < 2 ^ 16
  | .read _ _ .raises => True
  | .write data time => time < 2 ^ 64 ∧ data.length < 2 ^ 16
  | .unread _ => True

/-- Each call of a sequence meets a condition, in the state that it is made in. -/
def AtEach (P : Recording → RecordedCall → Prop) : Recording → List RecordedCall → Prop
  | _, [] => True
  | s, call :: calls => P s call ∧ AtEach P (s.step call) calls

/-- The bytes that a capture has of a direction. -/
def captured (s : Recording) (d : Direction) : List UInt8 :=
  CaptureFile.dataOf d s.transport.capture.records

/-- The replay of the saved capture serves what the device sent, and the capture says what was
written. -/
def Faithful (s : Recording) : Prop :=
  ∃ file loaded, s.transport.capture.encode = .ok file ∧ decode file = .ok loaded ∧
    (∀ sizes, (ReplayTransport.new loaded).reads sizes =
      s.transport.inner.delivered.take sizes.sum) ∧
    CaptureFile.dataOf .tx loaded.records = s.written

lemma atEach_and {P Q : Recording → RecordedCall → Prop} (s : Recording)
    (calls : List RecordedCall) :
    AtEach (fun s call => P s call ∧ Q s call) s calls ↔ AtEach P s calls ∧ AtEach Q s calls := by
  induction calls generalizing s with
  | nil => exact (and_self_iff).symm
  | cons call calls ih =>
      rw [AtEach, AtEach, AtEach, ih]
      exact and_and_and_comm

/-! ## One call -/

/-- The records of one call. -/
def recorded (s : Recording) : RecordedCall → List CaptureRecord
  | .read size time (.returns count) =>
      if s.readData size count = [] then [] else [⟨time, .rx, s.readData size count⟩]
  | .read _ _ .raises => []
  | .write data time => [⟨time, .tx, data⟩]
  | .unread _ => []

/-- The bytes that the device delivers in one call. -/
def fresh (s : Recording) : RecordedCall → List UInt8
  | .read size _ (.returns count) =>
      s.transport.inner.incoming.take
        ((s.readData size count).length - s.transport.inner.pushed.length)
  | .read _ _ .raises => []
  | .write _ _ => []
  | .unread _ => []

/-- The bytes that one call writes. -/
def sent : RecordedCall → List UInt8
  | .read _ _ _ => []
  | .write data _ => data
  | .unread _ => []

lemma dataOf_append (d : Direction) (rs rs' : List CaptureRecord) :
    CaptureFile.dataOf d (rs ++ rs') = CaptureFile.dataOf d rs ++ CaptureFile.dataOf d rs' := by
  rw [CaptureFile.dataOf, List.filter_append, List.flatMap_append, ← CaptureFile.dataOf,
    ← CaptureFile.dataOf]

/-- **What one call does**: it appends its records, what it delivers and what it writes. -/
lemma step_spec (s : Recording) (call : RecordedCall) :
    (s.step call).transport.capture =
        { s.transport.capture with
          records := s.transport.capture.records ++ s.recorded call } ∧
      (s.step call).transport.inner.delivered = s.transport.inner.delivered ++ s.fresh call ∧
      (s.step call).written = s.written ++ sent call := by
  cases call with
  | read size time turn =>
      cases turn with
      | raises =>
          refine ⟨?_, (List.append_nil _).symm, (List.append_nil _).symm⟩
          rw [recorded, List.append_nil]
          rfl
      | returns count =>
          rw [step, RecordingTransport.read, recorded, fresh]
          by_cases hnil : s.readData size count = []
          · rw [if_pos hnil]
            rw [readData] at hnil
            simp only [InnerTransport.read]
            rw [if_pos hnil, List.append_nil]
            exact ⟨rfl, rfl, (List.append_nil _).symm⟩
          · rw [if_neg hnil]
            rw [readData] at hnil
            simp only [InnerTransport.read]
            rw [if_neg hnil]
            exact ⟨rfl, rfl, (List.append_nil _).symm⟩
  | write data time => exact ⟨rfl, (List.append_nil _).symm, rfl⟩
  | unread count =>
      refine ⟨?_, (List.append_nil _).symm, (List.append_nil _).symm⟩
      rw [recorded, List.append_nil]
      rfl

lemma captured_step (s : Recording) (call : RecordedCall) (d : Direction) :
    (s.step call).captured d = s.captured d ++ CaptureFile.dataOf d (s.recorded call) := by
  rw [captured, (step_spec s call).1, captured, ← dataOf_append]

lemma dataOf_tx_recorded (s : Recording) (call : RecordedCall) :
    CaptureFile.dataOf .tx (s.recorded call) = sent call := by
  cases call with
  | read size time turn =>
      cases turn with
      | raises => rfl
      | returns count =>
          rw [recorded]
          split
          · rfl
          · rfl
  | write data time => exact List.append_nil data
  | unread count => rfl

/-- What a call is recorded to have read. -/
lemma dataOf_rx_recorded_read (s : Recording) (size time count : ℕ) :
    CaptureFile.dataOf .rx (s.recorded (.read size time (.returns count))) =
      s.readData size count := by
  rw [recorded]
  split
  · rename_i hnil
    rw [hnil]
    rfl
  · exact List.append_nil _

/-- The records of a call fit when what it transfers is narrow enough. -/
lemma fits_recorded_iff (s : Recording) (call : RecordedCall) :
    (∀ r ∈ s.recorded call, CaptureFile.Fits r) ↔ s.Narrow call := by
  cases call with
  | read size time turn =>
      cases turn with
      | raises => exact iff_of_true (fun r hr => absurd hr List.not_mem_nil) trivial
      | returns count =>
          rw [recorded, Narrow]
          split
          · rename_i hnil
            exact iff_of_true (fun r hr => absurd hr List.not_mem_nil) fun h => absurd hnil h
          · rename_i hne
            rw [List.forall_mem_singleton, imp_iff_right hne]
            rfl
  | write data time =>
      rw [recorded, List.forall_mem_singleton]
      rfl
  | unread count => exact iff_of_true (fun r hr => absurd hr List.not_mem_nil) trivial

/-- A call that returns no byte that was pushed back is recorded with what it delivers. -/
lemma dataOf_rx_recorded_of_fresh {s : Recording} {call : RecordedCall} (h : s.Fresh call) :
    CaptureFile.dataOf .rx (s.recorded call) = s.fresh call := by
  cases call with
  | read size time turn =>
      cases turn with
      | raises => rfl
      | returns count =>
          rw [dataOf_rx_recorded_read, fresh]
          rcases h with hzero | hnil
          · rw [readData, hzero, List.take_zero, List.length_nil, Nat.zero_sub, List.take_zero]
          · rw [readData, hnil, List.nil_append, List.length_nil, Nat.sub_zero, List.length_take,
              ← List.take_eq_take_min]
  | write data time => rfl
  | unread count => rfl

/-- A call that returns a byte that was pushed back is recorded with more than it delivers. -/
lemma length_fresh_lt {s : Recording} {call : RecordedCall} (h : ¬ s.Fresh call) :
    (s.fresh call).length < (CaptureFile.dataOf .rx (s.recorded call)).length := by
  cases call with
  | read size time turn =>
      cases turn with
      | raises => exact absurd trivial h
      | returns count =>
          rw [Fresh, not_or] at h
          have hpos : 0 < s.transport.inner.pushed.length := List.length_pos_iff.mpr h.2
          rw [dataOf_rx_recorded_read, fresh, List.length_take]
          have hdata : 0 < (s.readData size count).length := by
            rw [readData, List.length_take, List.length_append]
            omega
          omega
  | write data time => exact absurd trivial h
  | unread count => exact absurd trivial h

/-! ## A run -/

/-- What was recorded is what was delivered and what was written. -/
structure Exact (s : Recording) : Prop where
  rx : s.captured .rx = s.transport.inner.delivered
  tx : s.captured .tx = s.written

/-- More was recorded than was delivered. -/
def Surplus (s : Recording) : Prop :=
  s.transport.inner.delivered.length < (s.captured .rx).length

lemma run_cons (s : Recording) (call : RecordedCall) (calls : List RecordedCall) :
    s.run (call :: calls) = (s.step call).run calls := rfl

lemma tx_run {s : Recording} (h : s.captured .tx = s.written) (calls : List RecordedCall) :
    (s.run calls).captured .tx = (s.run calls).written := by
  induction calls generalizing s with
  | nil => exact h
  | cons call calls ih =>
      rw [run_cons]
      refine ih ?_
      rw [captured_step, dataOf_tx_recorded, h, (step_spec s call).2.2]

/-- One call keeps the recording exact when it returns no byte that was pushed back. -/
lemma rx_step {s : Recording} (h : s.captured .rx = s.transport.inner.delivered)
    {call : RecordedCall} (hfresh : s.Fresh call) :
    (s.step call).captured .rx = (s.step call).transport.inner.delivered := by
  rw [captured_step, dataOf_rx_recorded_of_fresh hfresh, h, (step_spec s call).2.1]

lemma length_fresh_le (s : Recording) (call : RecordedCall) :
    (s.fresh call).length ≤ (CaptureFile.dataOf .rx (s.recorded call)).length := by
  by_cases h : s.Fresh call
  · rw [dataOf_rx_recorded_of_fresh h]
  · exact Nat.le_of_lt (length_fresh_lt h)

/-- A surplus stays. -/
lemma Surplus.run {s : Recording} (h : s.Surplus) (calls : List RecordedCall) :
    (s.run calls).Surplus := by
  induction calls generalizing s with
  | nil => exact h
  | cons call calls ih =>
      rw [run_cons]
      refine ih ?_
      have hle := length_fresh_le s call
      rw [Surplus] at h ⊢
      rw [captured_step, (step_spec s call).2.1, List.length_append, List.length_append]
      omega

/-- **What was recorded is what was delivered** when no byte that was pushed back is returned. -/
lemma rx_run_iff {s : Recording} (h : s.captured .rx = s.transport.inner.delivered)
    (calls : List RecordedCall) :
    (s.run calls).captured .rx = (s.run calls).transport.inner.delivered ↔
      AtEach Fresh s calls := by
  induction calls generalizing s with
  | nil => exact iff_of_true h trivial
  | cons call calls ih =>
      rw [run_cons, AtEach]
      by_cases hfresh : s.Fresh call
      · rw [and_iff_right hfresh]
        exact ih (rx_step h hfresh)
      · refine iff_of_false (fun heq => ?_) fun h' => hfresh h'.1
        have hsurplus : (s.step call).Surplus := by
          have hlt := length_fresh_lt hfresh
          rw [Surplus, captured_step, (step_spec s call).2.1, List.length_append,
            List.length_append, h]
          omega
        have hlater := hsurplus.run calls
        rw [Surplus, heq] at hlater
        exact Nat.lt_irrefl _ hlater

/-- All records of a run fit when what its calls transfer is narrow enough. -/
lemma fits_run_iff (s : Recording) (calls : List RecordedCall) :
    (∀ r ∈ (s.run calls).transport.capture.records, CaptureFile.Fits r) ↔
      (∀ r ∈ s.transport.capture.records, CaptureFile.Fits r) ∧ AtEach Narrow s calls := by
  induction calls generalizing s with
  | nil => exact (iff_of_eq (and_true _)).symm
  | cons call calls ih =>
      rw [run_cons, ih, (step_spec s call).1, AtEach, ← fits_recorded_iff, ← and_assoc]
      simp only [List.forall_mem_append]

lemma capture_run (s : Recording) (calls : List RecordedCall) :
    (s.run calls).transport.capture.baudrate = s.transport.capture.baudrate ∧
      (s.run calls).transport.capture.flags = s.transport.capture.flags := by
  induction calls generalizing s with
  | nil => exact ⟨rfl, rfl⟩
  | cons call calls ih =>
      obtain ⟨hbaud, hflags⟩ := ih (s.step call)
      rw [(step_spec s call).1] at hbaud hflags
      exact ⟨hbaud, hflags⟩

/-- A recording is faithful when it is exact and has a file. -/
lemma faithful_iff (s : Recording) :
    s.Faithful ↔ s.transport.capture.Encodable ∧ s.Exact := by
  constructor
  · rintro ⟨file, loaded, hencode, hdecode, hreads, htx⟩
    refine ⟨((encode_eq_ok_iff _ _).mp hencode).1, ?_, ?_⟩
    · obtain rfl := Except.ok.inj ((decode_encode hencode).symm.trans hdecode)
      have h := hreads [max (s.captured .rx).length s.transport.inner.delivered.length]
      rw [ReplayTransport.new, ReplayTransport.reads_eq, List.sum_singleton,
        List.take_of_length_le (Nat.le_max_right _ _)] at h
      rw [← h]
      exact (List.take_of_length_le (Nat.le_max_left _ _)).symm
    · obtain rfl := Except.ok.inj ((decode_encode hencode).symm.trans hdecode)
      exact htx
  · rintro ⟨hencodable, hexact⟩
    have hencode := (encode_eq_ok_iff s.transport.capture _).mpr ⟨hencodable, rfl⟩
    refine ⟨_, _, hencode, decode_encode hencode, fun sizes => ?_, hexact.tx⟩
    rw [ReplayTransport.new, ReplayTransport.reads_eq, ← hexact.rx]
    rfl

end Recording

open Recording

/-- **A replay serves what the device sent exactly when the recording never read a pushed-back
byte and every time and length fits its field.** -/
theorem record_replay_iff (baudrate : ℕ) (chip : Text) (incoming : List UInt8)
    (calls : List RecordedCall) :
    ((Recording.new baudrate chip incoming).run calls).Faithful ↔
      baudrate < 2 ^ 32 ∧
        AtEach (fun s call => s.Fresh call ∧ s.Narrow call) (.new baudrate chip incoming)
          calls := by
  have hbaud := (capture_run (.new baudrate chip incoming) calls).1
  have hflags := (capture_run (.new baudrate chip incoming) calls).2
  have hnone : ∀ r ∈ (Recording.new baudrate chip incoming).transport.capture.records,
      CaptureFile.Fits r :=
    fun r hr => absurd hr List.not_mem_nil
  have hfits := fits_run_iff (.new baudrate chip incoming) calls
  rw [and_iff_right hnone] at hfits
  have hrx := rx_run_iff (s := .new baudrate chip incoming) rfl calls
  rw [faithful_iff, atEach_and, ← hfits, ← hrx]
  constructor
  · rintro ⟨⟨hlt, -, h⟩, hexact⟩
    rw [hbaud] at hlt
    exact ⟨hlt, hexact.rx, h⟩
  · rintro ⟨hlt, hexact, h⟩
    refine ⟨⟨?_, ?_, h⟩, hexact, tx_run rfl calls⟩
    · rw [hbaud]
      exact hlt
    · rw [hflags]
      exact (by decide : flagHasTiming < 2 ^ 16)

/-- One byte is read, pushed back and read again. -/
def pushBackCalls : List RecordedCall :=
  [.read 1 0 (.returns 1), .unread 1, .read 1 1 (.returns 1)]

/-- A write that is too long for a record. -/
def longWrite : List RecordedCall := [.write (List.replicate (2 ^ 16) 0) 0]

/-- The replay serves the byte twice, and the long write has no file. -/
theorem replay_repeats_pushed_back :
    (¬ ((Recording.new 115200 [] [0x2A]).run pushBackCalls).Faithful ∧
      ((Recording.new 115200 [] [0x2A]).run pushBackCalls).transport.inner.delivered = [0x2A] ∧
      (ReplayTransport.new
        ((Recording.new 115200 [] [0x2A]).run pushBackCalls).transport.capture).rxBuffer =
          [0x2A, 0x2A]) ∧
    ∀ file, ((Recording.new 115200 [] []).run longWrite).transport.capture.encode ≠ .ok file := by
  refine ⟨⟨fun h => ?_, rfl, rfl⟩, fun file h => ?_⟩
  · have hexact := ((faithful_iff _).mp h).2.rx
    exact absurd hexact (by decide)
  · have hfits := ((encode_eq_ok_iff _ _).mp h).1.fits _ (List.mem_singleton_self _)
    have hlength := hfits.2
    rw [List.length_replicate] at hlength
    exact Nat.lt_irrefl _ hlength

end Defib
