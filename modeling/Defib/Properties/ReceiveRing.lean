import Defib.Framework.PyText
import Defib.Wire.SoftRx

/-!
# The software receive FIFO is a FIFO

Bytes reach `proto_recv` through the ring or past it, but past it only when it is empty.
`soft_rx_is_fifo` says that head and tail never leave the ring, that what is fetched are the bytes
that arrived, in order and without a gap, as long as there is room for what is buffered, that a
fetch takes the oldest byte whenever one is there, and that draining into a full ring drops what
arrived last.
-/

namespace Defib

namespace SoftRx

/-- The bytes in the receive FIFO. -/
def waiting (s : SoftRx) : List UInt8 := s.fifo.filterMap RxWord.byte?

/-- The bytes in the ring. -/
def ringBytes (s : SoftRx) : List UInt8 := s.ring.contents softRxSize

/-- The bytes that have arrived and are not fetched yet. -/
def buffered (s : SoftRx) : List UInt8 := s.ringBytes ++ s.waiting

/-- Head and tail lie in the ring. -/
def Valid (s : SoftRx) : Prop := s.ring.Valid softRxSize

lemma valid_start : start.Valid := ⟨by decide, by decide⟩

/-! ## Draining -/

/-- Moving words from the receive FIFO to the ring. -/
structure Drains (s : SoftRx) (arrived : List UInt8) (s' : SoftRx) : Prop where
  valid : s'.Valid
  moves : ∃ moved, s.waiting ++ arrived = moved ++ s'.waiting ∧
    s'.ringBytes = (s.ringBytes ++ moved).take (softRxSize - 1)

lemma take_ringBytes {s : SoftRx} (h : s.Valid) :
    s.ringBytes.take (softRxSize - 1) = s.ringBytes := by
  have hlt := h.count_lt
  have hlength : s.ringBytes.length = s.ring.count softRxSize := RingBuffer.length_contents s.ring
  exact List.take_of_length_le (by omega)

lemma Drains.refl {s : SoftRx} (h : s.Valid) : Drains s [] s := by
  refine ⟨h, [], ?_, ?_⟩
  · rw [List.append_nil, List.nil_append]
  · rw [List.append_nil, take_ringBytes h]

lemma Drains.trans {s s' s'' : SoftRx} {arrived arrived' : List UInt8} (h : Drains s arrived s')
    (h' : Drains s' arrived' s'') : Drains s (arrived ++ arrived') s'' := by
  obtain ⟨moved, hwaiting, hring⟩ := h.moves
  obtain ⟨moved', hwaiting', hring'⟩ := h'.moves
  refine ⟨h'.valid, moved ++ moved', ?_, ?_⟩
  · rw [← List.append_assoc, hwaiting, List.append_assoc, hwaiting', List.append_assoc]
  · rw [hring', hring, RingBuffer.take_take_append, List.append_assoc]

/-- A turn moves the oldest word. -/
lemma drains_drainTurn {s : SoftRx} (h : s.Valid) : Drains s [] s.drainTurn := by
  obtain ⟨ring, fifo⟩ := s
  cases fifo with
  | nil => exact .refl h
  | cons w fifo =>
      cases w with
      | byte b =>
          refine ⟨RingBuffer.Valid.push h b, [b], List.append_nil _, ?_⟩
          exact RingBuffer.contents_push h b
      | lineError =>
          refine ⟨h, [], List.append_nil _, ?_⟩
          rw [List.append_nil, take_ringBytes h]
          rfl

lemma drains_drainLoop {s : SoftRx} (h : s.Valid) (fuel : ℕ) : Drains s [] (drainLoop fuel s) := by
  induction fuel generalizing s with
  | zero => exact .refl h
  | succ fuel ih =>
      rw [drainLoop]
      split_ifs
      · exact (drains_drainTurn h).trans (ih (drains_drainTurn h).valid)
      · exact .refl h

lemma length_drainTurn_fifo (s : SoftRx) : s.drainTurn.fifo.length = s.fifo.length - 1 := by
  obtain ⟨ring, fifo⟩ := s
  cases fifo with
  | nil => rfl
  | cons w fifo =>
      cases w with
      | byte b => rfl
      | lineError => rfl

/-- **`soft_rx_drain` leaves nothing in the receive FIFO.** -/
lemma drainLoop_fifo {fuel : ℕ} {s : SoftRx} (h : s.fifo.length ≤ fuel) :
    (drainLoop fuel s).fifo = [] := by
  induction fuel generalizing s with
  | zero => exact List.length_eq_zero_iff.mp (Nat.le_zero.mp h)
  | succ fuel ih =>
      rw [drainLoop]
      split_ifs with hreadable
      · apply ih
        rw [length_drainTurn_fifo]
        omega
      · simpa [uartReadable] using hreadable

lemma drains_arrive {s : SoftRx} (h : s.Valid) (w : RxWord) :
    Drains s w.byte?.toList ⟨s.ring, s.fifo ++ [w]⟩ := by
  refine ⟨h, [], ?_, ?_⟩
  · rw [List.nil_append, waiting, waiting, List.filterMap_append]
    cases w with
    | byte b => rfl
    | lineError => rfl
  · rw [List.append_nil, take_ringBytes h]
    rfl

/-- **Nothing is lost while there is room.** -/
lemma Drains.buffered_eq {s s' : SoftRx} (h : Drains s [] s')
    (hroom : s.buffered.length ≤ softRxSize - 1) : s'.buffered = s.buffered := by
  obtain ⟨moved, hwaiting, hring⟩ := h.moves
  rw [List.append_nil] at hwaiting
  have hbuffered : s.buffered = s.ringBytes ++ moved ++ s'.waiting := by
    rw [buffered, hwaiting, List.append_assoc]
  have hall : (s.ringBytes ++ moved).length ≤ softRxSize - 1 := by
    rw [hbuffered, List.length_append] at hroom
    omega
  rw [hbuffered, buffered, hring, List.take_of_length_le hall]

/-- **What `soft_rx_drain` leaves**, while no word arrives. -/
lemma softRxDrain_eq {s : SoftRx} (h : s.Valid) :
    s.softRxDrain.fifo = [] ∧
      s.softRxDrain.ringBytes = (s.ringBytes ++ s.waiting).take (softRxSize - 1) := by
  have hfifo : s.softRxDrain.fifo = [] := drainLoop_fifo le_rfl
  obtain ⟨moved, hwaiting, hring⟩ := (drains_drainLoop h s.fifo.length).moves
  have hnone : s.softRxDrain.waiting = [] := by
    rw [waiting, hfifo]
    rfl
  have hmoved : s.waiting = moved := by
    have hall : s.waiting ++ [] = moved ++ s.softRxDrain.waiting := hwaiting
    rw [hnone, List.append_nil, List.append_nil] at hall
    exact hall
  rw [hmoved]
  exact ⟨hfifo, hring⟩

/-! ## Fetching -/

lemma valid_take {s : SoftRx} (h : s.Valid) : s.take.2.Valid := RingBuffer.Valid.pop h

/-- `soft_rx_get` takes the oldest byte of the ring. -/
lemma buffered_take {s : SoftRx} (h : s.Valid) :
    s.buffered = s.take.1.toList ++ s.take.2.buffered := by
  have hring : s.ringBytes = s.take.1.toList ++ s.take.2.ringBytes := RingBuffer.contents_pop h
  rw [buffered, hring, List.append_assoc]
  rfl

lemma waiting_uartGetcSafe (ring : RingBuffer UInt8) (fifo : List RxWord) :
    (SoftRx.mk ring fifo).waiting =
      (uartGetcSafe fifo).1.byte?.toList ++ (SoftRx.mk ring (uartGetcSafe fifo).2).waiting := by
  cases fifo with
  | nil => rfl
  | cons w fifo =>
      cases w with
      | byte b => rfl
      | lineError => rfl

lemma ringBytes_eq_nil {s : SoftRx} (h : s.Valid) (hempty : s.ring.head = s.ring.tail) :
    s.ringBytes = [] := by
  have hcount := h.head_eq_tail_iff.mp hempty
  apply List.length_eq_zero_iff.mp
  exact (RingBuffer.length_contents s.ring).trans hcount

/-- **`proto_recv` takes the oldest byte**, from the ring or, past an empty ring, from the UART. -/
lemma buffered_protoFetch {s : SoftRx} (h : s.Valid) :
    s.protoFetch.2.Valid ∧
      s.buffered = s.protoFetch.1.byte?.toList ++ s.protoFetch.2.buffered := by
  by_cases hempty : s.ring.head = s.ring.tail
  · have hfetch : s.protoFetch =
        ((uartGetcSafe s.fifo).1, ⟨s.ring, (uartGetcSafe s.fifo).2⟩) := by
      rw [protoFetch, RingBuffer.pop, if_neg (not_not.mpr hempty)]
    have hafter : (SoftRx.mk s.ring (uartGetcSafe s.fifo).2).ringBytes = [] :=
      ringBytes_eq_nil h hempty
    rw [hfetch]
    refine ⟨h, ?_⟩
    rw [buffered, buffered, ringBytes_eq_nil h hempty, hafter, List.nil_append, List.nil_append]
    exact waiting_uartGetcSafe s.ring s.fifo
  · have hfetch : s.protoFetch = (.byte (s.ring.cells s.ring.tail), s.take.2) := by
      rw [protoFetch, take, RingBuffer.pop, if_pos hempty]
    have htaken : s.take.1 = some (s.ring.cells s.ring.tail) := by
      rw [take, RingBuffer.pop, if_pos hempty]
    have htake := buffered_take h
    rw [htaken] at htake
    rw [hfetch]
    exact ⟨valid_take h, htake⟩

/-! ## A fetch takes what is there -/

/-- The words that are not fetched yet: those in the ring stand first. -/
def words (s : SoftRx) : List RxWord := s.ringBytes.map .byte ++ s.fifo

end SoftRx

/-- What a fetch makes of the oldest word. -/
def Fetch.ofWord : Option RxWord → Fetch
  | some (.byte b) => .byte b
  | some .lineError => .lineError
  | none => .empty

namespace SoftRx

/-- The fetches take the oldest word there is: `soft_rx_get` behind its drain that of the ring,
`soft_rx_get` that of the ring or else the oldest byte of the UART, and `proto_recv` that of the
ring or else that of the UART. -/
structure Serves (s : SoftRx) : Prop where
  take : s.take.1 = s.ringBytes.head? ∧ s.take.2.ringBytes = s.ringBytes.tail ∧
    s.take.2.fifo = s.fifo
  get : s.softRxGet.1 = s.buffered.head? ∧
    (s.buffered.length ≤ softRxSize - 1 → s.softRxGet.2.buffered = s.buffered.tail)
  fetch : s.protoFetch.1 = Fetch.ofWord s.words.head? ∧ s.protoFetch.2.words = s.words.tail

lemma filterMap_words (s : SoftRx) : s.words.filterMap RxWord.byte? = s.buffered := by
  have hring : (s.ringBytes.map RxWord.byte).filterMap RxWord.byte? = s.ringBytes := by
    rw [List.filterMap_map]
    exact List.filterMap_some
  rw [words, List.filterMap_append, hring]
  rfl

lemma take_fst {s : SoftRx} (h : s.Valid) : s.take.1 = s.ringBytes.head? := RingBuffer.pop_fst h

lemma take_snd {s : SoftRx} (h : s.Valid) : s.take.2.ringBytes = s.ringBytes.tail := by
  have hpop : s.ringBytes = s.take.1.toList ++ s.take.2.ringBytes := RingBuffer.contents_pop h
  have htaken := take_fst h
  cases hring : s.ringBytes with
  | nil =>
      rw [hring] at hpop
      exact (List.append_eq_nil_iff.mp hpop.symm).2
  | cons b rest =>
      rw [hring] at htaken
      rw [htaken, hring] at hpop
      exact (List.cons_injective hpop).symm

/-- The oldest byte survives a drain into a full ring. -/
lemma head?_softRxDrain {s : SoftRx} (h : s.Valid) :
    s.softRxDrain.ringBytes.head? = s.buffered.head? := by
  rw [(softRxDrain_eq h).2, List.head?_take, if_neg (by decide)]
  rfl

lemma softRxGet_serves {s : SoftRx} (h : s.Valid) :
    s.softRxGet.1 = s.buffered.head? ∧
      (s.buffered.length ≤ softRxSize - 1 → s.softRxGet.2.buffered = s.buffered.tail) := by
  have hdrain := drains_drainLoop h s.fifo.length
  have htaken : s.softRxGet.1 = s.buffered.head? :=
    (take_fst hdrain.valid).trans (head?_softRxDrain h)
  refine ⟨htaken, fun hroom => ?_⟩
  have htake : s.buffered = s.softRxGet.1.toList ++ s.softRxGet.2.buffered :=
    (hdrain.buffered_eq hroom).symm.trans (buffered_take hdrain.valid)
  rw [htaken] at htake
  cases hbuffered : s.buffered with
  | nil =>
      rw [hbuffered] at htake
      exact (List.append_eq_nil_iff.mp htake.symm).2
  | cons b rest =>
      rw [hbuffered] at htake
      exact (List.cons_injective htake).symm

lemma protoFetch_serves {s : SoftRx} (h : s.Valid) :
    s.protoFetch.1 = Fetch.ofWord s.words.head? ∧ s.protoFetch.2.words = s.words.tail := by
  by_cases hempty : s.ring.head = s.ring.tail
  · have hfetch : s.protoFetch =
        ((uartGetcSafe s.fifo).1, ⟨s.ring, (uartGetcSafe s.fifo).2⟩) := by
      rw [protoFetch, RingBuffer.pop, if_neg (not_not.mpr hempty)]
    have hafter : (SoftRx.mk s.ring (uartGetcSafe s.fifo).2).ringBytes = [] :=
      ringBytes_eq_nil h hempty
    rw [hfetch, words, words, ringBytes_eq_nil h hempty, hafter, List.map_nil, List.nil_append,
      List.nil_append]
    cases s.fifo with
    | nil => exact ⟨rfl, rfl⟩
    | cons w fifo =>
        cases w with
        | byte b => exact ⟨rfl, rfl⟩
        | lineError => exact ⟨rfl, rfl⟩
  · have hfetch : s.protoFetch = (.byte (s.ring.cells s.ring.tail), s.take.2) := by
      rw [protoFetch, take, RingBuffer.pop, if_pos hempty]
    have htaken : s.take.1 = some (s.ring.cells s.ring.tail) := by
      rw [take, RingBuffer.pop, if_pos hempty]
    have hhead := take_fst h
    have hrest := take_snd h
    rw [htaken] at hhead
    cases hring : s.ringBytes with
    | nil =>
        rw [hring] at hhead
        cases hhead
    | cons b rest =>
        rw [hring] at hhead hrest
        have hbyte : s.ring.cells s.ring.tail = b := Option.some_injective _ hhead
        rw [hfetch, words, words, hring, hrest, hbyte]
        exact ⟨rfl, rfl⟩

/-- **A fetch takes what is there.** -/
lemma serves {s : SoftRx} (h : s.Valid) : s.Serves :=
  ⟨⟨take_fst h, take_snd h, rfl⟩, softRxGet_serves h, protoFetch_serves h⟩

/-- No line error waits in the receive FIFO. -/
def Clean (s : SoftRx) : Prop := .lineError ∉ s.fifo

/-- Behind no line error, `proto_recv` takes the oldest byte that is buffered. -/
lemma protoFetch_of_clean {s : SoftRx} (h : s.Valid) (hclean : s.Clean) :
    s.protoFetch.1.byte? = s.buffered.head? ∧ s.protoFetch.2.buffered = s.buffered.tail := by
  obtain ⟨hfetch, hrest⟩ := protoFetch_serves h
  have hwords : .lineError ∉ s.words := by
    intro hmem
    rcases List.mem_append.mp hmem with hring | hfifo
    · obtain ⟨b, -, hb⟩ := List.mem_map.mp hring
      cases hb
    · exact hclean hfifo
  rw [hfetch, ← filterMap_words s.protoFetch.2, hrest, ← filterMap_words s]
  cases hall : s.words with
  | nil => exact ⟨rfl, rfl⟩
  | cons w rest =>
      cases w with
      | byte b => exact ⟨rfl, rfl⟩
      | lineError => exact absurd (hall ▸ List.mem_cons_self) hwords

end SoftRx

/-! ## Runs -/

/-- The events of which `soft_rx_drain` consists. -/
def RxEvent.Draining : RxEvent → Prop
  | arrive _ | turn | drain => True
  | take | get | fetch => False

namespace SoftRx

lemma drains_step {s : SoftRx} (h : s.Valid) {e : RxEvent} (he : e.Draining) :
    Drains s e.arrived.toList (s.step e).2 := by
  cases e with
  | arrive w => exact drains_arrive h w
  | turn => exact drains_drainTurn h
  | drain => exact drains_drainLoop h _
  | take => exact he.elim
  | get => exact he.elim
  | fetch => exact he.elim

lemma valid_step {s : SoftRx} (h : s.Valid) (e : RxEvent) : (s.step e).2.Valid := by
  cases e with
  | arrive w => exact h
  | turn => exact (drains_drainTurn h).valid
  | drain => exact (drains_drainLoop h _).valid
  | take => exact valid_take h
  | get => exact valid_take (drains_drainLoop h _).valid
  | fetch => exact (buffered_protoFetch h).1

/-- **A step keeps the bytes in order**, and loses none while there is room. -/
lemma buffered_step {s : SoftRx} (h : s.Valid) (hroom : s.buffered.length ≤ softRxSize - 1)
    (e : RxEvent) :
    s.buffered ++ e.arrived.toList = (s.step e).1.toList ++ (s.step e).2.buffered := by
  have hdrain := drains_drainLoop h s.fifo.length
  cases e with
  | arrive w =>
      show s.ringBytes ++ s.waiting ++ w.byte?.toList =
        [] ++ (s.ringBytes ++ (s.fifo ++ [w]).filterMap RxWord.byte?)
      rw [List.nil_append, List.filterMap_append, List.append_assoc]
      cases w with
      | byte b => rfl
      | lineError => rfl
  | turn =>
      show s.buffered ++ [] = [] ++ s.drainTurn.buffered
      rw [List.append_nil, List.nil_append, (drains_drainTurn h).buffered_eq hroom]
  | drain =>
      show s.buffered ++ [] = [] ++ (drainLoop s.fifo.length s).buffered
      rw [List.append_nil, List.nil_append, hdrain.buffered_eq hroom]
  | take =>
      show s.buffered ++ [] = s.take.1.toList ++ s.take.2.buffered
      rw [List.append_nil, ← buffered_take h]
  | get =>
      show s.buffered ++ [] = (drainLoop s.fifo.length s).take.1.toList ++
        (drainLoop s.fifo.length s).take.2.buffered
      rw [List.append_nil, ← buffered_take hdrain.valid, hdrain.buffered_eq hroom]
  | fetch =>
      show s.buffered ++ [] = s.protoFetch.1.byte?.toList ++ s.protoFetch.2.buffered
      rw [List.append_nil, ← (buffered_protoFetch h).2]

lemma valid_run {s : SoftRx} (h : s.Valid) (es : List RxEvent) : (s.run es).2.Valid := by
  induction es generalizing s with
  | nil => exact h
  | cons e es ih => exact ih (valid_step h e)

lemma arrivedBytes_cons (e : RxEvent) (es : List RxEvent) :
    arrivedBytes (e :: es) = e.arrived.toList ++ arrivedBytes es := by
  rw [arrivedBytes, List.filterMap_cons, arrivedBytes]
  cases e.arrived with
  | none => rfl
  | some b => rfl

/-- **A run keeps the bytes in order**, and loses none while there is room. -/
lemma buffered_run {s : SoftRx} (h : s.Valid) (es : List RxEvent)
    (hroom : ∀ front, front <+: es → (s.run front).2.buffered.length ≤ softRxSize - 1) :
    s.buffered ++ arrivedBytes es = (s.run es).1 ++ (s.run es).2.buffered := by
  induction es generalizing s with
  | nil =>
      show s.buffered ++ [] = [] ++ s.buffered
      rw [List.append_nil, List.nil_append]
  | cons e es ih =>
      have hstep := buffered_step h (hroom [] List.nil_prefix) e
      have hroom' : ∀ front, front <+: es →
          ((s.step e).2.run front).2.buffered.length ≤ softRxSize - 1 := by
        intro front hfront
        exact hroom (e :: front) (List.cons_prefix_cons.mpr ⟨rfl, hfront⟩)
      have hrest := ih (valid_step h e) hroom'
      rw [arrivedBytes_cons, ← List.append_assoc, hstep, List.append_assoc, hrest, run,
        List.append_assoc]

lemma clean_start : start.Clean := List.not_mem_nil

lemma clean_drainTurn {s : SoftRx} (h : s.Clean) : s.drainTurn.Clean := by
  obtain ⟨ring, fifo⟩ := s
  cases fifo with
  | nil => exact h
  | cons w fifo =>
      have hrest : .lineError ∉ fifo := fun hmem => h (List.mem_cons_of_mem w hmem)
      cases w with
      | byte b => exact hrest
      | lineError => exact hrest

lemma clean_protoFetch {s : SoftRx} (h : s.Clean) : s.protoFetch.2.Clean := by
  have hrest : .lineError ∉ (uartGetcSafe s.fifo).2 := by
    cases hfifo : s.fifo with
    | nil => exact List.not_mem_nil
    | cons w fifo =>
        have hall : .lineError ∉ w :: fifo := hfifo ▸ h
        have hleft : .lineError ∉ fifo := fun hmem => hall (List.mem_cons_of_mem w hmem)
        cases w with
        | byte b => exact hleft
        | lineError => exact hleft
  by_cases hempty : s.ring.head = s.ring.tail
  · rw [protoFetch, RingBuffer.pop, if_neg (not_not.mpr hempty)]
    exact hrest
  · rw [protoFetch, RingBuffer.pop, if_pos hempty]
    exact h

/-- Line errors do not come out of nowhere. -/
lemma clean_step {s : SoftRx} (h : s.Clean) {e : RxEvent} (he : e ≠ .arrive .lineError) :
    (s.step e).2.Clean := by
  have hdrained : s.softRxDrain.Clean := by
    rw [Clean, softRxDrain, drainLoop_fifo le_rfl]
    exact List.not_mem_nil
  cases e with
  | arrive w =>
      intro hmem
      rcases List.mem_append.mp hmem with hold | hnew
      · exact h hold
      · exact he (congrArg RxEvent.arrive (List.mem_singleton.mp hnew).symm)
  | turn => exact clean_drainTurn h
  | drain => exact hdrained
  | take => exact h
  | get => exact hdrained
  | fetch => exact clean_protoFetch h

lemma clean_run {s : SoftRx} (h : s.Clean) {es : List RxEvent}
    (hes : ∀ e ∈ es, e ≠ .arrive .lineError) : (s.run es).2.Clean := by
  induction es generalizing s with
  | nil => exact h
  | cons e es ih =>
      exact ih (clean_step h (hes e List.mem_cons_self))
        fun e' he' => hes e' (List.mem_cons_of_mem e he')

/-- A call that takes the oldest byte empties the buffer byte by byte. -/
lemma run_replicate {P : SoftRx → Prop} {e : RxEvent}
    (hstep : ∀ s, P s → P (s.step e).2 ∧ (s.step e).1 = s.buffered.head? ∧
      (s.step e).2.buffered = s.buffered.tail) {s : SoftRx} (h : P s) (n : ℕ) :
    (s.run (List.replicate n e)).1 = s.buffered.take n := by
  induction n generalizing s with
  | zero => rfl
  | succ n ih =>
      obtain ⟨hnext, hhead, htail⟩ := hstep s h
      rw [List.replicate_succ, run, ih hnext, hhead, htail]
      cases s.buffered with
      | nil => exact List.take_nil
      | cons b rest => rfl

/-- **`soft_rx_get` fetches all that is buffered.** -/
lemma run_get {s : SoftRx} (h : s.Valid) (hroom : s.buffered.length ≤ softRxSize - 1) (n : ℕ) :
    (s.run (List.replicate n .get)).1 = s.buffered.take n := by
  refine run_replicate (P := fun s => s.Valid ∧ s.buffered.length ≤ softRxSize - 1) ?_
    ⟨h, hroom⟩ n
  rintro s ⟨hvalid, hroom⟩
  obtain ⟨hhead, htail⟩ := softRxGet_serves hvalid
  refine ⟨⟨valid_step hvalid .get, ?_⟩, hhead, htail hroom⟩
  show s.softRxGet.2.buffered.length ≤ softRxSize - 1
  rw [htail hroom, List.length_tail]
  omega

/-- **`proto_recv` fetches all that is buffered**, behind no line error. -/
lemma run_fetch {s : SoftRx} (h : s.Valid) (hclean : s.Clean) (n : ℕ) :
    (s.run (List.replicate n .fetch)).1 = s.buffered.take n := by
  refine run_replicate (P := fun s => s.Valid ∧ s.Clean) ?_ ⟨h, hclean⟩ n
  rintro s ⟨hvalid, hclean⟩
  exact ⟨⟨valid_step hvalid .fetch, clean_protoFetch hclean⟩, protoFetch_of_clean hvalid hclean⟩

/-- **Draining keeps the oldest bytes.** -/
lemma drains_run {s : SoftRx} (h : s.Valid) {es : List RxEvent} (hes : ∀ e ∈ es, e.Draining) :
    Drains s (arrivedBytes es) (s.run es).2 := by
  induction es generalizing s with
  | nil => exact .refl h
  | cons e es ih =>
      have hstep := drains_step h (hes e List.mem_cons_self)
      rw [arrivedBytes_cons]
      exact hstep.trans (ih hstep.valid fun e' he' => hes e' (List.mem_cons_of_mem e he'))

end SoftRx

/-- **`soft_rx` is a FIFO.** -/
theorem soft_rx_is_fifo (es : List RxEvent) :
    (SoftRx.start.run es).2.ring.head < softRxSize ∧
      (SoftRx.start.run es).2.ring.tail < softRxSize ∧
      ((∀ front, front <+: es →
          (SoftRx.start.run front).2.buffered.length ≤ softRxSize - 1) →
        arrivedBytes es = (SoftRx.start.run es).1 ++ (SoftRx.start.run es).2.buffered ∧
          ∀ n, ((SoftRx.start.run es).2.run (List.replicate n .get)).1 =
            (SoftRx.start.run es).2.buffered.take n) ∧
      (SoftRx.start.run es).2.Serves ∧
      ((∀ e ∈ es, e ≠ .arrive .lineError) →
        (SoftRx.start.run es).2.protoFetch.1.byte? =
            (SoftRx.start.run es).2.buffered.head? ∧
          ∀ n, ((SoftRx.start.run es).2.run (List.replicate n .fetch)).1 =
            (SoftRx.start.run es).2.buffered.take n) ∧
      (SoftRx.start.run es).2.softRxDrain.fifo = [] ∧
      (SoftRx.start.run es).2.softRxDrain.ringBytes =
        (SoftRx.start.run es).2.buffered.take (softRxSize - 1) ∧
      ∀ drain : List RxEvent, (∀ e ∈ drain, e.Draining) →
        ∃ moved,
          (SoftRx.start.run es).2.waiting ++ arrivedBytes drain =
            moved ++ ((SoftRx.start.run es).2.run drain).2.waiting ∧
          ((SoftRx.start.run es).2.run drain).2.ringBytes =
            ((SoftRx.start.run es).2.ringBytes ++ moved).take (softRxSize - 1) := by
  have hvalid := SoftRx.valid_run SoftRx.valid_start es
  have hdrained := SoftRx.softRxDrain_eq hvalid
  refine ⟨hvalid.head_lt, hvalid.tail_lt, fun hroom => ⟨?_, ?_⟩, SoftRx.serves hvalid,
    fun hes => ⟨?_, ?_⟩, hdrained.1, hdrained.2,
    fun drain hdrain => (SoftRx.drains_run hvalid hdrain).moves⟩
  · exact SoftRx.buffered_run SoftRx.valid_start es hroom
  · exact SoftRx.run_get hvalid (hroom es List.prefix_rfl)
  · exact (SoftRx.protoFetch_of_clean hvalid (SoftRx.clean_run SoftRx.clean_start hes)).1
  · exact SoftRx.run_fetch hvalid (SoftRx.clean_run SoftRx.clean_start hes)

/-- A byte that goes through the ring, one that goes past it, and two that are left. -/
def someEvents : List RxEvent :=
  [.arrive (.byte 1), .drain, .arrive (.byte 2), .fetch, .fetch, .arrive (.byte 3), .turn,
    .arrive (.byte 4)]

theorem soft_rx_is_fifo_some_events :
    (∀ front, front <+: someEvents →
        (SoftRx.start.run front).2.buffered.length ≤ softRxSize - 1) ∧
      arrivedBytes someEvents = [1, 2] ++ [3, 4] ∧
      ((SoftRx.start.run someEvents).2.run (List.replicate 2 .get)).1 = [3, 4] ∧
      (SoftRx.start.run someEvents).2.Serves ∧
      (SoftRx.start.run someEvents).2.protoFetch.1.byte? = some 3 ∧
      ((SoftRx.start.run someEvents).2.run (List.replicate 2 .fetch)).1 = [3, 4] ∧
      ∃ moved,
        (SoftRx.start.run someEvents).2.waiting ++ arrivedBytes [.turn] =
          moved ++ ((SoftRx.start.run someEvents).2.run [.turn]).2.waiting ∧
        ((SoftRx.start.run someEvents).2.run [.turn]).2.ringBytes =
          ((SoftRx.start.run someEvents).2.ringBytes ++ moved).take (softRxSize - 1) := by
  have hroom : ∀ front, front <+: someEvents →
      (SoftRx.start.run front).2.buffered.length ≤ softRxSize - 1 := by
    intro front hfront
    have hall : ∀ front ∈ someEvents.inits,
        (SoftRx.start.run front).2.buffered.length ≤ softRxSize - 1 :=
      forall_mem_of_all (by decide +kernel)
    exact hall front ((List.mem_inits front someEvents).mpr hfront)
  have hes : ∀ e ∈ someEvents, e ≠ .arrive .lineError := by decide
  have hfetched : (SoftRx.start.run someEvents).1 = [1, 2] := by decide +kernel
  have hleft : (SoftRx.start.run someEvents).2.buffered = [3, 4] := by decide +kernel
  obtain ⟨-, -, hfifo, hserves, hclean, -, -, hdrain⟩ := soft_rx_is_fifo someEvents
  obtain ⟨harrived, hget⟩ := hfifo hroom
  obtain ⟨hhead, hfetch⟩ := hclean hes
  rw [hleft] at hhead
  rw [hfetched, hleft] at harrived
  refine ⟨hroom, harrived, ?_, hserves, hhead, ?_, hdrain [.turn] fun e he => ?_⟩
  · rw [hget 2, hleft]
    rfl
  · rw [hfetch 2, hleft]
    rfl
  · rw [List.mem_singleton.mp he]
    trivial

end Defib
