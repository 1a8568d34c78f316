import Defib.Agent.Baud
import Defib.Agent.FlashCommands

/-!
# The flash behind `handle_flash_stream`

`FlashEvent.apply` gives the driver calls their meaning on the cells of a flash: an erase sets one
whole sector to `0xFF`, and a page program ANDs its bytes in.  `applyEvents_programPages` is what
`erase_and_program` leaves behind, page by page, and `StreamAgent` is the agent as the other end
of a link: its flash, and where it is in the command.
-/

namespace Defib

/-! ## Cells -/

/-- A driver call on the cells of a flash. -/
def FlashEvent.apply (g : Geometry) (flash : Store UInt8) : FlashEvent → Store UInt8
  | .erase addr => fun x => if x / g.sectorSize = addr / g.sectorSize then 0xFF else flash x
  | .program addr data => fun x =>
      if addr ≤ x ∧ x < addr + data.length then flash x &&& data.getD (x - addr) 0xFF else flash x
  | .send _ => flash

/-- A sequence of driver calls. -/
def applyEvents (g : Geometry) (flash : Store UInt8) (events : List FlashEvent) : Store UInt8 :=
  events.foldl (FlashEvent.apply g) flash

/-- The packet of an event, if it is one. -/
def FlashEvent.packet? : FlashEvent → Option Packet
  | .send p => some p
  | _ => none

/-- The packets a handler sends. -/
def packetsOf (events : List FlashEvent) : List Packet := events.filterMap FlashEvent.packet?

section Events

variable (g : Geometry) (flash : Store UInt8)

@[simp] lemma applyEvents_nil : applyEvents g flash [] = flash := rfl

@[simp] lemma applyEvents_cons (e : FlashEvent) (es : List FlashEvent) :
    applyEvents g flash (e :: es) = applyEvents g (e.apply g flash) es := rfl

@[simp] lemma applyEvents_append (es es' : List FlashEvent) :
    applyEvents g flash (es ++ es') = applyEvents g (applyEvents g flash es) es' :=
  List.foldl_append

@[simp] lemma apply_send (p : Packet) : (FlashEvent.send p).apply g flash = flash := rfl

@[simp] lemma packetsOf_nil : packetsOf [] = [] := rfl

@[simp] lemma packetsOf_append (es es' : List FlashEvent) :
    packetsOf (es ++ es') = packetsOf es ++ packetsOf es' := List.filterMap_append

@[simp] lemma packetsOf_send (p : Packet) (es : List FlashEvent) :
    packetsOf (.send p :: es) = p :: packetsOf es := rfl

@[simp] lemma packetsOf_erase (addr : ℕ) (es : List FlashEvent) :
    packetsOf (.erase addr :: es) = packetsOf es := rfl

end Events

/-! ## Pages -/

/-- The page that holds a byte, as the page loop cuts it. -/
def pageOf (pageSize : ℕ) (data : List UInt8) (i : ℕ) : List UInt8 :=
  (data.drop (i / pageSize * pageSize)).take pageSize

/-- What the page loop leaves of a byte on an erased flash: pages that `page_is_ff` accepts are
not programmed. -/
def programmed (pageSize : ℕ) (data : List UInt8) (i : ℕ) : UInt8 :=
  if pageIsFf (pageOf pageSize data i) then 0xFF else data.getD i 0xFF

section Pages

variable {g : Geometry}

@[simp] lemma packetsOf_programPages (addr : ℕ) (buf : List UInt8) :
    packetsOf (programPages g addr buf) = [] := by
  refine List.filterMap_eq_nil_iff.mpr fun e he => ?_
  obtain ⟨p, -, hp⟩ := List.mem_filterMap.mp he
  simp only at hp
  split at hp
  · cases hp
  · cases hp
    rfl

lemma and_ff (x : UInt8) : x &&& 0xFF = x := by
  rw [show (0xFF : UInt8) = -1 by decide, UInt8.and_neg_one]

/-- A piece of the page loop is the page of each of its bytes. -/
lemma pageOf_eq {pageSize a n : ℕ} (ha : a % pageSize = 0) {buf : List UInt8}
    (hn : a + n = buf.length) {i : ℕ} (hlo : a ≤ i)
    (hhi : i < a + (if n > pageSize then pageSize else n)) :
    pageOf pageSize buf i = (buf.drop a).take (if n > pageSize then pageSize else n) := by
  have hi : i / pageSize * pageSize = a := by
    obtain ⟨q, rfl⟩ := Nat.dvd_of_mod_eq_zero ha
    have hdiv : i / pageSize = q := by
      refine Nat.div_eq_of_lt_le (by rwa [Nat.mul_comm]) ?_
      rw [Nat.add_mul, Nat.one_mul, Nat.mul_comm q]
      split at hhi <;> omega
    rw [hdiv, Nat.mul_comm]
  rw [pageOf, hi]
  split
  · rfl
  · rw [List.take_of_length_le, List.take_of_length_le] <;> simp <;> omega

/-- One page of the loop. -/
lemma applyEvents_page {addr a n : ℕ} {buf : List UInt8} (ha : a % g.pageSize = 0)
    (hn : a + n = buf.length) (hfit : addr + buf.length < 2 ^ 32) (flash : Store UInt8) (x : ℕ) :
    let k := if n > g.pageSize then g.pageSize else n
    applyEvents g flash (if pageIsFf ((buf.drop a).take k) then none
      else some (FlashEvent.program (add32 addr a) ((buf.drop a).take k))).toList x =
      if addr + a ≤ x ∧ x < addr + a + k then
        flash x &&& programmed g.pageSize buf (x - addr) else flash x := by
  intro k
  have hk : k ≤ n := by
    simp only [k]
    split <;> omega
  have hlen : ((buf.drop a).take k).length = k := by simp; omega
  have hadd : add32 addr a = addr + a := add32_of_lt (by omega)
  by_cases hx : addr + a ≤ x ∧ x < addr + a + k
  · have hpage : pageOf g.pageSize buf (x - addr) = (buf.drop a).take k :=
      pageOf_eq ha hn (by omega) (by omega)
    rw [if_pos hx, programmed, hpage]
    split
    · simp [and_ff]
    · have hbyte : ((buf.drop a).take k).getD (x - (addr + a)) 0xFF = buf.getD (x - addr) 0xFF := by
        rw [List.getD_eq_getElem?_getD, List.getElem?_take_of_lt (by omega), List.getElem?_drop,
          List.getD_eq_getElem?_getD, show a + (x - (addr + a)) = x - addr by omega]
      simp only [Option.toList_some, applyEvents_cons, applyEvents_nil, FlashEvent.apply, hadd,
        hlen, hx, and_self, if_true, hbyte]
  · rw [if_neg hx]
    split
    · rfl
    · simp only [Option.toList_some, applyEvents_cons, applyEvents_nil, FlashEvent.apply, hadd,
        hlen, hx, if_false]

lemma filterMap_cons_toList {α β : Type*} (f : α → Option β) (a : α) (l : List α) :
    (a :: l).filterMap f = (f a).toList ++ l.filterMap f := by
  rw [List.filterMap_cons]
  cases f a <;> rfl

/-- The page loop from a page boundary on. -/
lemma applyEvents_pages {addr : ℕ} {buf : List UInt8} (hfit : addr + buf.length < 2 ^ 32)
    (a n : ℕ) (flash : Store UInt8) (x : ℕ) (ha : 0 < n → a % g.pageSize = 0)
    (hn : a + n = buf.length) :
    applyEvents g flash (((Cut.upTo g.pageSize g.page_pos).pieces a n).filterMap fun p =>
      if pageIsFf ((buf.drop p.1).take p.2) then none
      else some (.program (add32 addr p.1) ((buf.drop p.1).take p.2))) x =
      if addr + a ≤ x ∧ x < addr + a + n then
        flash x &&& programmed g.pageSize buf (x - addr) else flash x := by
  revert flash ha hn
  refine (Cut.upTo g.pageSize g.page_pos).pieces_induction (motive := fun a n =>
    ∀ flash : Store UInt8, (0 < n → a % g.pageSize = 0) → a + n = buf.length →
      applyEvents g flash (((Cut.upTo g.pageSize g.page_pos).pieces a n).filterMap fun p =>
        if pageIsFf ((buf.drop p.1).take p.2) then none
        else some (.program (add32 addr p.1) ((buf.drop p.1).take p.2))) x =
        if addr + a ≤ x ∧ x < addr + a + n then
          flash x &&& programmed g.pageSize buf (x - addr) else flash x)
    (fun a flash _ _ => ?_) (fun a n hpos ih flash ha hn => ?_) a n
  · rw [Cut.pieces_zero, if_neg (by omega)]
    rfl
  · have hone := applyEvents_page (ha hpos) hn hfit flash x
    have hk : (Cut.upTo g.pageSize g.page_pos).first a n =
        if n > g.pageSize then g.pageSize else n := rfl
    rw [Cut.pieces_of_pos _ _ hpos, filterMap_cons_toList, applyEvents_append]
    simp only at hone
    rw [hk] at ih ⊢
    generalize hgen : (if n > g.pageSize then g.pageSize else n) = k at hone ih ⊢
    have hkn : k ≤ n := by split at hgen <;> omega
    -- only the last page can end off a page boundary
    have hnext : 0 < n - k → (a + k) % g.pageSize = 0 := by
      intro hlast
      split at hgen
      · rw [← hgen, Nat.add_mod_right]
        exact ha hpos
      · omega
    rw [ih _ hnext (by omega), hone]
    split_ifs <;> first | rfl | omega

/-- **The page loop.**  Everything the buffer covers is programmed, everything else is kept. -/
lemma applyEvents_programPages {addr : ℕ} {buf : List UInt8} (hfit : addr + buf.length < 2 ^ 32)
    (flash : Store UInt8) (x : ℕ) :
    applyEvents g flash (programPages g addr buf) x =
      if addr ≤ x ∧ x < addr + buf.length then
        flash x &&& programmed g.pageSize buf (x - addr) else flash x := by
  have h := applyEvents_pages (g := g) hfit 0 buf.length flash x (fun _ => Nat.zero_mod _)
    (by omega)
  rw [Nat.add_zero] at h
  exact h

end Pages

/-! ## What a stream leaves behind -/

/-- A flash that never fails an erase; a stream reads nothing else of it. -/
def idealChip : Chip := ⟨fun _ => true, fun _ => (0, 0, 0), fun _ => 0xFF⟩

/-- The replies of a stream that goes through, counted from zero: `ACK_OK`, a progress report per
sector, and the final `ACK_OK`. -/
def streamReply (numSectors k : ℕ) : Packet :=
  if k = 0 ∨ k = numSectors + 1 then ackPacket ackOk else progressPacket k numSectors

/-- The replies from one count up to another. -/
def streamReplies (numSectors e e' : ℕ) : List Packet :=
  (List.range' e (e' - e)).map (streamReply numSectors)

lemma streamReplies_self (num e : ℕ) : streamReplies num e e = [] := by simp [streamReplies]

lemma length_streamReplies (num e e' : ℕ) : (streamReplies num e e').length = e' - e := by
  rw [streamReplies, List.length_map, List.length_range']

lemma streamReplies_append (num : ℕ) {e e' e'' : ℕ} (h : e ≤ e') (h' : e' ≤ e'') :
    streamReplies num e e' ++ streamReplies num e' e'' = streamReplies num e e'' := by
  rw [streamReplies, streamReplies, streamReplies, ← List.map_append]
  have hmid : e' = e + 1 * (e' - e) := by omega
  conv_lhs => rw [hmid]
  rw [show e + 1 * (e' - e) - e = e' - e by omega, List.range'_append,
    show e' - e + (e'' - (e + 1 * (e' - e))) = e'' - e by omega]

lemma streamReplies_cons (num : ℕ) {e e' : ℕ} (h : e < e') :
    streamReplies num e e' = streamReply num e :: streamReplies num (e + 1) e' := by
  rw [streamReplies, streamReplies, show e' - e = e' - (e + 1) + 1 by omega, List.range'_succ,
    List.map_cons]

section Stream

variable (b : Board) (g : Geometry) (req : StreamReq) (content : ℕ → List UInt8)
  (init : Store UInt8)

/-- The driver calls for a sector with the given content. -/
def sectorEvents (s : ℕ) : List FlashEvent :=
  let addr := add32 req.flashAddr (s * g.sectorSize)
  if bitmapBit req.bitmap s then (eraseAndProgram g idealChip addr (content s)).1 else [.erase addr]

/-- The flash once the first `k` sectors are done. -/
def flashAfter (k : ℕ) : Store UInt8 :=
  applyEvents g init ((List.range k).flatMap (sectorEvents g req content))

lemma flashAfter_succ (k : ℕ) : flashAfter g req content init (k + 1) =
    applyEvents g (flashAfter g req content init k) (sectorEvents g req content k) := by
  rw [flashAfter, flashAfter, List.range_succ, List.flatMap_append, List.flatMap_cons,
    List.flatMap_nil, List.append_nil, applyEvents_append]

/-- The flash is one pending sector behind the loop. -/
structure CaughtUp (flash ram : Store UInt8) (rxBuf : Bool) (pending : Option PendingSector)
    (s : ℕ) : Prop where
  after : applyEvents g flash (processPending b g idealChip ram pending).1 =
    flashAfter g req content init s
  other : ∀ p ∈ pending, p.buf = !rxBuf ∧ p.bytes ≤ g.sectorSize

/-- A stream that waits for the rest of a sector. -/
structure Receiving (flash : Store UInt8) (st : StreamState) : Prop where
  s_lt : st.s < req.numSectors g
  announced : bitmapBit req.bitmap st.s = true
  behind : CaughtUp b g req content init flash st.ram st.rxBuf st.pending st.s
  partly : st.bufReceived < req.sectorBytes g st.s
  filled : st.ram.load (bufAddr b st.rxBuf) st.bufReceived = (content st.s).take st.bufReceived

/-- Where a stream is: how many replies it has sent, and how much of the current sector it has. -/
inductive StreamAt (flash : Store UInt8) : Option StreamState → ℕ → ℕ → Prop
  | waiting (st : StreamState) (h : Receiving b g req content init flash st) :
      StreamAt flash (some st) (st.s + 1) st.bufReceived
  | done (h : flash = flashAfter g req content init (req.numSectors g)) :
      StreamAt flash none (req.numSectors g + 2) 0

/-- What a stream does between two waits: from `e` replies and sector `s` on it comes to `e'`
replies and `r'` bytes, and every sector it passes on the way is announced as empty. -/
structure Advanced (flash : Store UInt8) (e s : ℕ) (next : Option StreamState × List FlashEvent)
    (e' r' : ℕ) : Prop where
  le : e ≤ e'
  replies : packetsOf next.2 = streamReplies (req.numSectors g) e e'
  skipped : ∀ i, s ≤ i → i + 1 < e' → i < req.numSectors g → bitmapBit req.bitmap i = false
  reached : StreamAt b g req content init (applyEvents g flash next.2) next.1 e' r'

end Stream

section StreamProofs

variable {b : Board} {g : Geometry} {req : StreamReq} {content : ℕ → List UInt8}
  {init : Store UInt8}

lemma processPending_none (ram : Store UInt8) :
    processPending b g idealChip ram none = ([], true) := rfl

lemma processPending_ok (ram : Store UInt8) (pending : Option PendingSector) :
    (processPending b g idealChip ram pending).2 = true := by
  cases pending with
  | none => rfl
  | some p => rfl

lemma packetsOf_processPending (ram : Store UInt8) (pending : Option PendingSector) :
    packetsOf (processPending b g idealChip ram pending).1 = [] := by
  cases pending with
  | none => rfl
  | some p => exact packetsOf_programPages p.addr _

lemma StreamReq.sectorBytes_pos {s : ℕ} (hs : s * g.sectorSize < req.size) :
    0 < req.sectorBytes g s := by
  have := g.sector_pos
  unfold StreamReq.sectorBytes
  split <;> omega

/-- **The loop over sectors between two waits.** -/
lemma streamAdvance_advanced (hsize : ∀ s < req.numSectors g, s * g.sectorSize < req.size)
    (left : ℕ) (st : StreamState) (flash : Store UInt8) (hleft : st.s + left = req.numSectors g)
    (hbehind : CaughtUp b g req content init flash st.ram st.rxBuf st.pending st.s) :
    ∃ e', Advanced b g req content init flash (st.s + 1) st.s
      (streamAdvance b g idealChip req left st) e' 0 := by
  induction left generalizing st flash with
  | zero =>
      have hok : (processPending b g idealChip st.ram st.pending).2 = true :=
        processPending_ok _ _
      have hs : st.s = req.numSectors g := by omega
      refine ⟨req.numSectors g + 2, by omega, ?_, fun i hi _ hlt => by omega, ?_⟩
      · simp only [streamAdvance, hok, if_true, packetsOf_append, packetsOf_processPending,
          sendAck, packetsOf_send, packetsOf_nil, List.nil_append, hs]
        rw [streamReplies_cons _ (by omega), streamReplies_self, streamReply, if_pos (.inr rfl)]
      · refine .done ?_
        simp only [streamAdvance, hok, if_true, applyEvents_append, hbehind.after, sendAck,
          applyEvents_cons, apply_send, applyEvents_nil, hs]
  | succ left ih =>
      have hs : st.s < req.numSectors g := by omega
      rw [streamAdvance]
      by_cases hbit : bitmapBit req.bitmap st.s = true
      · rw [if_pos hbit]
        have hpos := StreamReq.sectorBytes_pos (hsize _ hs)
        refine ⟨st.s + 1, Nat.le_refl _, by rw [streamReplies_self]; rfl,
          fun i hi hlt _ => by omega, ?_⟩
        exact .waiting { st with bufReceived := 0 } ⟨hs, hbit, hbehind, hpos, rfl⟩
      · rw [if_neg hbit]
        have hok : (processPending b g idealChip st.ram st.pending).2 = true :=
          processPending_ok _ _
        have herase : idealChip.eraseOk (add32 req.flashAddr (st.s * g.sectorSize)) = true := rfl
        simp only [hok, if_true, herase]
        -- the skipped sector is erased, and nothing is pending any more
        have hnext : CaughtUp b g req content init
            (applyEvents g flash ((processPending b g idealChip st.ram st.pending).1 ++
              [.erase (add32 req.flashAddr (st.s * g.sectorSize)),
                .send (progressPacket (st.s + 1) (req.numSectors g))]))
            st.ram st.rxBuf none (st.s + 1) := by
          constructor
          · rw [flashAfter_succ, sectorEvents, if_neg hbit]
            simp only [applyEvents_append, hbehind.after, processPending_none, applyEvents_cons,
              apply_send, applyEvents_nil]
          · simp
        obtain ⟨e', hle, hreplies, hskipped, hreached⟩ :=
          ih { st with s := st.s + 1, pending := none } _ (by simp only; omega) hnext
        simp only at hle
        refine ⟨e', by omega, ?_, fun i hi hlt hnum => ?_, ?_⟩
        · simp only [packetsOf_append, packetsOf_processPending, packetsOf_erase, packetsOf_send,
            packetsOf_nil, List.nil_append, hreplies]
          rw [streamReplies_cons (e := st.s + 1) _ (by omega), streamReply, if_neg (by omega)]
          rfl
        · rcases Nat.eq_or_lt_of_le hi with rfl | hi
          · simpa using hbit
          · exact hskipped i hi hlt hnum
        · rw [applyEvents_append]
          exact hreached

/-- The two buffers do not overlap. -/
lemma bufAddr_disjoint (b : Board) {i i' : Bool} (h : i' = !i) {n k : ℕ} (hn : n ≤ 0x20000)
    (hk : k ≤ 0x20000) :
    bufAddr b i' + k ≤ bufAddr b i ∨ bufAddr b i + n ≤ bufAddr b i' := by
  subst h
  cases i with
  | false => exact .inr (by simp [bufAddr]; omega)
  | true => exact .inl (by simp [bufAddr]; omega)

/-- Receiving into one buffer leaves the pending sector in the other one alone. -/
lemma CaughtUp.write {flash ram : Store UInt8} {rxBuf : Bool} {pending : Option PendingSector}
    {s : ℕ} (h : CaughtUp b g req content init flash ram rxBuf pending s) (off : ℕ)
    (chunk : List UInt8) (hfit : off + chunk.length ≤ g.sectorSize) :
    CaughtUp b g req content init flash (ram.write (bufAddr b rxBuf + off) chunk) rxBuf pending
      s := by
  refine ⟨?_, h.other⟩
  rw [← h.after]
  cases pending with
  | none => rfl
  | some p =>
      obtain ⟨hbuf, hbytes⟩ := h.other p rfl
      have hsector := g.sector_le
      have hdisj := bufAddr_disjoint b hbuf (n := off + chunk.length) (k := p.bytes)
        (by omega) (by omega)
      rw [processPending, processPending, Store.load_write_of_disjoint]
      omega

lemma StreamReq.sectorBytes_le_sector (req : StreamReq) (s : ℕ) :
    req.sectorBytes g s ≤ g.sectorSize := by
  unfold StreamReq.sectorBytes
  split <;> omega

/-- What `buf[rx_buf]` holds after a packet. -/
lemma load_copyIn {ram : Store UInt8} {dest off : ℕ} {bytes chunk : List UInt8}
    (hfilled : ram.load dest off = bytes.take off)
    (hchunk : chunk = (bytes.drop off).take chunk.length) :
    (ram.write (dest + off) chunk).load dest (off + chunk.length) =
      bytes.take (off + chunk.length) := by
  rw [Store.load_add, Store.load_write_of_disjoint _ (.inl (Nat.le_refl _)), hfilled,
    Store.load_write_self, List.take_add]
  congr 1

/-- **One data packet of a sector.**  `chunk` is the next part of the announced content: either
more is to come, or the sector is complete and the loop goes on. -/
lemma streamRecv_advanced (hsize : ∀ s < req.numSectors g, s * g.sectorSize < req.size)
    (hcontent : ∀ s < req.numSectors g, (content s).length = req.sectorBytes g s)
    {flash : Store UInt8} {st : StreamState} (h : Receiving b g req content init flash st)
    (hdr chunk : List UInt8) (hhdr : hdr.length = 2) (hne : chunk ≠ [])
    (hchunk : chunk = ((content st.s).drop st.bufReceived).take chunk.length)
    (hle : st.bufReceived + chunk.length ≤ req.sectorBytes g st.s) :
    (st.bufReceived + chunk.length < req.sectorBytes g st.s ∧
      Advanced b g req content init flash (st.s + 1) (st.s + 1)
        (streamRecv b g idealChip req st ⟨rspData, hdr ++ chunk⟩) (st.s + 1)
        (st.bufReceived + chunk.length)) ∨
    (st.bufReceived + chunk.length = req.sectorBytes g st.s ∧ ∃ e', st.s + 1 < e' ∧
      Advanced b g req content init flash (st.s + 1) (st.s + 1)
        (streamRecv b g idealChip req st ⟨rspData, hdr ++ chunk⟩) e' 0) := by
  have hdrop : (hdr ++ chunk).drop 2 = chunk := List.drop_left' hhdr
  have hlong : (hdr ++ chunk).length > 2 := by
    have := List.length_pos_iff.mpr hne
    rw [List.length_append]
    omega
  have hcopy : copyIn st.ram (bufAddr b st.rxBuf) st.bufReceived (req.sectorBytes g st.s)
      (hdr ++ chunk) = (st.ram.write (bufAddr b st.rxBuf + st.bufReceived) chunk,
        st.bufReceived + chunk.length) := by
    rw [copyIn, hdrop, List.take_of_length_le (by omega)]
  have hs := h.s_lt
  have hbytes := req.sectorBytes_le_sector (g := g) st.s
  have hbehind := h.behind.write st.bufReceived chunk (by omega)
  have hload := load_copyIn h.filled hchunk
  rw [streamRecv, if_pos ⟨rfl, hlong⟩]
  simp only [hcopy]
  by_cases hlt : st.bufReceived + chunk.length < req.sectorBytes g st.s
  · rw [if_pos hlt]
    refine .inl ⟨hlt, Nat.le_refl _, by rw [streamReplies_self]; rfl,
      fun i hi hi' _ => by omega, ?_⟩
    exact .waiting { st with
      ram := st.ram.write (bufAddr b st.rxBuf + st.bufReceived) chunk
      bufReceived := st.bufReceived + chunk.length } ⟨hs, h.announced, hbehind, hlt, hload⟩
  · rw [if_neg hlt]
    have hfull : st.bufReceived + chunk.length = req.sectorBytes g st.s := by omega
    rw [hfull, List.take_of_length_le (by rw [hcontent _ hs])] at hload
    generalize st.ram.write (bufAddr b st.rxBuf + st.bufReceived) chunk = ram at hbehind hload
    have hok : (processPending b g idealChip ram st.pending).2 = true := processPending_ok _ _
    simp only [hok, if_true]
    -- the sector before this one is done, and this one becomes the pending one
    have hnext : CaughtUp b g req content init
        (applyEvents g flash (processPending b g idealChip ram st.pending).1) ram (!st.rxBuf)
        (some ⟨st.rxBuf, add32 req.flashAddr (st.s * g.sectorSize), req.sectorBytes g st.s⟩)
        (st.s + 1) := by
      constructor
      · rw [flashAfter_succ, sectorEvents, if_pos h.announced, hbehind.after, processPending,
          hload]
      · rintro p ⟨⟩
        exact ⟨by simp, hbytes⟩
    obtain ⟨e', hle', hreplies, hskipped, hreached⟩ := streamAdvance_advanced hsize
      (req.numSectors g - (st.s + 1))
      { ram := ram
        s := st.s + 1
        rxBuf := !st.rxBuf
        pending := some ⟨st.rxBuf, add32 req.flashAddr (st.s * g.sectorSize),
          req.sectorBytes g st.s⟩
        totalReceived := st.totalReceived + req.sectorBytes g st.s
        bufReceived := 0 } _ (by simp only; omega) hnext
    simp only at hle'
    refine .inr ⟨hfull, e', by omega, by omega, ?_, hskipped, ?_⟩
    · simp only [packetsOf_send, packetsOf_append, packetsOf_processPending, List.nil_append,
        hreplies]
      rw [streamReplies_cons (e := st.s + 1) _ (by omega), streamReply, if_neg (by omega)]
    · simp only [applyEvents_cons, apply_send, applyEvents_append]
      exact hreached

end StreamProofs

/-! ## The agent on a link -/

/-- The answer of the main loop to a packet that starts no transfer.  Everything but `CMD_SET_BAUD`
and `CMD_INFO` gets the one of the default case: the clients of these sessions send no other
command.  `info` is what `handle_info` sends. -/
def mainLoopAnswer (info : List UInt8) (p : Packet) : Packet :=
  if p.cmd = cmdSetBaud then ackPacket (setBaudStatus p.data)
  else if p.cmd = cmdInfo then ⟨rspInfo, info⟩
  else ackPacket ackCrcError

/-- Where the agent is: in its main loop, in a stream, or back from one. -/
inductive AgentPhase
  | ready (ram : Store UInt8)
  | streaming (g : Geometry) (req : StreamReq) (st : StreamState)
  | finished

/-- The driver calls on the flash of a board. -/
def Board.applyEvents (b : Board) (flash : Store UInt8) (events : List FlashEvent) :
    Store UInt8 :=
  match b.geometry with
  | none => flash
  | some g => Defib.applyEvents g flash events

lemma Board.applyEvents_eq {b : Board} {g : Geometry} (h : b.geometry = some g)
    (flash : Store UInt8) (events : List FlashEvent) :
    b.applyEvents flash events = Defib.applyEvents g flash events := by
  rw [Board.applyEvents, h]

lemma Board.applyEvents_append (b : Board) (flash : Store UInt8)
    (events events' : List FlashEvent) : b.applyEvents flash (events ++ events') =
      b.applyEvents (b.applyEvents flash events) events' := by
  unfold Board.applyEvents
  cases b.geometry with
  | none => rfl
  | some g => exact Defib.applyEvents_append g flash events events'

/-- The agent and its flash. -/
structure StreamAgent where
  flash : Store UInt8
  phase : AgentPhase

namespace StreamAgent

/-- The phase a stream leaves the agent in. -/
def phaseOf (g : Geometry) (req : StreamReq) : Option StreamState → AgentPhase
  | none => .finished
  | some st => .streaming g req st

lemma phaseOf_eq_finished {g : Geometry} {req : StreamReq} {next : Option StreamState} :
    phaseOf g req next = .finished ↔ next = none := by
  cases next with
  | none => simp [phaseOf]
  | some st => simp [phaseOf]

/-- `handle_flash_stream` up to its first wait, for a payload of `len` bytes. -/
def begin (b : Board) (ram : Store UInt8) (len : ℕ) (req : StreamReq) :
    AgentPhase × List FlashEvent :=
  match b.geometry with
  | none => (.ready ram, [sendAck ackFlashError])
  | some g =>
      match streamBegin b g idealChip ram len req with
      | .error status => (.ready ram, [sendAck status])
      | .ok next => (phaseOf g req next.1, sendAck ackOk :: next.2)

/-- What a packet makes the agent do: where it comes to, and its driver calls and packets until it
waits again. -/
def react (b : Board) (info : List UInt8) : AgentPhase → Packet → AgentPhase × List FlashEvent
  | .ready ram, p =>
      if p.cmd = cmdFlashStream then
        if p.data.length < 12 then (.ready ram, [sendAck ackCrcError])
        else begin b ram p.data.length (streamReq p.data)
      else (.ready ram, [.send (mainLoopAnswer info p)])
  | .streaming g req st, p =>
      let next := streamRecv b g idealChip req st p
      (phaseOf g req next.1, next.2)
  | .finished, p => (.finished, [.send (mainLoopAnswer info p)])

/-- The agent receives a packet, and does all it makes it do. -/
def recv (b : Board) (info : List UInt8) (a : StreamAgent) (p : Packet) :
    StreamAgent × List Packet :=
  let r := react b info a.phase p
  (⟨b.applyEvents a.flash r.2, r.1⟩, packetsOf r.2)

/-- Carry out what a stream does up to its next wait. -/
def resume (g : Geometry) (req : StreamReq) (flash : Store UInt8)
    (next : Option StreamState × List FlashEvent) : StreamAgent × List Packet :=
  (⟨applyEvents g flash next.2, phaseOf g req next.1⟩, packetsOf next.2)

section Recv

variable {b : Board} {g : Geometry} (info : List UInt8) {flash ram : Store UInt8} {p : Packet}
  {req : StreamReq}

/-- A stream command that passes every check. -/
lemma react_stream {next : Option StreamState × List FlashEvent} (hg : b.geometry = some g)
    (hcmd : p.cmd = cmdFlashStream) (hlen : ¬ p.data.length < 12) (hreq : streamReq p.data = req)
    (hbegin : streamBegin b g idealChip ram p.data.length req = .ok next) :
    react b info (.ready ram) p = (phaseOf g req next.1, sendAck ackOk :: next.2) := by
  rw [react, if_pos hcmd, if_neg hlen, hreq]
  simp only [begin, hg, hbegin]

lemma recv_stream {next : Option StreamState × List FlashEvent} (hg : b.geometry = some g)
    (hcmd : p.cmd = cmdFlashStream) (hlen : ¬ p.data.length < 12) (hreq : streamReq p.data = req)
    (hbegin : streamBegin b g idealChip ram p.data.length req = .ok next) :
    recv b info ⟨flash, .ready ram⟩ p = resume g req flash (next.1, sendAck ackOk :: next.2) := by
  rw [recv, react_stream info hg hcmd hlen hreq hbegin]
  simp only [Board.applyEvents_eq hg]
  rfl

/-- A packet of a stream. -/
lemma recv_streaming {a : StreamAgent} {st : StreamState} (hg : b.geometry = some g)
    (hphase : a.phase = .streaming g req st) :
    recv b info a p = resume g req a.flash (streamRecv b g idealChip req st p) := by
  rw [recv, hphase]
  simp only [react, Board.applyEvents_eq hg]
  rfl

/-- A command that the main loop answers at once. -/
lemma react_ready (h : p.cmd ≠ cmdFlashStream) :
    react b info (.ready ram) p = (.ready ram, [.send (mainLoopAnswer info p)]) := by
  rw [react, if_neg h]

lemma recv_ready (h : p.cmd ≠ cmdFlashStream) :
    recv b info ⟨flash, .ready ram⟩ p = (⟨flash, .ready ram⟩, [mainLoopAnswer info p]) := by
  rw [recv, react_ready info h]
  unfold Board.applyEvents
  cases b.geometry with
  | none => rfl
  | some g => rfl

end Recv

/-- The last thing that is done is to send a packet. -/
def EndsWithSend (events : List FlashEvent) : Prop := ∃ before p, events = before ++ [.send p]

lemma EndsWithSend.append {events : List FlashEvent} (h : EndsWithSend events)
    (before : List FlashEvent) : EndsWithSend (before ++ events) := by
  obtain ⟨before', p, rfl⟩ := h
  exact ⟨before ++ before', p, (List.append_assoc _ _ _).symm⟩

lemma EndsWithSend.tail {e : FlashEvent} {es : List FlashEvent} (h : EndsWithSend (e :: es)) :
    es = [] ∨ EndsWithSend es := by
  obtain ⟨before, p, heq⟩ := h
  cases before with
  | nil => exact .inl (List.cons.inj heq).2
  | cons e' before => exact .inr ⟨before, p, (List.cons.inj heq).2⟩

lemma EndsWithSend.packetsOf_ne_nil {events : List FlashEvent} (h : EndsWithSend events) :
    packetsOf events ≠ [] := by
  obtain ⟨before, p, rfl⟩ := h
  simp

lemma endsWithSend_send (p : Packet) : EndsWithSend [.send p] := ⟨[], p, rfl⟩

section Ends

variable {b : Board} {g : Geometry} {req : StreamReq}

lemma streamAdvance_ends {left : ℕ} {st : StreamState}
    (h : (streamAdvance b g idealChip req left st).1 = none) :
    EndsWithSend (streamAdvance b g idealChip req left st).2 := by
  induction left generalizing st with
  | zero => exact (endsWithSend_send _).append _
  | succ left ih =>
      rw [streamAdvance] at h ⊢
      split at h
      · cases h
      · rename_i hbit
        have hok : (processPending b g idealChip st.ram st.pending).2 = true :=
          processPending_ok _ _
        have herase : idealChip.eraseOk (add32 req.flashAddr (st.s * g.sectorSize)) = true := rfl
        simp only [hok, if_true, herase] at h
        rw [if_neg hbit]
        simp only [hok, if_true, herase]
        exact (ih h).append _

lemma streamRecv_ends {st : StreamState} {p : Packet}
    (h : (streamRecv b g idealChip req st p).1 = none) :
    EndsWithSend (streamRecv b g idealChip req st p).2 := by
  unfold streamRecv at h ⊢
  by_cases hdata : p.cmd = rspData ∧ p.data.length > 2
  · rw [if_pos hdata] at h ⊢
    simp only [processPending_ok, if_true] at h ⊢
    split at h
    · cases h
    · rename_i hfull
      rw [if_neg hfull]
      exact ((streamAdvance_ends h).append _).append [_]
  · rw [if_neg hdata] at h ⊢
    split at h
    · rename_i hzero
      rw [if_pos hzero]
      exact endsWithSend_send _
    · cases h

lemma begin_ends {ram : Store UInt8} {len : ℕ} (h : (begin b ram len req).1 = .finished) :
    EndsWithSend (begin b ram len req).2 := by
  unfold begin at h ⊢
  cases hg : b.geometry with
  | none => exact endsWithSend_send _
  | some g =>
      simp only [hg] at h ⊢
      cases hbegin : streamBegin b g idealChip ram len req with
      | error status => exact endsWithSend_send _
      | ok next =>
          simp only [hbegin] at h ⊢
          rw [phaseOf_eq_finished] at h
          rw [streamBegin] at hbegin
          split_ifs at hbegin
          cases hbegin
          exact (streamAdvance_ends h).append [_]

/-- **When the agent is back in its main loop, it has sent its answer last.** -/
lemma react_ends {info : List UInt8} {phase : AgentPhase} {p : Packet}
    (h : (react b info phase p).1 = .finished) : EndsWithSend (react b info phase p).2 := by
  cases phase with
  | finished => exact endsWithSend_send _
  | streaming g req st =>
      rw [react] at h ⊢
      simp only at h ⊢
      exact streamRecv_ends (phaseOf_eq_finished.mp h)
  | ready ram =>
      rw [react] at h ⊢
      by_cases hcmd : p.cmd = cmdFlashStream
      · rw [if_pos hcmd] at h ⊢
        by_cases hlen : p.data.length < 12
        · rw [if_pos hlen]
          exact endsWithSend_send _
        · rw [if_neg hlen] at h ⊢
          exact begin_ends h
      · rw [if_neg hcmd]
        exact endsWithSend_send _

end Ends

end StreamAgent

end Defib
