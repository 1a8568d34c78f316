import Defib.Host.Transports

/-!
# The transport contract

Every read returns between one byte and as many as it was asked for, the consumed bytes are those
that arrived, in order, and a poll counts something whenever a byte that arrived has not been
consumed.  `Account.Keeps` says so of everything a client sees of a run.

The mock is a queue.  The RFC 2217 transport keeps bytes in two places that do not know of each
other: `read` puts what the port returned too much into `_buf`, which `recv_packet` does not look
at, and `recv_packet` puts what it read too much into `_port_buffers`, which `read` and
`bytes_waiting` do not look at.  As long as neither is passed over, the transport is a queue as
well (`Rfc2217Transport.served`).  The socket transport counts the bytes of a buffer that it never
fills, so it keeps the contract just as long as nobody polls it while the kernel holds a byte.
-/

namespace Defib

/-! ## The mock -/

namespace MockTransport

lemma take_served {t : MockTransport} (h : t.rxBuffer ≠ []) (n : ℕ+) :
    Served t.rxBuffer (.read n (t.take n).1) (t.take n).2.rxBuffer := by
  have hpos := List.length_pos_iff.mpr h
  refine .of_read (fun xs hxs => ?_) (List.take_append_drop _ _).symm
  cases hxs
  have := n.pos
  rw [List.length_take]
  omega

lemma read_served {t t' : MockTransport} (hopen : t.closed = false) {n : ℕ+} {timeout : Option ℤ}
    {asleep : List UInt8} {r : ReadResult} (h : t.read n timeout asleep = some (r, t')) :
    ServedAll t.rxBuffer [.arrived asleep, .read n r] t'.rxBuffer := by
  refine .cons (.arrived _ _) (Served.all ?_)
  have hraised : ∀ e, asleep = [] → (.error e, t) = (r, t') →
      Served (t.rxBuffer ++ asleep) (.read n r) t'.rxBuffer := by
    rintro e rfl h
    cases h
    rw [List.append_nil]
    exact .raised n _ e
  unfold read at h
  rw [if_neg (by simp [hopen])] at h
  by_cases hempty : t.rxBuffer = []
  · rw [if_pos hempty] at h
    cases timeout with
    | none =>
        obtain ⟨hasleep, h⟩ := Option.ite_none_right_eq_some.mp h
        exact hraised _ hasleep (Option.some.inj h)
    | some timeout =>
        dsimp only at h
        by_cases hpast : timeout ≤ 0
        · rw [if_pos hpast] at h
          obtain ⟨hasleep, h⟩ := Option.ite_none_right_eq_some.mp h
          exact hraised _ hasleep (Option.some.inj h)
        · rw [if_neg hpast] at h
          by_cases hasleep : asleep = []
          · rw [if_pos hasleep] at h
            exact hraised _ hasleep (Option.some.inj h)
          · rw [if_neg hasleep] at h
            cases h
            exact take_served (t := t.enqueueRx asleep) (by simp [enqueueRx, hasleep]) n
  · rw [if_neg hempty] at h
    obtain ⟨hasleep, h⟩ := Option.ite_none_right_eq_some.mp h
    cases h
    rw [hasleep, List.append_nil]
    exact take_served hempty n

/-- Steps of the mock are served by its buffer. -/
lemma served {t t' : MockTransport} {e : Event} {out : List (Seen UInt8 ReadError)}
    (hopen : t.closed = false) (h : t.step e = some (t', out)) :
    ServedAll t.rxBuffer out t'.rxBuffer := by
  cases e with
  | enqueueRx data =>
      cases h
      exact (Served.arrived _ _).all
  | read n timeout asleep =>
      obtain ⟨⟨r, t''⟩, hread, heq⟩ := Option.map_eq_some_iff.mp h
      cases heq
      exact read_served hopen hread
  | unread data =>
      cases h
      exact (Served.unread _ _).all
  | bytesWaiting =>
      cases h
      exact (Served.waiting _ _ List.length_pos_iff.mpr).all

end MockTransport

/-! ## RFC 2217 -/

/-- What the port returned and what it has left is what it had and what came in. -/
lemma portReads_flatten (port : List UInt8) (polls : List Poll) :
    (portReads port polls).1.flatten ++ (portReads port polls).2 = port ++ arrivals polls := by
  induction polls generalizing port with
  | nil => simp [portReads, arrivals]
  | cons poll polls ih =>
      rw [portReads, List.flatten_cons, List.append_assoc, ih, portRead, ← List.append_assoc,
        List.take_append_drop, List.append_assoc]
      rfl

namespace Rfc2217Transport

/-- The bytes that have not been consumed. -/
def pending (t : Rfc2217Transport) : List UInt8 := t.buf ++ (t.portBuf ++ t.port)

/-- What a call of `read` does: it hands out bytes of `_buf` and of the port's, in this order, and
keeps the rest in `_buf`. -/
structure Hands (size : ℕ) (given : List UInt8) (t t' : Rfc2217Transport) (polls : List Poll)
    (r : ReadResult) : Prop where
  portBuf : t'.portBuf = t.portBuf
  port : t'.port = (portReads t.port polls).2
  bytes : handedOut r ++ t'.buf = given ++ (portReads t.port polls).1.flatten
  bounds : ∀ xs, r = .ok xs → 1 ≤ xs.length ∧ xs.length ≤ size

lemma poll_spec {size : ℕ} {buf : List UInt8} {t : Rfc2217Transport} (p : Poll)
    (hlen : buf.length < size) (hbuf : t.buf = []) :
    (poll size buf t p).1.length ≤ size ∧
      ((poll size buf t p).1.length = size ∨ (poll size buf t p).2.buf = []) ∧
      (poll size buf t p).1 ++ (poll size buf t p).2.buf = buf ++ (portRead t.port p).1 ∧
      (poll size buf t p).2.portBuf = t.portBuf ∧
      (poll size buf t p).2.port = (portRead t.port p).2 := by
  unfold poll
  dsimp only
  split_ifs with hmore
  · have hfull : (buf ++ (portRead t.port p).1.take (size - buf.length)).length = size := by
      rw [List.length_append, List.length_take]
      omega
    refine ⟨hfull.le, .inl hfull, ?_, rfl, rfl⟩
    rw [hbuf, List.nil_append, List.append_assoc, List.take_append_drop]
  · refine ⟨?_, .inr hbuf, by rw [hbuf, List.append_nil], rfl, rfl⟩
    rw [List.length_append]
    omega

lemma Hands.poll {size : ℕ} {given : List UInt8} {t u t' : Rfc2217Transport} {p : Poll}
    {polls : List Poll} {r : ReadResult} (hport : u.port = (portRead t.port p).2)
    (hportBuf : u.portBuf = t.portBuf)
    (h : Hands size (given ++ (portRead t.port p).1) u t' polls r) :
    Hands size given t t' (p :: polls) r where
  portBuf := h.portBuf.trans hportBuf
  port := by rw [h.port, hport, portReads]
  bytes := by rw [h.bytes, hport, portReads, List.flatten_cons, List.append_assoc]
  bounds := h.bounds

lemma readLoop_hands {size : ℕ} (hsize : 1 ≤ size) {timeout : Option ℤ} {buf : List UInt8}
    {t t' : Rfc2217Transport} {polls : List Poll} {r : ReadResult} (hlen : buf.length ≤ size)
    (hbuf : buf.length = size ∨ t.buf = []) (h : readLoop size timeout buf t polls = some (r, t')) :
    Hands size (buf ++ t.buf) t t' polls r := by
  induction polls generalizing buf t with
  | nil =>
      rw [readLoop] at h
      split_ifs at h with hfull
      cases h
      refine ⟨rfl, rfl, (List.append_nil _).symm, fun xs hxs => ?_⟩
      cases hxs
      omega
  | cons p polls ih =>
      rw [readLoop] at h
      obtain ⟨hfull, h⟩ := Option.ite_none_left_eq_some.mp h
      have hempty : t.buf = [] := hbuf.resolve_left (by omega)
      obtain ⟨hlen', hbuf', hbytes, hportBuf, hport⟩ := poll_spec p (not_le.mp hfull) hempty
      dsimp only at h
      refine .poll hport hportBuf ?_
      rw [hempty, List.append_nil, ← hbytes]
      by_cases hgo : size ≤ (Rfc2217Transport.poll size buf t p).1.length ∨ timeout = none ∨
          p.late = false
      · rw [if_pos hgo] at h
        exact ih hlen' hbuf' h
      · -- the deadline passes with fewer bytes than asked for, so nothing is in `_buf`
        rw [if_neg hgo] at h
        obtain ⟨hlast, h⟩ := Option.ite_none_left_eq_some.mp h
        obtain rfl : polls = [] := not_not.mp hlast
        have hstash := hbuf'.resolve_left fun hfull => hgo (.inl hfull.ge)
        by_cases hgot : (Rfc2217Transport.poll size buf t p).1 = []
        · rw [if_neg (not_not.mpr hgot)] at h
          cases h
          refine ⟨rfl, rfl, ?_, fun xs hxs => by cases hxs⟩
          rw [hgot]
          exact (List.append_nil _).symm
        · rw [if_pos hgot] at h
          cases h
          refine ⟨rfl, rfl, (List.append_nil _).symm, fun xs hxs => ?_⟩
          cases hxs
          exact ⟨List.length_pos_iff.mpr hgot, hlen'⟩

lemma read_hands {t t' : Rfc2217Transport} {n : ℕ+} {timeout : Option ℤ} {polls : List Poll}
    {r : ReadResult} (h : t.read n timeout polls = some (r, t')) : Hands n t.buf t t' polls r := by
  have hlen : (t.buf.take (min (n : ℕ) t.buf.length)).length = min (n : ℕ) t.buf.length := by
    rw [List.length_take]
    omega
  have hbuf : (t.buf.take (min (n : ℕ) t.buf.length)).length = n ∨
      t.buf.drop (min (n : ℕ) t.buf.length) = [] := by
    by_cases hfew : (n : ℕ) ≤ t.buf.length
    · exact .inl (by rw [hlen, min_eq_left hfew])
    · exact .inr (List.drop_eq_nil_of_le (by omega))
  have hands := readLoop_hands n.pos (hlen.le.trans (min_le_left _ _)) hbuf h
  refine ⟨hands.portBuf, hands.port, ?_, hands.bounds⟩
  rw [hands.bytes, List.take_append_drop]

end Rfc2217Transport

/-! ### What `recv_packet` takes -/

lemma walk_rest {frame data : List UInt8} {pkt : UInt8 × List UInt8} {rest : List UInt8}
    (h : walk frame data = .got pkt rest) : rest <:+ data := by
  induction data generalizing frame with
  | nil => cases h
  | cons byte data ih =>
      have hmore : ∀ {frame}, walk frame data = .got pkt rest → rest <:+ byte :: data :=
        fun h => (ih h).trans (List.suffix_cons byte data)
      rw [walk] at h
      by_cases hzero : byte = 0x00
      · rw [if_pos hzero] at h
        by_cases hframe : frame = []
        · rw [if_neg (not_not.mpr hframe)] at h
          exact hmore h
        · rw [if_pos hframe] at h
          cases hparse : parsePacket frame with
          | ok result =>
              rw [hparse] at h
              cases h
              exact List.suffix_cons byte rest
          | error e =>
              rw [hparse] at h
              exact hmore h
      · rw [if_neg hzero] at h
        by_cases hlong : (frame ++ [byte]).length > maxPacketSize
        · rw [if_pos hlong] at h
          exact hmore h
        · rw [if_neg hlong] at h
          exact hmore h

/-- What is given back stands at the end of what was there. -/
lemma asyncLoop_leftover {frame : List UInt8} {reads : List (List UInt8)} {r : Received}
    (h : asyncLoop frame reads = some r) : r.leftover ++ r.reads.flatten <:+ reads.flatten := by
  induction reads generalizing frame with
  | nil => cases h
  | cons data reads ih =>
      rw [asyncLoop] at h
      rw [List.flatten_cons]
      cases hwalk : walk frame data with
      | got pkt rest =>
          rw [hwalk] at h
          cases h
          obtain ⟨walked, rfl⟩ := walk_rest hwalk
          exact ⟨walked, (List.append_assoc _ _ _).symm⟩
      | more frame =>
          rw [hwalk] at h
          exact (ih h).trans (List.suffix_append _ _)

lemma recvPacketSync_leftover {portBuf : List UInt8} {reads : List (List UInt8)} {r : Received}
    (h : recvPacketSync portBuf reads = some r) :
    r.leftover ++ r.reads.flatten <:+ portBuf ++ reads.flatten := by
  rw [recvPacketSync_eq_async, recvPacketAsync] at h
  by_cases hempty : portBuf = []
  · rw [if_neg (not_not.mpr hempty)] at h
    rw [hempty]
    exact asyncLoop_leftover h
  · rw [if_pos hempty] at h
    cases hwalk : walk [] portBuf with
    | got pkt rest =>
        rw [hwalk] at h
        cases h
        obtain ⟨walked, rfl⟩ := walk_rest hwalk
        exact ⟨walked, (List.append_assoc _ _ _).symm⟩
    | more frame =>
        rw [hwalk] at h
        exact (asyncLoop_leftover h).trans (List.suffix_append _ _)

namespace Rfc2217Transport

/-- What a call of `recv_packet` does: it takes bytes of `_port_buffers` and of the port's, and
keeps the rest in `_port_buffers`. -/
lemma recvPacket_spec {t t' : Rfc2217Transport} {expired : Bool} {polls : List Poll}
    {pkt : Option (UInt8 × List UInt8)} {taken : List UInt8}
    (h : t.recvPacket expired polls = some (pkt, taken, t')) :
    t'.buf = t.buf ∧ t'.port = (portReads t.port polls).2 ∧
      taken ++ t'.portBuf = t.portBuf ++ (portReads t.port polls).1.flatten := by
  unfold recvPacket at h
  dsimp only at h
  by_cases hexpired : expired
  · rw [if_pos hexpired] at h
    obtain ⟨rfl, h⟩ := Option.ite_none_right_eq_some.mp h
    cases h
    exact ⟨rfl, rfl, (List.append_nil _).symm⟩
  · rw [if_neg hexpired] at h
    cases hrecv : recvPacketSync t.portBuf (portReads t.port polls).1 with
    | none =>
        rw [hrecv] at h
        cases h
        exact ⟨rfl, rfl, List.append_nil _⟩
    | some r =>
        rw [hrecv] at h
        obtain ⟨hreads, h⟩ := Option.ite_none_right_eq_some.mp h
        cases h
        refine ⟨rfl, rfl, ?_⟩
        have hback := recvPacketSync_leftover hrecv
        rw [hreads, List.flatten_nil, List.append_nil] at hback
        obtain ⟨walked, hwalked⟩ := hback
        rw [← hwalked, List.rdrop_append_length]

/-- The bytes past the other buffer are not touched: `read` finds nothing in `_port_buffers` or
gets nothing from the port, `recv_packet` finds nothing in `_buf` or gets nothing at all, and what
`bytes_waiting` counts is not empty while there is something in `_port_buffers`. -/
def InTurn (t : Rfc2217Transport) : Event → Prop
  | .read _ _ polls => t.portBuf = [] ∨ (portReads t.port polls).1.flatten = []
  | .recvPacket _ polls => t.buf = [] ∨ t.portBuf ++ (portReads t.port polls).1.flatten = []
  | .bytesWaiting => t.portBuf = [] ∨ t.buf ≠ [] ∨ t.port ≠ []
  | _ => True

lemma read_served {t t' : Rfc2217Transport} {n : ℕ+} {timeout : Option ℤ} {polls : List Poll}
    {r : ReadResult} (hturn : t.portBuf = [] ∨ (portReads t.port polls).1.flatten = [])
    (h : t.read n timeout polls = some (r, t')) :
    ServedAll t.pending [.arrived (arrivals polls), .read n r] t'.pending := by
  have hands := read_hands h
  have hport := portReads_flatten t.port polls
  refine .cons (.arrived _ _) (Served.all (.of_read hands.bounds ?_))
  have hall : t.pending ++ arrivals polls =
      t.buf ++ (t.portBuf ++ ((portReads t.port polls).1.flatten ++ t'.port)) := by
    rw [hands.port, hport, pending]
    simp only [List.append_assoc]
  rw [hall, pending, hands.portBuf, ← List.append_assoc (handedOut r), hands.bytes]
  rcases hturn with hnone | hnone <;> simp [hnone]

lemma recvPacket_served {t t' : Rfc2217Transport} {expired : Bool} {polls : List Poll}
    {pkt : Option (UInt8 × List UInt8)} {taken : List UInt8}
    (hturn : t.buf = [] ∨ t.portBuf ++ (portReads t.port polls).1.flatten = [])
    (h : t.recvPacket expired polls = some (pkt, taken, t')) :
    ServedAll (ε := ReadError) t.pending [.arrived (arrivals polls), .took taken] t'.pending := by
  obtain ⟨hbuf, hport, htaken⟩ := recvPacket_spec h
  have hall : t.pending ++ arrivals polls = t.buf ++ (taken ++ (t'.portBuf ++ t'.port)) := by
    rw [← List.append_assoc taken, htaken, hport, List.append_assoc, portReads_flatten, pending]
    simp only [List.append_assoc]
  have htook : t.pending ++ arrivals polls = taken ++ t'.pending := by
    rw [hall, pending, hbuf]
    rcases hturn with hnone | hnone
    · rw [hnone, List.nil_append, List.nil_append]
    · rw [hnone] at htaken
      rw [(List.append_eq_nil_iff.mp htaken).1, List.nil_append, List.nil_append]
  refine .cons (.arrived _ _) ?_
  rw [htook]
  exact (Served.took _ _).all

/-- Steps in turn are served by the bytes that have not been consumed. -/
lemma served {t t' : Rfc2217Transport} {e : Event} {out : List (Seen UInt8 ReadError)}
    (hturn : t.InTurn e) (h : t.step e = some (t', out)) :
    ServedAll t.pending out t'.pending := by
  cases e with
  | arrive data =>
      cases h
      have := (Served.arrived (ε := ReadError) t.pending data).all
      simpa only [pending, List.append_assoc] using this
  | read n timeout polls =>
      obtain ⟨⟨r, t''⟩, hread, heq⟩ := Option.map_eq_some_iff.mp h
      cases heq
      exact read_served hturn hread
  | unread data =>
      cases h
      have := (Served.unread (ε := ReadError) t.pending data).all
      simpa only [pending, unread, List.append_assoc] using this
  | bytesWaiting =>
      cases h
      refine (Served.waiting _ _ fun hne => ?_).all
      by_contra hzero
      obtain ⟨hbuf, hport⟩ : t.buf = [] ∧ t.port = [] := by
        rw [bytesWaiting] at hzero
        exact ⟨List.length_eq_zero_iff.mp (by omega), List.length_eq_zero_iff.mp (by omega)⟩
      rcases hturn with hnone | hnone | hnone
      · exact hne (by rw [pending, hbuf, hnone, hport]; rfl)
      · exact hnone hbuf
      · exact hnone hport
  | recvPacket expired polls =>
      obtain ⟨⟨pkt, taken, t''⟩, hrecv, heq⟩ := Option.map_eq_some_iff.mp h
      cases heq
      exact recvPacket_served hturn hrecv

end Rfc2217Transport

/-! ## Sockets -/

namespace SocketTransport

/-- The bytes that have not been consumed. -/
def pending (t : SocketTransport) : List UInt8 := t.buf ++ t.received

/-- `bytes_waiting` is called while the kernel holds no byte, or with bytes in `_buf`, where nothing
is ever put. -/
def Counted (t : SocketTransport) : Event → Prop
  | .bytesWaiting => t.buf ≠ [] ∨ t.received = []
  | _ => True

lemma read_served {t t' : SocketTransport} {n : ℕ+} {timeout : Option ℤ} {arrivals : List UInt8}
    {recv : SockRecv} {r : ReadResult} (h : t.read n timeout arrivals recv = some (r, t')) :
    ServedAll t.pending [.arrived arrivals, .read n r] t'.pending := by
  refine .cons (.arrived _ _) (Served.all ?_)
  have hn := n.pos
  unfold read at h
  by_cases hbuf : t.buf = []
  · rw [if_neg (not_not.mpr hbuf)] at h
    rw [pending, hbuf, List.nil_append]
    cases recv with
    | timeout =>
        cases h
        rw [pending, hbuf]
        exact .raised n _ _
    | error e =>
        cases h
        rw [pending, hbuf]
        exact .raised n _ _
    | data count =>
        dsimp only at h
        have hcut := List.take_append_drop (min (n : ℕ) (max count 1)) (t.received ++ arrivals)
        by_cases hdata : (t.received ++ arrivals).take (min (n : ℕ) (max count 1)) = []
        · rw [if_pos hdata] at h
          cases h
          rw [hdata, List.nil_append] at hcut
          rw [pending, hbuf, List.nil_append, hcut]
          exact .raised n _ _
        · rw [if_neg hdata] at h
          cases h
          refine .of_read (fun xs hxs => ?_) ?_
          · cases hxs
            refine ⟨List.length_pos_iff.mpr hdata, ?_⟩
            rw [List.length_take]
            omega
          · rw [pending, hbuf]
            exact hcut.symm
  · rw [if_pos hbuf] at h
    obtain ⟨rfl, h⟩ := Option.ite_none_right_eq_some.mp h
    cases h
    refine .of_read (fun xs hxs => ?_) ?_
    · cases hxs
      have := List.length_pos_iff.mpr hbuf
      rw [List.length_take]
      omega
    · rw [pending, pending, handedOut, List.append_nil, ← List.append_assoc, List.take_append_drop]

/-- Steps whose polls count are served by the bytes that have not been consumed. -/
lemma served {t t' : SocketTransport} {e : Event} {out : List (Seen UInt8 ReadError)}
    (hcounted : t.Counted e) (h : t.step e = some (t', out)) :
    ServedAll t.pending out t'.pending := by
  cases e with
  | arrive data =>
      cases h
      have := (Served.arrived (ε := ReadError) t.pending data).all
      simpa only [pending, List.append_assoc] using this
  | read n timeout arrivals recv =>
      obtain ⟨⟨r, t''⟩, hread, heq⟩ := Option.map_eq_some_iff.mp h
      cases heq
      exact read_served hread
  | bytesWaiting =>
      cases h
      refine (Served.waiting _ _ fun hne => List.length_pos_iff.mpr fun hbuf => ?_).all
      rcases hcounted with hsome | hnone
      · exact hsome hbuf
      · exact hne (by rw [pending, hbuf, hnone]; rfl)

end SocketTransport

/-! ## The contract -/

end Defib
