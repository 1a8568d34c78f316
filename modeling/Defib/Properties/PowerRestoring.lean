import Defib.Power.PoeControl
import Defib.Properties.RouterReplies

/-!
# Restoring the power of a port

`power_on` sets the mode that `power_off` has remembered, and forgets it before the command is sent.
If that command fails the mode is lost: the next `power_on` forces the port on.  A `!trap` leaves a
`!done` unread, and from then on the controller takes the answers to other commands for its own.

`power_on_restores_iff` says for every run of calls, any of which may fail, that as long as the
answers are its own a successful `power_on` never leaves the port off, and that it restores the mode
of before the first `power_off` exactly when no `power_on` has failed in between, or when forcing
the port on restores it.
-/

namespace Defib

namespace RouterOs

open StreamReader

/-! ## The primitives on the switch -/

/-- An attribute word is one setting. -/
lemma parseItem_append_attrWord (words : List Text) {key : Text} (value : Text)
    (hkey : '=' ∉ key) :
    parseItem (words ++ [attrWord key value]) = Dict.set (parseItem words) key value := by
  have hne : ∀ c ∈ key, decide (c ≠ '=') = true := fun c hc =>
    decide_eq_true fun h => hkey (h ▸ hc)
  have htail : (attrWord key value).tail = key ++ '=' :: value := rfl
  have hattr : (attrWord key value).head? = some '=' ∧ '=' ∈ (attrWord key value).tail :=
    ⟨rfl, by rw [htail]; simp⟩
  rw [parseItem, List.foldl_append, List.foldl_cons, List.foldl_nil, if_pos hattr, htail,
    List.takeWhile_append_of_pos hne, List.dropWhile_append_of_pos hne,
    List.takeWhile_cons_of_neg (by simp), List.dropWhile_cons_of_neg (by simp), List.append_nil]
  rfl

lemma parseItem_sentence (q : PoePort) :
    parseItem q.sentence.tail =
      Dict.set (Dict.set (Dict.set [] idKey q.id) "name".toList q.name) poeOutKey q.poeOut := by
  have hwords : q.sentence.tail = (([] ++ [attrWord idKey q.id]) ++
      [attrWord "name".toList q.name]) ++ [attrWord poeOutKey q.poeOut] := rfl
  rw [hwords, parseItem_append_attrWord _ _ (by decide), parseItem_append_attrWord _ _ (by decide),
    parseItem_append_attrWord _ _ (by decide)]
  rfl

lemma get?_id (q : PoePort) : (parseItem q.sentence.tail).get? idKey = some q.id := by
  rw [parseItem_sentence, Dict.get?_set_of_ne _ _ (by decide), Dict.get?_set_of_ne _ _ (by decide),
    Dict.get?_set_self]

lemma get?_poeOut (q : PoePort) :
    (parseItem q.sentence.tail).get? poeOutKey = some q.poeOut := by
  rw [parseItem_sentence, Dict.get?_set_self]

/-- What is found under a key that no two elements share is all there is. -/
lemma filter_eq_toList_find? {α κ : Type*} [DecidableEq κ] (f : α → κ) (k : κ) {l : List α}
    (h : (l.map f).Nodup) :
    l.filter (fun a => f a = k) = (l.find? fun a => f a = k).toList := by
  induction l with
  | nil => rfl
  | cons a l ih =>
      rw [List.map_cons, List.nodup_cons] at h
      by_cases ha : f a = k
      · have hnone : l.filter (fun a => f a = k) = [] := by
          apply List.filter_eq_nil_iff.mpr
          intro b hb hbk
          have hbk : f b = k := by simpa using hbk
          exact h.1 (List.mem_map.mpr ⟨b, hb, hbk.trans ha.symm⟩)
        rw [List.filter_cons_of_pos (by simpa using ha), hnone,
          List.find?_cons_of_pos (by simpa using ha)]
        rfl
      · rw [List.filter_cons_of_neg (by simpa using ha), ih h.2,
          List.find?_cons_of_neg (by simpa using ha)]

/-- The answer to a `print` holds the interface of that name, and nothing else. -/
lemma parseItems_print (sw : PoeSwitch) (name : Text) :
    parseItems (sw.print name) =
      ((sw.find name).map fun q => parseItem q.sentence.tail).toList := by
  have hdone : parseItems [[doneWord]] = [] := rfl
  rw [parseItems] at hdone
  rw [parseItems, PoeSwitch.print, filter_eq_toList_find? PoePort.name name sw.names_nodup,
    List.filterMap_append, hdone, List.append_nil, PoeSwitch.find]
  cases sw.ports.find? fun q => q.name = name with
  | none => rfl
  | some q => rfl

lemma poeOutOf_print {sw : PoeSwitch} {name mode : Text} (h : sw.poeOut name = some mode) :
    poeOutOf (sw.print name) = mode := by
  obtain ⟨q, hq, rfl⟩ := Option.map_eq_some_iff.mp h
  rw [poeOutOf, parseItems_print, hq]
  show (Dict.get? (parseItem q.sentence.tail) poeOutKey).getD autoOn = q.poeOut
  rw [get?_poeOut]
  rfl

lemma portId_print {sw : PoeSwitch} {name : Text} {q : PoePort} (h : sw.find name = some q) :
    portId name (sw.print name) = .ok q.id := by
  have hid : q.id ≠ [] := sw.id_ne_nil q (List.mem_of_find?_eq_some h)
  have hitem : parseItems (sw.print name) = [parseItem q.sentence.tail] := by
    rw [parseItems_print, h]
    rfl
  unfold portId
  rw [hitem]
  simp only [get?_id]

lemma find_name {sw : PoeSwitch} {name : Text} {q : PoePort} (h : sw.find name = some q) :
    q.name = name := by
  simpa using List.find?_some h

/-- **A `set` is of one port.** -/
lemma poeOut_set {sw : PoeSwitch} {name : Text} {q : PoePort} (h : sw.find name = some q)
    (mode other : Text) :
    (sw.set q.id mode).poeOut other = if other = name then some mode else sw.poeOut other := by
  have hfind : (sw.set q.id mode).find other = (sw.find other).map (PoePort.set q.id mode) := by
    have hname : ((fun r : PoePort => decide (r.name = other)) ∘ PoePort.set q.id mode) =
        fun r => decide (r.name = other) := funext fun r => by simp
    rw [PoeSwitch.find, PoeSwitch.set, List.find?_map, hname, PoeSwitch.find]
  rw [PoeSwitch.poeOut, hfind, PoeSwitch.poeOut]
  split_ifs with hother
  · rw [hother, h]
    show some (PoePort.set q.id mode q).poeOut = some mode
    rw [PoePort.set, if_pos rfl]
  · cases hr : sw.find other with
    | none => rfl
    | some r =>
        have hid : r.id ≠ q.id := by
          intro hid
          have hrq : r = q := List.inj_on_of_nodup_map sw.ids_nodup
            (List.mem_of_find?_eq_some hr) (List.mem_of_find?_eq_some h) hid
          exact hother ((find_name hr).symm.trans (hrq ▸ find_name h))
        show some (PoePort.set q.id mode r).poeOut = some r.poeOut
        rw [PoePort.set, if_neg hid]

/-! ## The connection -/

/-- A round of the client on any sentence. -/
lemma reads_round (r : Reply) (acc : List (List Text)) :
    Reads (readResponseRound acc) r.wire
      (if endsResponse r.texts then .inr (acc ++ [r.texts]) else .inl (acc ++ [r.texts])) := by
  refine Reads.bind_pure (reads_reply r) ?_
  rw [Reply.texts]
  simp only [endsResponse, List.head?_cons, Option.some.injEq, Bool.or_eq_true,
    decide_eq_true_eq]
  split
  · exact reads_pure _
  · exact reads_pure _

/-- The client reads sentences as far as they are a response. -/
lemma reads_response {replies : List Reply} (h : ∃ r ∈ replies, endsResponse r.texts = true)
    (acc : List (List Text)) : ∃ k,
      takeResponse (replies.map Reply.texts) =
        ((replies.take k).map Reply.texts, (replies.drop k).map Reply.texts) ∧
      Reads (StreamReader.forever .incompleteRead readResponseRound acc)
        ((replies.take k).flatMap Reply.wire) (acc ++ (replies.take k).map Reply.texts) := by
  induction replies generalizing acc with
  | nil =>
      obtain ⟨r, hr, -⟩ := h
      cases hr
  | cons r replies ih =>
      have hround := reads_round r acc
      by_cases hends : endsResponse r.texts = true
      · rw [if_pos hends] at hround
        refine ⟨1, ?_, ?_⟩
        · rw [List.map_cons, takeResponse, if_pos hends]
          rfl
        · rw [List.take_succ_cons, List.take_zero, List.flatMap_singleton, List.map_singleton]
          exact Reads.forever_stop hround r.wire_ne_nil
      · rw [if_neg hends] at hround
        obtain ⟨r', hr', hends'⟩ := h
        have hlater : ∃ r ∈ replies, endsResponse r.texts = true := by
          rcases List.mem_cons.mp hr' with rfl | hr'
          · exact absurd hends' hends
          · exact ⟨r', hr', hends'⟩
        obtain ⟨k, htake, hread⟩ := ih hlater (acc ++ [r.texts])
        refine ⟨k + 1, ?_, ?_⟩
        · rw [List.map_cons, takeResponse, if_neg hends, htake]
          rfl
        · rw [List.take_succ_cons, List.flatMap_cons, List.map_cons, List.append_cons acc]
          exact Reads.forever_again hround r.wire_ne_nil hread

/-- **The sentences of a connection are its bytes**: what is read of the sentences that have come is
what `read_response` reads of their bytes. -/
lemma readResponse_replies {replies : List Reply}
    (h : ∃ r ∈ replies, endsResponse r.texts = true) (rest : List UInt8) : ∃ k,
      takeResponse (replies.map Reply.texts) =
        ((replies.take k).map Reply.texts, (replies.drop k).map Reply.texts) ∧
      readResponse (replies.flatMap Reply.wire ++ rest) =
        .ok ((replies.take k).map Reply.texts, (replies.drop k).flatMap Reply.wire ++ rest) := by
  obtain ⟨k, htake, hread⟩ := reads_response h []
  refine ⟨k, htake, ?_⟩
  rw [← List.take_append_drop k replies, List.flatMap_append, List.append_assoc,
    List.take_append_drop]
  exact hread _

lemma takeResponse_append {items : List (List Text)} {last : List Text}
    (hitems : ∀ s ∈ items, endsResponse s = false) (hlast : endsResponse last = true)
    (rest : List (List Text)) :
    takeResponse (items ++ last :: rest) = (items ++ [last], rest) := by
  induction items with
  | nil => rw [List.nil_append, List.nil_append, takeResponse, if_pos hlast]
  | cons s items ih =>
      rw [List.forall_mem_cons] at hitems
      rw [List.cons_append, takeResponse, hitems.1, if_neg (by decide), ih hitems.2,
        List.cons_append]

/-- The answer to a `print` is one response. -/
lemma takeResponse_print (sw : PoeSwitch) (name : Text) :
    takeResponse (sw.print name) = (sw.print name, []) := by
  refine takeResponse_append (fun s hs => ?_) rfl []
  obtain ⟨q, -, rfl⟩ := List.mem_map.mp hs
  rfl

section Call

variable {conn : PoeConn} {answer : List (List Text)}

lemma PoeConn.call_lost (x : Reaction) :
    PoeConn.lost.call x answer = (.error .incompleteRead, .lost) := rfl

/-- Nothing is unread before and after an exchange that is answered with one response. -/
lemma PoeConn.call_answered (hclean : conn.unread = []) (hconn : conn ≠ .lost)
    (hanswer : takeResponse answer = (answer, [])) :
    conn.call .answered answer = (.ok answer, .opened []) := by
  have hread : conn.call .answered answer = conn.read answer := by
    cases conn with
    | lost => exact absurd rfl hconn
    | closed => rfl
    | opened unread => rfl
  rw [hread, PoeConn.read, hclean, List.nil_append, hanswer]

lemma PoeConn.call_refused (hclean : conn.unread = []) (hconn : conn ≠ .lost)
    (attributes : List Text) : conn.call (.refused attributes) answer =
      (.ok [trapWord :: attributes], .opened [[doneWord]]) := by
  have hread : conn.call (.refused attributes) answer =
      conn.read [trapWord :: attributes, [doneWord]] := by
    cases conn with
    | lost => exact absurd rfl hconn
    | closed => rfl
    | opened unread => rfl
  rw [hread, PoeConn.read, hclean]
  rfl

variable (conn answer) in
lemma PoeConn.call_raised (e : RouterError) (isLost : Bool) :
    ∃ e', (conn.call (.raised e isLost) answer).1 = .error e' := by
  cases conn with
  | lost => exact ⟨_, rfl⟩
  | closed => exact ⟨e, rfl⟩
  | opened unread => exact ⟨e, rfl⟩

end Call

/-! ## Setting a mode -/

/-- Nothing of an earlier answer is unread. -/
def PoeControl.NothingUnread (s : PoeControl) : Prop := s.conn.unread = []

instance (s : PoeControl) : Decidable s.NothingUnread := inferInstanceAs (Decidable (_ = _))

/-- Does an exchange of `_set_poe` fail? -/
def PoeControl.setFails (s : PoeControl) (x : CallExchanges) : Bool :=
  decide (s.conn = .lost ∨ x.print ≠ .answered ∨ x.set ≠ .answered)

lemma portId_absent {sw : PoeSwitch} {name : Text} (h : sw.find name = none) :
    ∃ e, portId name (sw.print name) = .error e := by
  have hitems : parseItems (sw.print name) = [] := by
    rw [parseItems_print, h]
    rfl
  unfold portId
  rw [hitems]
  exact ⟨_, rfl⟩

variable {s : PoeControl} {x : CallExchanges} {name : Text}

lemma setPoe_print_error {print set : Reaction} {mode : Text} {e : RouterError}
    (h : (s.conn.call print (s.switch.print name)).1.bind (portId name) = .error e) :
    s.setPoe print set name mode =
      (.error e, { s with conn := (s.conn.call print (s.switch.print name)).2 }) := by
  unfold PoeControl.setPoe
  simp only [h]

/-- `_set_poe` raises if its first exchange does not show the port. -/
lemma setPoe_print_fails (hclean : s.NothingUnread) (set : Reaction) (mode : Text)
    {print : Reaction}
    (h : s.conn = .lost ∨ print ≠ .answered ∨ s.switch.find name = none) :
    ∃ e conn, s.setPoe print set name mode = (.error e, { s with conn := conn }) := by
  have hbind : ∃ e, (s.conn.call print (s.switch.print name)).1.bind (portId name) = .error e := by
    by_cases hconn : s.conn = .lost
    · rw [hconn, PoeConn.call_lost]
      exact ⟨_, rfl⟩
    cases print with
    | raised e isLost =>
        obtain ⟨e', he'⟩ := PoeConn.call_raised s.conn (s.switch.print name) e isLost
        rw [he']
        exact ⟨e', rfl⟩
    | refused attributes =>
        rw [PoeConn.call_refused hclean hconn]
        exact ⟨_, rfl⟩
    | answered =>
        rw [PoeConn.call_answered hclean hconn (takeResponse_print _ _)]
        rcases h with h | h | h
        · exact absurd h hconn
        · exact absurd rfl h
        · exact portId_absent h
  obtain ⟨e, he⟩ := hbind
  exact ⟨e, _, setPoe_print_error he⟩

/-- `_set_poe` once the id of the port is known. -/
lemma setPoe_printed (hclean : s.NothingUnread) (hconn : s.conn ≠ .lost) {q : PoePort}
    (h : s.switch.find name = some q) (set : Reaction) (mode : Text) :
    s.setPoe .answered set name mode =
      (((PoeConn.opened []).call set [[doneWord]]).1.bind (checkSet name mode),
        { s with
          conn := ((PoeConn.opened []).call set [[doneWord]]).2
          switch := if set = .answered then s.switch.set q.id mode else s.switch }) := by
  have hid : q.id ∈ s.switch.ports.map PoePort.id :=
    List.mem_map_of_mem (List.mem_of_find?_eq_some h)
  have hanswer : s.switch.setAnswer q.id = [[doneWord]] := if_pos hid
  have hprinted : s.conn.call .answered (s.switch.print name) =
      (.ok (s.switch.print name), .opened []) :=
    PoeConn.call_answered hclean hconn (takeResponse_print _ _)
  have hbind : (Except.ok (s.switch.print name)).bind (portId name) =
      (.ok q.id : Except RouterError Text) := portId_print h
  unfold PoeControl.setPoe
  simp only [hprinted, hbind, hanswer, ne_eq, reduceCtorEq, not_false_eq_true, and_true]

/-- **What `_set_poe` can do where nothing is unread**: it raises and leaves the switch alone, or it
sets the mode of the port, which is on the switch. -/
lemma setPoe_cases (hclean : s.NothingUnread) (x : CallExchanges) (name mode : Text) :
    (∃ e conn, s.setPoe x.print x.set name mode = (.error e, { s with conn := conn })) ∧
        (s.setFails x = true ∨ s.switch.poeOut name = none) ∨
      ∃ conn sw', s.setPoe x.print x.set name mode = (.ok (), ⟨s.saved, conn, sw'⟩) ∧
        (∃ current, s.switch.poeOut name = some current) ∧
          ∀ other, sw'.poeOut other =
            if other = name then some mode else s.switch.poeOut other := by
  by_cases hshown : s.conn = .lost ∨ x.print ≠ .answered ∨ s.switch.find name = none
  · refine .inl ⟨setPoe_print_fails hclean x.set mode hshown, ?_⟩
    rcases hshown with h | h | h
    · exact .inl (by simp [PoeControl.setFails, h])
    · exact .inl (by simp [PoeControl.setFails, h])
    · exact .inr (by rw [PoeSwitch.poeOut, h]; rfl)
  obtain ⟨hconn, hprint, hfind⟩ := not_or.mp hshown |>.imp_right not_or.mp
  obtain ⟨q, hq⟩ := Option.ne_none_iff_exists'.mp hfind
  have hcurrent : s.switch.poeOut name = some q.poeOut := by rw [PoeSwitch.poeOut, hq]; rfl
  rw [not_not.mp hprint, setPoe_printed hclean hconn hq]
  cases hset : x.set with
  | answered =>
      exact .inr ⟨_, s.switch.set q.id mode, rfl, ⟨_, hcurrent⟩, poeOut_set hq mode⟩
  | raised e isLost =>
      exact .inl ⟨⟨e, _, rfl⟩, .inl (by simp [PoeControl.setFails, hset])⟩
  | refused attributes =>
      exact .inl ⟨⟨_, _, rfl⟩, .inl (by simp [PoeControl.setFails, hset])⟩

/-! ## The calls -/

/-- A call sees the answers to its own commands: nothing is unread when it starts, and no
`_get_poe_out` is refused in it. -/
def PoeControl.SeesOwnAnswers (s : PoeControl) : PowerCall → Prop
  | .powerOff port x => s.NothingUnread ∧
      (s.saved.get? port = none → ∀ attributes, x.get ≠ .refused attributes)
  | .powerOn _ _ => s.NothingUnread
  | .close => True

/-- **What saving can do where the answers are its own.**  It raises, or what is saved for the port
then was there before, or is the mode of the port. -/
lemma save_cases {port : Text} (hown : s.SeesOwnAnswers (.powerOff port x)) :
    (∃ e conn, s.save x port = (.error e, { s with conn := conn })) ∨
      ∃ saved conn, s.save x port = (.ok (), ⟨saved, conn, s.switch⟩) ∧ conn.unread = [] ∧
        (∀ other, other ≠ port → saved.get? other = s.saved.get? other) ∧
          ∃ mode, saved.get? port = some mode ∧ (s.saved.get? port = some mode ∨
            s.saved.get? port = none ∧
              ∀ current, s.switch.poeOut port = some current → mode = current) := by
  obtain ⟨hclean, hget⟩ := hown
  unfold PoeControl.save PoeControl.getPoeOut
  cases hsaved : s.saved.get? port with
  | some mode => exact .inr ⟨s.saved, s.conn, rfl, hclean, fun _ _ => rfl, mode, hsaved, .inl rfl⟩
  | none =>
      by_cases hconn : s.conn = .lost
      · rw [hconn]
        exact .inl ⟨_, _, rfl⟩
      cases hx : x.get with
      | refused attributes => exact absurd hx (hget hsaved attributes)
      | raised e isLost =>
          obtain ⟨e', he'⟩ := PoeConn.call_raised s.conn (s.switch.print port) e isLost
          simp only [he']
          exact .inl ⟨e', _, rfl⟩
      | answered =>
          rw [PoeConn.call_answered hclean hconn (takeResponse_print _ _)]
          exact .inr ⟨_, _, rfl, rfl, fun other h => Dict.get?_set_of_ne _ _ (Ne.symm h), _,
            Dict.get?_set_self _ _ _, .inr ⟨rfl, fun current h => poeOutOf_print h⟩⟩

/-- Setting the mode of a port leaves the others alone. -/
lemma setPoe_other (hclean : s.NothingUnread) {p port : Text} (h : p ≠ port) (x : CallExchanges)
    (mode : Text) : (s.setPoe x.print x.set port mode).2.saved = s.saved ∧
      (s.setPoe x.print x.set port mode).2.switch.poeOut p = s.switch.poeOut p := by
  rcases setPoe_cases hclean x port mode with ⟨⟨e, conn, he⟩, -⟩ | ⟨conn, sw', hok, -, hsw⟩
  · rw [he]
    exact ⟨rfl, rfl⟩
  · rw [hok]
    exact ⟨rfl, (hsw p).trans (if_neg h)⟩

/-- The port of a call. -/
def PowerCall.port? : PowerCall → Option Text
  | powerOff port _ => some port
  | powerOn port _ => some port
  | close => none

/-- **Calls are of one port.** -/
lemma call_other {c : PowerCall} (hown : s.SeesOwnAnswers c) {p : Text} (h : c.port? ≠ some p) :
    (s.call c).2.saved.get? p = s.saved.get? p ∧
      (s.call c).2.switch.poeOut p = s.switch.poeOut p := by
  cases c with
  | close => exact ⟨rfl, rfl⟩
  | powerOn port x =>
      have hne : p ≠ port := fun heq => h (congrArg some heq.symm)
      obtain ⟨hsaved, hsw⟩ := setPoe_other (s := { s with saved := s.saved.del port }) hown hne x
        (promote ((s.saved.get? port).getD forcedOn))
      refine ⟨?_, hsw⟩
      show ((s.powerOn x port).2.saved).get? p = _
      rw [PoeControl.powerOn, hsaved, Dict.get?_del, if_neg (Ne.symm hne)]
  | powerOff port x =>
      have hne : p ≠ port := fun heq => h (congrArg some heq.symm)
      show (s.powerOff x port).2.saved.get? p = _ ∧ (s.powerOff x port).2.switch.poeOut p = _
      unfold PoeControl.powerOff
      rcases save_cases hown with ⟨e, conn, he⟩ | ⟨saved, conn, hok, hclean, hkept, -⟩
      · rw [he]
        exact ⟨rfl, rfl⟩
      · rw [hok]
        obtain ⟨hsaved, hsw⟩ := setPoe_other (s := ⟨saved, conn, s.switch⟩) hclean hne x offMode
        exact ⟨(congrArg (Dict.get? · p) hsaved).trans (hkept p hne), hsw⟩

/-! ## Runs -/

/-- What has happened to a port since its last successful `power_on`: no successful `power_off`, or
some, with the mode before the first of them, and whether a `power_on` has failed since. -/
inductive PowerRecord
  | on
  | off (mode : Text) (failed : Bool)
  deriving DecidableEq

namespace PowerRecord

/-- After a `power_off` that succeeds. -/
def turnedOff (current : Option Text) : PowerRecord → PowerRecord
  | off mode failed => off mode failed
  | on =>
      match current with
      | none => on
      | some mode => off mode false

/-- After a `power_on` that raises. -/
def turnOnFailed (setFails : Bool) : PowerRecord → PowerRecord
  | off mode failed => off mode (failed || setFails)
  | on => on

/-- After a call. -/
def next (p : Text) (s : PoeControl) (r : PowerRecord) : PowerCall → PowerRecord
  | .powerOff port x =>
      if port = p ∧ (s.powerOff x port).1.isOk then r.turnedOff (s.switch.poeOut p) else r
  | .powerOn port x =>
      if port = p then
        if (s.powerOn x port).1.isOk then on else r.turnOnFailed (s.setFails x)
      else r
  | .close => r

end PowerRecord

/-- A run of calls. -/
def PoeControl.run (s : PoeControl) (calls : List PowerCall) : PoeControl :=
  calls.foldl (fun s c => (s.call c).2) s

/-- The record of a port over a run. -/
def recordOf (p : Text) : PoeControl → PowerRecord → List PowerCall → PowerRecord
  | _, r, [] => r
  | s, r, c :: calls => recordOf p (s.call c).2 (r.next p s c) calls

/-- Every call of a run sees the answers to its own commands. -/
def PoeControl.AllSeeOwnAnswers : PoeControl → List PowerCall → Prop
  | _, [] => True
  | s, c :: calls => s.SeesOwnAnswers c ∧ (s.call c).2.AllSeeOwnAnswers calls

lemma allSeeOwnAnswers_append {s : PoeControl} {calls calls' : List PowerCall} :
    s.AllSeeOwnAnswers (calls ++ calls') ↔
      s.AllSeeOwnAnswers calls ∧ (s.run calls).AllSeeOwnAnswers calls' := by
  induction calls generalizing s with
  | nil => exact (and_iff_right trivial).symm
  | cons c calls ih =>
      rw [List.cons_append, PoeControl.AllSeeOwnAnswers, ih, PoeControl.AllSeeOwnAnswers, and_assoc]
      rfl

/-- What the controller remembers of a port.  Once a `power_on` has failed, it can only remember
that the port is off. -/
def Remembers (s : PoeControl) (p : Text) : PowerRecord → Prop
  | .on => ∀ mode, s.saved.get? p = some mode →
      ∀ current, s.switch.poeOut p = some current → mode = current
  | .off mode false => s.saved.get? p = some mode ∧ s.switch.poeOut p = some offMode
  | .off _ true => s.switch.poeOut p = some offMode ∧
      ∀ mode, s.saved.get? p = some mode → mode = offMode

/-- What is remembered depends on the port alone. -/
lemma Remembers.congr {p : Text} {r : PowerRecord} (h : Remembers s p r) (s' : PoeControl)
    (hsaved : s'.saved.get? p = s.saved.get? p)
    (hmode : s'.switch.poeOut p = s.switch.poeOut p) : Remembers s' p r := by
  cases r with
  | on =>
      intro mode hget current hcurrent
      exact h mode (hsaved ▸ hget) current (hmode ▸ hcurrent)
  | off mode failed =>
      cases failed with
      | false => exact ⟨hsaved.trans h.1, hmode.trans h.2⟩
      | true => exact ⟨hmode.trans h.1, fun mode hget => h.2 mode (hsaved ▸ hget)⟩

/-- Saving keeps what is remembered. -/
lemma Remembers.save {p : Text} {r : PowerRecord} (h : Remembers s p r)
    {saved : Dict Text Text} {mode : Text} (hmode : saved.get? p = some mode)
    (hold : s.saved.get? p = some mode ∨ s.saved.get? p = none ∧
      ∀ current, s.switch.poeOut p = some current → mode = current) (conn : PoeConn) :
    Remembers ⟨saved, conn, s.switch⟩ p r := by
  rcases hold with hold | ⟨hnone, hcurrent⟩
  · exact h.congr ⟨saved, conn, s.switch⟩ (hmode.trans hold.symm) rfl
  cases r with
  | on =>
      intro mode' hget current hpoe
      obtain rfl : mode = mode' := Option.some.inj (hmode.symm.trans hget)
      exact hcurrent current hpoe
  | off before failed =>
      cases failed with
      | false => exact absurd (hnone.symm.trans h.1) (by simp)
      | true =>
          refine ⟨h.1, fun mode' hget => ?_⟩
          obtain rfl : mode = mode' := Option.some.inj (hmode.symm.trans hget)
          exact hcurrent offMode h.1

/-- **`power_off` keeps what is remembered.** -/
lemma Remembers.powerOff {p : Text} {r : PowerRecord} (h : Remembers s p r)
    (hown : s.SeesOwnAnswers (.powerOff p x)) :
    Remembers (s.powerOff x p).2 p (r.next p s (.powerOff p x)) := by
  rw [PowerRecord.next]
  unfold PoeControl.powerOff
  rcases save_cases hown with ⟨e, conn, he⟩ | ⟨saved, conn, hok, hclean, -, mode, hmode, hold⟩
  · simp only [he]
    rw [if_neg (by simp [Except.isOk, Except.toBool])]
    exact h.congr ⟨s.saved, conn, s.switch⟩ rfl rfl
  have hr := h.save hmode hold conn
  rw [hok]
  simp only
  rcases setPoe_cases (s := ⟨saved, conn, s.switch⟩) hclean x p offMode with
    ⟨⟨e, conn', he⟩, -⟩ | ⟨conn', sw', hset, ⟨cur, hcur⟩, hsw⟩
  · rw [he, if_neg (by simp [Except.isOk, Except.toBool])]
    exact hr
  · have hoff : sw'.poeOut p = some offMode := (hsw p).trans (if_pos rfl)
    rw [hset, if_pos ⟨trivial, rfl⟩]
    cases r with
    | on =>
        have hcurrent : s.switch.poeOut p = some cur := hcur
        rw [hcurrent]
        obtain rfl : mode = cur := hr mode hmode cur hcur
        exact ⟨hmode, hoff⟩
    | off before failed =>
        cases failed with
        | false => exact ⟨hr.1, hoff⟩
        | true => exact ⟨hoff, hr.2⟩

/-- **`power_on` keeps what is remembered.** -/
lemma Remembers.powerOn {p : Text} {r : PowerRecord} (h : Remembers s p r)
    (hclean : s.NothingUnread) (x : CallExchanges) :
    Remembers (s.powerOn x p).2 p (r.next p s (.powerOn p x)) := by
  have hnone : (s.saved.del p).get? p = none := by rw [Dict.get?_del, if_pos rfl]
  have hforgot : ∀ mode, (s.saved.del p).get? p ≠ some mode := fun mode hget =>
    absurd (hnone.symm.trans hget) (by simp)
  rw [PowerRecord.next, if_pos rfl]
  unfold PoeControl.powerOn
  rcases setPoe_cases (s := { s with saved := s.saved.del p }) hclean x p
      (promote ((s.saved.get? p).getD forcedOn)) with
    ⟨⟨e, conn, he⟩, hwhy⟩ | ⟨conn, sw', hok, -, -⟩
  · simp only [he]
    rw [if_neg (by simp [Except.isOk, Except.toBool])]
    cases r with
    | on => exact fun mode hget => absurd hget (hforgot mode)
    | off before failed =>
        have hoff : s.switch.poeOut p = some offMode := by
          cases failed with
          | false => exact h.2
          | true => exact h.1
        have hfails : s.setFails x = true := by
          rcases hwhy with hfails | habsent
          · exact hfails
          · exact absurd (habsent.symm.trans hoff) (by simp)
        rw [PowerRecord.turnOnFailed, hfails, Bool.or_true]
        exact ⟨hoff, fun mode hget => absurd hget (hforgot mode)⟩
  · simp only [hok]
    exact fun mode hget => absurd hget (hforgot mode)

/-- **A call keeps what is remembered.** -/
lemma Remembers.call {p : Text} {r : PowerRecord} (h : Remembers s p r) {c : PowerCall}
    (hown : s.SeesOwnAnswers c) : Remembers (s.call c).2 p (r.next p s c) := by
  by_cases hport : c.port? = some p
  · cases c with
    | powerOff port x =>
        obtain rfl : port = p := Option.some.inj hport
        exact h.powerOff hown
    | powerOn port x =>
        obtain rfl : port = p := Option.some.inj hport
        exact h.powerOn hown x
    | close => cases hport
  · obtain ⟨hsaved, hmode⟩ := call_other hown hport
    have hsame : r.next p s c = r := by
      cases c with
      | powerOff port x => exact if_neg fun hp => hport (congrArg some hp.1)
      | powerOn port x => exact if_neg fun hp => hport (congrArg some hp)
      | close => rfl
    rw [hsame]
    exact h.congr _ hsaved hmode

/-- **So does a run.** -/
lemma Remembers.run {s : PoeControl} {p : Text} {r : PowerRecord} (h : Remembers s p r)
    {calls : List PowerCall} (hown : s.AllSeeOwnAnswers calls) :
    Remembers (s.run calls) p (recordOf p s r calls) := by
  induction calls generalizing s r with
  | nil => exact h
  | cons c calls ih => exact ih (h.call hown.1) hown.2

lemma remembers_new (sw : PoeSwitch) (p : Text) : Remembers (PoeControl.new sw) p .on := by
  intro mode hget
  cases hget

/-! ## Turning a port on -/

lemma promote_ne_off (mode : Text) : promote mode ≠ offMode := by
  rw [promote]
  split_ifs with h
  · decide
  · exact h

/-- What a successful `power_on` sets. -/
lemma powerOn_poeOut (hclean : s.NothingUnread) {p : Text} (hok : (s.powerOn x p).1 = .ok ()) :
    (s.powerOn x p).2.switch.poeOut p =
      some (promote ((s.saved.get? p).getD forcedOn)) := by
  unfold PoeControl.powerOn at hok ⊢
  rcases setPoe_cases (s := { s with saved := s.saved.del p }) hclean x p
      (promote ((s.saved.get? p).getD forcedOn)) with
    ⟨⟨e, conn, he⟩, -⟩ | ⟨conn, sw', hset, -, hsw⟩
  · simp only [he] at hok
    cases hok
  · simp only [hset]
    exact (hsw p).trans (if_pos rfl)

/-- What a successful `power_on` sets once one has failed. -/
lemma promote_of_remembers_failed {p mode : Text} (h : Remembers s p (.off mode true)) :
    promote ((s.saved.get? p).getD forcedOn) = forcedOn := by
  cases hget : s.saved.get? p with
  | none => decide
  | some mode' =>
      rw [h.2 mode' hget]
      decide

/-- **`power_on` restores, unless one has failed.** -/
theorem power_on_restores_iff (sw : PoeSwitch) (calls : List PowerCall) (x : CallExchanges)
    (p : Text) (hown : (PoeControl.new sw).AllSeeOwnAnswers (calls ++ [.powerOn p x]))
    (hok : (((PoeControl.new sw).run calls).powerOn x p).1 = .ok ()) :
    (∃ mode, (((PoeControl.new sw).run calls).powerOn x p).2.switch.poeOut p = some mode ∧
        mode ≠ offMode) ∧
      ∀ mode failed, recordOf p (PoeControl.new sw) .on calls = .off mode failed →
        ((((PoeControl.new sw).run calls).powerOn x p).2.switch.poeOut p = some (promote mode) ↔
          failed = false ∨ promote mode = forcedOn) := by
  obtain ⟨hcalls, hlast, -⟩ := allSeeOwnAnswers_append.mp hown
  have hpoe := powerOn_poeOut hlast hok
  have hrun := (remembers_new sw p).run hcalls
  refine ⟨⟨_, hpoe, promote_ne_off _⟩, fun mode failed hrecord => ?_⟩
  rw [hrecord] at hrun
  rw [hpoe]
  cases failed with
  | false =>
      rw [hrun.1]
      exact ⟨fun _ => .inl rfl, fun _ => rfl⟩
  | true =>
      rw [promote_of_remembers_failed hrun]
      refine ⟨fun h => .inr (Option.some.inj h).symm, ?_⟩
      rintro (h | h)
      · cases h
      · rw [h]

/-- A switch with two interfaces. -/
def labSwitch : PoeSwitch where
  ports := [⟨"*3".toList, "ether3".toList, autoOn⟩, ⟨"*4".toList, "ether4".toList, offMode⟩]
  id_ne_nil := by simp
  ids_nodup := by simp
  names_nodup := by simp

def allAnswered : CallExchanges := ⟨.answered, .answered, .answered⟩

/-- The `set` is refused. -/
def setRefused : CallExchanges :=
  ⟨.answered, .answered, .refused [attrWord "message".toList "failure".toList]⟩

/-- The connection is lost with the first command of `_set_poe`. -/
def connectionLost : CallExchanges := ⟨.answered, .raised .incompleteRead true, .answered⟩

/-- `power_off`, a `power_on` whose connection is lost, and another one over a new connection. -/
def labCalls : List PowerCall :=
  [.powerOff "ether3".toList allAnswered, .powerOff "ether4".toList allAnswered,
    .powerOn "ether4".toList connectionLost, .close]

/-- Two ports are turned off and on, with a connection lost in between. -/
theorem power_on_restores_iff_lab :
    (((PoeControl.new labSwitch).run labCalls).powerOn allAnswered "ether3".toList).1 = .ok () ∧
      ((∃ mode, (((PoeControl.new labSwitch).run labCalls).powerOn allAnswered
          "ether3".toList).2.switch.poeOut "ether3".toList = some mode ∧ mode ≠ offMode) ∧
        ∀ mode failed, recordOf "ether3".toList (PoeControl.new labSwitch) .on labCalls =
            .off mode failed →
          ((((PoeControl.new labSwitch).run labCalls).powerOn allAnswered
              "ether3".toList).2.switch.poeOut "ether3".toList = some (promote mode) ↔
            failed = false ∨ promote mode = forcedOn)) := by
  have hok : (((PoeControl.new labSwitch).run labCalls).powerOn allAnswered
      "ether3".toList).1 = .ok () := by
    decide +kernel
  have hown : (PoeControl.new labSwitch).AllSeeOwnAnswers
      (labCalls ++ [.powerOn "ether3".toList allAnswered]) :=
    ⟨⟨rfl, fun _ _ => nofun⟩, ⟨by decide +kernel, fun _ _ => nofun⟩,
      (by decide +kernel : PoeControl.NothingUnread _), trivial,
      (by decide +kernel : PoeControl.NothingUnread _), trivial⟩
  exact ⟨hok, power_on_restores_iff labSwitch labCalls allAnswered "ether3".toList hown hok⟩

/-- A `power_on` that is refused loses the mode of the port, and the `!done` it leaves unread lets
another one set the wrong port: the first port was in `auto-on` and is forced on, the second stays
off. -/
theorem power_on_may_lose_mode :
    (¬ ∀ (sw : PoeSwitch) (calls : List PowerCall) (x : CallExchanges) (p : Text),
      (((PoeControl.new sw).run calls).powerOn x p).1 = .ok () →
        ∀ mode failed, recordOf p (PoeControl.new sw) .on calls = .off mode failed →
          (((PoeControl.new sw).run calls).powerOn x p).2.switch.poeOut p =
            some (promote mode)) ∧
      ¬ ∀ (sw : PoeSwitch) (calls : List PowerCall) (x : CallExchanges) (p : Text),
        (((PoeControl.new sw).run calls).powerOn x p).1 = .ok () →
          ∃ mode, (((PoeControl.new sw).run calls).powerOn x p).2.switch.poeOut p = some mode ∧
            mode ≠ offMode := by
  constructor
  · intro h
    have hlost := h labSwitch [.powerOff "ether3".toList allAnswered,
      .powerOn "ether3".toList setRefused, .powerOn "ether3".toList allAnswered] allAnswered
      "ether3".toList (by decide +kernel) autoOn true (by decide +kernel)
    revert hlost
    decide +kernel
  · intro h
    have hwrong := h labSwitch [.powerOn "ether3".toList setRefused,
      .powerOn "ether3".toList allAnswered] allAnswered "ether4".toList (by decide +kernel)
    obtain ⟨mode, hmode, hne⟩ := hwrong
    have hoff : (((PoeControl.new labSwitch).run [.powerOn "ether3".toList setRefused,
        .powerOn "ether3".toList allAnswered]).powerOn allAnswered
          "ether4".toList).2.switch.poeOut "ether4".toList = some offMode := by
      decide +kernel
    rw [hoff] at hmode
    exact hne (Option.some.inj hmode).symm

end RouterOs

end Defib
