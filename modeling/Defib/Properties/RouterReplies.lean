import Defib.Power.RouterOs

/-!
# Replies and commands of RouterOS

Words and sentences are read back (`readSentence_sendSentence`), in all four forms of the length.

The client takes `!trap` for the end of an answer, and leaves the `!done` behind it unread: the next
call takes that for its response, and from there on all are one answer behind.
`router_replies_iff` says that responses stay matched to commands exactly when no command but the
last is answered with `!trap`.
-/

namespace Defib

namespace RouterOs

open StreamReader

/-! ## Lengths -/

lemma lor_eq_add {a b i : ℕ} (h : b < 2 ^ i) : (a <<< i) ||| b = a * 2 ^ i + b := by
  rw [← Nat.shiftLeft_add_eq_or_of_lt h, Nat.shiftLeft_eq]

/-- The bits that say which form a length has. -/
lemma lor_form {b i a : ℕ} (form : ℕ) (hform : form = 2 ^ i * a) (h : b < 2 ^ i) :
    b ||| form = form + b := by
  rw [hform, Nat.or_comm, Nat.two_pow_add_eq_or_of_lt h]

lemma and_mask (b mask i : ℕ) (hmask : mask = 2 ^ i - 1) : b &&& mask = b % 2 ^ i := by
  rw [hmask, Nat.and_two_pow_sub_one_eq_mod]

lemma toNat_ofNat_mod (n : ℕ) : (UInt8.ofNat n).toNat = n % 256 := UInt8.toNat_ofNat'

lemma reads_readexactly {n : ℕ} {xs : List UInt8} (h : xs.length = n) :
    Reads (readexactly n) xs xs := reads_exactly _ h

lemma reads_length_one {n : ℕ} (h : n < 0x80) : Reads readLength [UInt8.ofNat n] n := by
  refine Reads.bind_pure (reads_readexactly rfl) ?_
  simp only [List.getD_cons_zero, toNat_ofNat_mod]
  rw [if_pos (by omega), Nat.mod_eq_of_lt (by omega)]
  exact reads_pure n

lemma reads_length_two {n : ℕ} (hn : 0x80 ≤ n) (h : n < 0x4000) :
    Reads readLength (packBe16 (n ||| 0x8000)) n := by
  rw [lor_form 0x8000 (i := 15) (a := 1) rfl (by omega)]
  refine (reads_readexactly (rfl : [_].length = 1)).bind ?_
  simp only [List.getD_cons_zero, toNat_ofNat_mod]
  rw [if_neg (by omega), if_pos (by omega)]
  refine Reads.bind_pure (reads_readexactly rfl) ?_
  simp only [List.getD_cons_zero, toNat_ofNat_mod]
  rw [and_mask _ 0x3F 6 rfl, lor_eq_add (by omega)]
  have hvalue : (0x8000 + n) / 2 ^ 8 % 256 % 2 ^ 6 * 2 ^ 8 + (0x8000 + n) % 256 = n := by
    omega
  rw [hvalue]
  exact reads_pure n

lemma reads_length_three {n : ℕ} (hn : 0x4000 ≤ n) (h : n < 0x200000) :
    Reads readLength
      (UInt8.ofNat (((n ||| 0xC00000) >>> 16) &&& 0xFF) :: packBe16 ((n ||| 0xC00000) &&& 0xFFFF))
      n := by
  rw [lor_form 0xC00000 (i := 22) (a := 3) rfl (by omega), and_mask _ 0xFF 8 rfl,
    and_mask _ 0xFFFF 16 rfl, Nat.shiftRight_eq_div_pow]
  refine (reads_readexactly (rfl : [_].length = 1)).bind ?_
  simp only [List.getD_cons_zero, toNat_ofNat_mod]
  rw [if_neg (by omega), if_neg (by omega), if_pos (by omega)]
  refine Reads.bind_pure (reads_readexactly rfl) ?_
  simp only [List.getD_cons_zero, List.getD_cons_succ, toNat_ofNat_mod]
  rw [and_mask _ 0x1F 5 rfl, Nat.lor_assoc, lor_eq_add (i := 8) (by omega), lor_eq_add (by omega)]
  have hvalue : (0xC00000 + n) / 2 ^ 16 % 2 ^ 8 % 256 % 2 ^ 5 * 2 ^ 16 +
      ((0xC00000 + n) % 2 ^ 16 / 2 ^ 8 % 256 * 2 ^ 8 + (0xC00000 + n) % 2 ^ 16 % 256) = n := by
    omega
  rw [hvalue]
  exact reads_pure n

lemma reads_length_four {n : ℕ} (hn : 0x200000 ≤ n) (h : n < 0x10000000) :
    Reads readLength (packBe32 (n ||| 0xE0000000)) n := by
  rw [lor_form 0xE0000000 (i := 29) (a := 7) rfl (by omega)]
  refine (reads_readexactly (rfl : [_].length = 1)).bind ?_
  simp only [List.getD_cons_zero, toNat_ofNat_mod]
  rw [if_neg (by omega), if_neg (by omega), if_neg (by omega), if_pos (by omega)]
  refine Reads.bind_pure (reads_readexactly rfl) ?_
  simp only [List.getD_cons_zero, List.getD_cons_succ, toNat_ofNat_mod]
  rw [and_mask _ 0x0F 4 rfl, Nat.lor_assoc, Nat.lor_assoc, lor_eq_add (i := 8) (by omega),
    lor_eq_add (i := 16) (by omega), lor_eq_add (by omega)]
  have hvalue : (0xE0000000 + n) / 2 ^ 24 % 256 % 2 ^ 4 * 2 ^ 24 +
      ((0xE0000000 + n) / 2 ^ 16 % 256 * 2 ^ 16 +
        ((0xE0000000 + n) / 2 ^ 8 % 256 * 2 ^ 8 + (0xE0000000 + n) % 256)) = n := by
    omega
  rw [hvalue]
  exact reads_pure n

/-- **Lengths are read back**, in all four forms. -/
lemma reads_readLength {n : ℕ} (h : n < 2 ^ 28) :
    ∃ head, encodeLength n = .ok head ∧ head ≠ [] ∧ Reads readLength head n := by
  rw [encodeLength]
  by_cases h1 : n < 0x80
  · rw [if_pos h1]
    exact ⟨_, rfl, List.cons_ne_nil _ _, reads_length_one h1⟩
  rw [if_neg h1]
  by_cases h2 : n < 0x4000
  · rw [if_pos h2]
    exact ⟨_, rfl, List.cons_ne_nil _ _, reads_length_two (by omega) h2⟩
  rw [if_neg h2]
  by_cases h3 : n < 0x200000
  · rw [if_pos h3]
    exact ⟨_, rfl, List.cons_ne_nil _ _, reads_length_three (by omega) h3⟩
  · rw [if_neg h3, if_pos (by omega)]
    exact ⟨_, rfl, List.cons_ne_nil _ _, reads_length_four (by omega) (by omega)⟩

/-! ## Words and sentences -/

/-- What is owed is read, or replaced. -/
lemma decodeUtf8From_ne_nil {s : Utf8State} (h : s.owed ≠ 0) (bytes : List UInt8) :
    decodeUtf8From s bytes ≠ [] := by
  induction bytes generalizing s with
  | nil =>
      rw [decodeUtf8From, if_neg h]
      exact List.cons_ne_nil _ _
  | cons b bs ih =>
      rw [decodeUtf8From, if_neg h]
      split
      · split
        · exact List.cons_ne_nil _ _
        · rename_i hone
          exact ih (s := ⟨s.owed - 1, _, _, _⟩) (by simp only; omega)
      · exact List.cons_ne_nil _ _

/-- A word with a byte is not the empty word. -/
lemma decodeUtf8Replace_ne_nil {bytes : List UInt8} (h : bytes ≠ []) :
    decodeUtf8Replace bytes ≠ [] := by
  obtain ⟨b, bs, rfl⟩ := List.exists_cons_of_ne_nil h
  rw [decodeUtf8Replace, decodeUtf8From_start]
  by_cases hone : (Utf8State.start b.toNat).1 = []
  · rw [hone, List.nil_append]
    refine decodeUtf8From_ne_nil ?_ bs
    revert hone
    rw [Utf8State.start]
    split_ifs <;> simp
  · exact List.append_ne_nil_of_left_ne_nil hone _

lemma encodeUtf8_ne_nil {text : Text} (h : text ≠ []) : encodeUtf8 text ≠ [] := by
  intro hnil
  have hread := decodeUtf8Replace_encodeUtf8 text
  rw [hnil] at hread
  exact h hread.symm

lemma ReplyWord.text_ne_nil (w : ReplyWord) : w.text ≠ [] :=
  decodeUtf8Replace_ne_nil w.bytes_ne_nil

/-- A word on the wire. -/
lemma ReplyWord.encodePayload_eq (w : ReplyWord) : encodePayload w.bytes = .ok w.wire := by
  obtain ⟨head, hhead, -, -⟩ := reads_readLength w.length_lt
  rw [wire, encodePayload, hhead]

lemma ReplyWord.wire_ne_nil (w : ReplyWord) : w.wire ≠ [] := by
  obtain ⟨head, hhead, hne, -⟩ := reads_readLength w.length_lt
  rw [wire, encodePayload, hhead]
  exact List.append_ne_nil_of_left_ne_nil hne _

/-- **Words are read back.** -/
lemma reads_readWord (w : ReplyWord) : Reads readWord w.wire w.text := by
  obtain ⟨head, hhead, -, hread⟩ := reads_readLength w.length_lt
  rw [ReplyWord.wire, encodePayload, hhead]
  refine Reads.bind hread ?_
  rw [if_neg (fun h => w.bytes_ne_nil (List.length_eq_zero_iff.mp h))]
  exact Reads.bind_pure (reads_readexactly rfl) (reads_pure _)

lemma reads_readWord_empty : Reads readWord [0] [] :=
  Reads.bind_pure (reads_length_one (n := 0) (by decide)) (reads_pure _)

/-- The words of a sentence, after the words read so far. -/
lemma reads_readSentence_from (words : List ReplyWord) (acc : List Text) :
    Reads (forever .incompleteRead readSentenceRound acc)
      (words.flatMap ReplyWord.wire ++ [0]) (acc ++ words.map ReplyWord.text) := by
  induction words generalizing acc with
  | nil =>
      rw [List.map_nil, List.append_nil]
      exact Reads.forever_stop (Reads.bind_pure reads_readWord_empty (reads_pure _))
        (List.cons_ne_nil _ _)
  | cons w ws ih =>
      have hround : Reads (readSentenceRound acc) w.wire (.inl (acc ++ [w.text])) := by
        refine Reads.bind_pure (reads_readWord w) ?_
        rw [if_neg w.text_ne_nil]
        exact reads_pure _
      rw [List.flatMap_cons, List.append_assoc, List.map_cons, List.append_cons acc]
      exact Reads.forever_again hround w.wire_ne_nil (ih _)

/-- **Sentences are read back.** -/
lemma reads_readSentence (words : List ReplyWord) :
    Reads readSentence (words.flatMap ReplyWord.wire ++ [0]) (words.map ReplyWord.text) :=
  reads_readSentence_from words []

/-- A word of a command on the wire. -/
def ApiWord.word (w : ApiWord) : ReplyWord :=
  ⟨encodeUtf8 w.text, encodeUtf8_ne_nil w.text_ne_nil, w.length_lt⟩

lemma ApiWord.text_word (w : ApiWord) : w.word.text = w.text :=
  decodeUtf8Replace_encodeUtf8 w.text

/-- What the client writes for a command. -/
lemma sendSentence_eq (words : List ApiWord) :
    sendSentence (words.map ApiWord.text) =
      ((words.map ApiWord.word).flatMap ReplyWord.wire ++ [0], .ok ()) := by
  induction words with
  | nil => rfl
  | cons w ws ih =>
      have hword : encodeWord w.text = .ok w.word.wire := w.word.encodePayload_eq
      rw [List.map_cons, sendSentence, hword, List.map_cons, List.flatMap_cons, List.append_assoc]
      simp only [ih]

/-- **What the client writes is read back.** -/
lemma readSentence_sendSentence (words : List ApiWord) (rest : List UInt8) :
    (sendSentence (words.map ApiWord.text)).2 = .ok () ∧
      readSentence ((sendSentence (words.map ApiWord.text)).1 ++ rest) =
        .ok (words.map ApiWord.text, rest) := by
  rw [sendSentence_eq]
  refine ⟨rfl, ?_⟩
  have hread := reads_readSentence (words.map ApiWord.word) rest
  have htexts : ReplyWord.text ∘ ApiWord.word = ApiWord.text := funext ApiWord.text_word
  rwa [List.map_map, htexts] at hread

/-! ## Responses -/

lemma Reply.wire_ne_nil (r : Reply) : r.wire ≠ [] :=
  List.append_ne_nil_of_right_ne_nil _ (List.cons_ne_nil _ _)

lemma reads_reply (r : Reply) : Reads readSentence r.wire r.texts :=
  reads_readSentence (r.kind :: r.attributes)

lemma text_reReply : reReply.text = reWord := decodeUtf8Replace_encodeUtf8 reWord
lemma text_doneReply : doneReply.text = doneWord := decodeUtf8Replace_encodeUtf8 doneWord
lemma text_trapReply : trapReply.text = trapWord := decodeUtf8Replace_encodeUtf8 trapWord

/-- A round of the client on an item. -/
lemma reads_round_item (attributes : List ReplyWord) (acc : List (List Text)) :
    Reads (readResponseRound acc) (Reply.wire ⟨reReply, attributes⟩)
      (.inl (acc ++ [Reply.texts ⟨reReply, attributes⟩])) := by
  refine Reads.bind_pure (reads_reply _) ?_
  rw [Reply.texts]
  simp only
  rw [text_reReply, if_neg (by decide)]
  exact reads_pure _

/-- A round of the client on the sentence that it takes for the end. -/
lemma reads_round_end {kind : ReplyWord} (hkind : kind.text = doneWord ∨ kind.text = trapWord)
    (attributes : List ReplyWord) (acc : List (List Text)) :
    Reads (readResponseRound acc) (Reply.wire ⟨kind, attributes⟩)
      (.inr (acc ++ [Reply.texts ⟨kind, attributes⟩])) := by
  refine Reads.bind_pure (reads_reply _) ?_
  rw [Reply.texts]
  simp only
  rw [if_pos hkind]
  exact reads_pure _

/-- The client reads items up to the sentence that it takes for the end. -/
lemma reads_response_from {kind : ReplyWord}
    (hkind : kind.text = doneWord ∨ kind.text = trapWord) (attributes : List ReplyWord)
    (items : List (List ReplyWord)) (acc : List (List Text)) :
    Reads (forever .incompleteRead readResponseRound acc)
      ((items.map fun a => Reply.wire ⟨reReply, a⟩).flatten ++ Reply.wire ⟨kind, attributes⟩)
      (acc ++ (items.map fun a => Reply.texts ⟨reReply, a⟩) ++
        [Reply.texts ⟨kind, attributes⟩]) := by
  induction items generalizing acc with
  | nil =>
      rw [List.map_nil, List.map_nil, List.flatten_nil, List.nil_append, List.append_nil]
      exact Reads.forever_stop (reads_round_end hkind attributes acc) (Reply.wire_ne_nil _)
  | cons a items ih =>
      rw [List.map_cons, List.map_cons, List.flatten_cons, List.append_assoc,
        List.append_cons acc]
      exact Reads.forever_again (reads_round_item a acc) (Reply.wire_ne_nil _) (ih _)

namespace AnswerEnd

/-- The sentence that the client takes for the end of the answer. -/
def closing : AnswerEnd → Reply
  | .done attributes => ⟨doneReply, attributes⟩
  | .trapped attributes _ => ⟨trapReply, attributes⟩

/-- What the client leaves unread of the answer. -/
def left : AnswerEnd → List Reply
  | .done _ => []
  | .trapped _ doneAttributes => [⟨doneReply, doneAttributes⟩]

lemma replies_eq (a : AnswerEnd) : a.replies = a.closing :: a.left := by
  cases a with
  | done attributes => rfl
  | trapped attributes doneAttributes => rfl

lemma closes (a : AnswerEnd) : a.closing.kind.text = doneWord ∨ a.closing.kind.text = trapWord := by
  cases a with
  | done attributes => exact .inl text_doneReply
  | trapped attributes doneAttributes => exact .inr text_trapReply

end AnswerEnd

namespace Exchange

variable (e : Exchange)

/-- The response that the client is to return. -/
def response : List (List Text) :=
  (e.items.map fun a => Reply.texts ⟨reReply, a⟩) ++ [e.ending.closing.texts]

/-- The client's response is the front of the answer. -/
lemma response_prefix : e.response <+: e.replies.map Reply.texts := by
  refine ⟨e.ending.left.map Reply.texts, ?_⟩
  rw [response, replies, e.ending.replies_eq, List.map_append, List.map_map, List.map_cons,
    List.append_assoc]
  rfl

/-- **What the client reads of an answer.** -/
lemma readResponse_wire (rest : List UInt8) :
    readResponse (e.wire ++ rest) =
      .ok (e.response, e.ending.left.flatMap Reply.wire ++ rest) := by
  have hread := reads_response_from e.ending.closes e.ending.closing.attributes e.items []
    (e.ending.left.flatMap Reply.wire ++ rest)
  have hwire : e.wire = (e.items.map fun a => Reply.wire ⟨reReply, a⟩).flatten ++
      e.ending.closing.wire ++ e.ending.left.flatMap Reply.wire := by
    rw [wire, replies, e.ending.replies_eq, List.flatMap_append, List.flatMap_cons,
      List.flatMap_map, List.append_assoc]
    rfl
  rw [hwire, List.append_assoc]
  exact hread

lemma call_command (stream : List UInt8) :
    (call (e.command.map ApiWord.text) stream).2 = readResponse stream := by
  rw [call, sendSentence_eq]

end Exchange

/-! ## Sessions -/

/-- A call returned sentences of the answer to its own command, from the part of the stream where
the router sent it. -/
structure OwnAnswer (e : Exchange) (start : ℕ) (o : CallOutcome) : Prop where
  returned : ∃ response, o.result = .ok response ∧ response <+: e.replies.map Reply.texts
  start_le : start ≤ o.first
  le_stop : o.last ≤ start + e.wire.length

/-- The calls of a session that stands at a point of the stream stay matched to the commands. -/
def MatchedFrom (start : ℕ) (es : List Exchange) (outcomes : List CallOutcome) : Prop :=
  ∀ k e, es[k]? = some e → ∃ o, outcomes[k]? = some o ∧ OwnAnswer e (start + answerStart es k) o

/-- The calls of a session stay matched to the commands. -/
def Matched (es : List Exchange) : Prop := MatchedFrom 0 es (session .new es)

/-- An answer without a failure. -/
def Exchange.Done (e : Exchange) : Prop := ∃ attributes, e.ending = .done attributes

lemma matchedFrom_cons {start : ℕ} {e : Exchange} {es : List Exchange} {o : CallOutcome}
    {outcomes : List CallOutcome} :
    MatchedFrom start (e :: es) (o :: outcomes) ↔
      OwnAnswer e start o ∧ MatchedFrom (start + e.wire.length) es outcomes := by
  have hstart : ∀ k, start + answerStart (e :: es) (k + 1) =
      start + e.wire.length + answerStart es k := by
    intro k
    rw [answerStart, List.take_succ_cons, List.flatMap_cons, List.length_append, ← answerStart,
      Nat.add_assoc]
  constructor
  · intro h
    refine ⟨?_, fun k e' he' => ?_⟩
    · obtain ⟨o', ho', hown⟩ := h 0 e rfl
      obtain rfl := Option.some.inj ho'
      exact hown
    · obtain ⟨o', ho', hown⟩ := h (k + 1) e' he'
      rw [hstart] at hown
      exact ⟨o', ho', hown⟩
  · rintro ⟨hown, h⟩ k e' he'
    cases k with
    | zero =>
        obtain rfl := Option.some.inj he'
        exact ⟨o, rfl, hown⟩
    | succ k =>
        obtain ⟨o', ho', hown'⟩ := h k e' he'
        rw [hstart]
        exact ⟨o', ho', hown'⟩

/-- The first call of a session, when nothing of earlier answers is unread. -/
lemma session_clean (sent : ℕ) (e : Exchange) (es : List Exchange) :
    session ⟨sent, []⟩ (e :: es) =
      ⟨.ok e.response, sent,
          sent + e.wire.length - (e.ending.left.flatMap Reply.wire).length⟩ ::
        session ⟨sent + e.wire.length, e.ending.left.flatMap Reply.wire⟩ es := by
  have hread := e.readResponse_wire []
  rw [List.append_nil, List.append_nil] at hread
  rw [session, e.call_command, List.nil_append, hread]
  rfl

/-- A call that begins behind the answers before it is not matched. -/
lemma not_matched_of_unread {sent : ℕ} {unread : List UInt8} (hne : unread ≠ [])
    (hle : unread.length ≤ sent) (e : Exchange) (es : List Exchange) :
    ¬ MatchedFrom sent (e :: es) (session ⟨sent, unread⟩ (e :: es)) := by
  intro h
  obtain ⟨o, ho, hown⟩ := h 0 e rfl
  have hpos : 0 < unread.length := List.length_pos_iff.mpr hne
  have hfirst : o.first = sent - unread.length := by
    rw [session] at ho
    split at ho
    · rw [← Option.some.inj ho]
    · rw [← Option.some.inj ho]
  have hstart := hown.start_le
  rw [hfirst, answerStart, List.take_zero, List.flatMap_nil, List.length_nil] at hstart
  omega

/-- **A session stays matched exactly when no command but the last fails**, from a point on where
nothing is unread. -/
lemma matchedFrom_iff (es : List Exchange) (sent : ℕ) :
    MatchedFrom sent es (session ⟨sent, []⟩ es) ↔ ∀ e ∈ es.dropLast, e.Done := by
  induction es generalizing sent with
  | nil =>
      refine iff_of_true (fun k e he => ?_) fun e he => absurd he List.not_mem_nil
      cases he
  | cons e es ih =>
      have hown : OwnAnswer e sent ⟨.ok e.response, sent,
          sent + e.wire.length - (e.ending.left.flatMap Reply.wire).length⟩ :=
        ⟨⟨e.response, rfl, e.response_prefix⟩, Nat.le_refl _, Nat.sub_le _ _⟩
      rw [session_clean, matchedFrom_cons, and_iff_right hown]
      cases es with
      | nil =>
          refine iff_of_true (fun k e he => ?_) fun e he => absurd he List.not_mem_nil
          cases he
      | cons e' es =>
          rw [List.dropLast_cons_cons, List.forall_mem_cons]
          cases hend : e.ending with
          | done attributes =>
              rw [and_iff_right ⟨attributes, hend⟩]
              exact ih _
          | trapped attributes doneAttributes =>
              have hnot : ¬ e.Done := by
                rintro ⟨a, ha⟩
                rw [hend] at ha
                cases ha
              refine iff_of_false (not_matched_of_unread ?_ ?_ e' es) fun h => hnot h.1
              · exact List.append_ne_nil_of_left_ne_nil (Reply.wire_ne_nil _) _
              · rw [Exchange.wire, Exchange.replies, e.ending.replies_eq, hend]
                simp only [AnswerEnd.left, List.flatMap_append, List.flatMap_cons,
                  List.flatMap_nil, List.length_append]
                omega

end RouterOs

open RouterOs

/-- **Replies stay matched to commands**: what is written for a list of words is read back, and in
every session each call returns sentences of its own answer exactly when no command but the last
is answered with `!trap`. -/
theorem router_replies_iff (es : List Exchange) :
    (∀ (words : List ApiWord) (rest : List UInt8),
      (sendSentence (words.map ApiWord.text)).2 = .ok () ∧
        readSentence ((sendSentence (words.map ApiWord.text)).1 ++ rest) =
          .ok (words.map ApiWord.text, rest)) ∧
      (Matched es ↔ ∀ e ∈ es.dropLast, e.Done) :=
  ⟨readSentence_sendSentence, matchedFrom_iff es 0⟩

/-- A command that is answered with one state of a port. -/
def poeState (state : Text) (hstate : (encodeUtf8 state).length < 2 ^ 28)
    (hne : encodeUtf8 state ≠ []) : Exchange :=
  ⟨[⟨"/poe/print".toList, by decide, by decide⟩], [[⟨encodeUtf8 state, hne, hstate⟩]], .done []⟩

/-- A command that fails, and two that ask for the state of a port. -/
def poeCommands : List Exchange :=
  [⟨[⟨"/poe/set".toList, by decide, by decide⟩], [], .trapped [] []⟩,
    poeState "=poe-out=off".toList (by decide) (by decide),
    poeState "=poe-out=on".toList (by decide) (by decide)]

/-- The third call returns the answer to the second command. -/
theorem stale_response_after_trap :
    ¬ Matched poeCommands ∧
      (session .new poeCommands).map CallOutcome.result =
        [.ok [["!trap".toList]], .ok [["!done".toList]],
          .ok [["!re".toList, "=poe-out=off".toList], ["!done".toList]]] := by
  have hsession : session .new poeCommands =
      [⟨.ok [["!trap".toList]], 0, 7⟩, ⟨.ok [["!done".toList]], 7, 14⟩,
        ⟨.ok [["!re".toList, "=poe-out=off".toList], ["!done".toList]], 14, 39⟩] := by
    decide +kernel
  refine ⟨fun h => ?_, by rw [hsession]; rfl⟩
  obtain ⟨o, ho, hown⟩ := h 1 _ rfl
  rw [hsession] at ho
  obtain rfl := Option.some.inj ho
  exact absurd hown.start_le (by decide +kernel)

end Defib
