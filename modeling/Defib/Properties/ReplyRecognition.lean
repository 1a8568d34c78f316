import Defib.Boot.Replies

/-!
# Replies behind noise

A reply may come behind noise and in pieces.  `HiSiliconV500.handshake` takes each read for an
answer by itself, so that it sees the reply only when a read begins with it.
`HiSiliconCV6xx._get_board_id` joins what it reads but looks at the first `0xCE` only: one `0xCE` in
the noise, and the board ID is the default.  `replies_recognised_iff` has the exact conditions.
-/

namespace Defib

/-! ## Replies in a stream -/

/-- `reply` is the first reply in the stream: none begins in the noise. -/
structure FirstReply (IsReply : List UInt8 → Prop) (noise reply : List UInt8) : Prop where
  isReply : IsReply reply
  noEarlier : ∀ i < noise.length, ¬ IsReply (((noise ++ reply).drop i).take reply.length)

namespace HiSiliconV500

/-- 14 bytes that begin with `BD 00`. -/
def IsReply (r : List UInt8) : Prop := r.length = 14 ∧ [0xBD, 0x00] <+: r

instance : DecidablePred IsReply := fun _ => inferInstanceAs (Decidable (_ ∧ _))

/-- The chip ID of a reply. -/
def replyChipId (r : List UInt8) : ℕ := readBe32 ((r.drop 8).take 4)

/-- A read begins with the reply and has its chip ID.  A read of the last 12 bytes will do as well,
if they look like a reply and say the same. -/
def ReadFromStart (noise reply : List UInt8) (reads : List (List UInt8)) : Prop :=
  ∃ front response rest, reads = front ++ response :: rest ∧ 12 ≤ response.length ∧
    (front.flatten = noise ∨
      front.flatten = noise ++ reply.take 2 ∧ [0xBD, 0x00] <+: reply.drop 2 ∧
        replyChipId (reply.drop 2) = replyChipId reply)

lemma chipIdOf_eq_some_iff {response : List UInt8} {chipId : ℕ} :
    chipIdOf response = some chipId ↔
      ([0xBD, 0x00] <+: response ∧ 12 ≤ response.length) ∧ replyChipId response = chipId := by
  rw [chipIdOf, replyChipId]
  by_cases h : [0xBD, 0x00] <+: response ∧ 12 ≤ response.length
  · rw [if_pos (by simpa using h), Option.some.injEq, and_iff_right h]
  · rw [if_neg (by simpa using h)]
    exact iff_of_false (by simp) fun h' => h h'.1

lemma replyChipId_prefix {response r : List UInt8} (h : response <+: r)
    (hlen : 12 ≤ response.length) : replyChipId response = replyChipId r := by
  obtain ⟨t, rfl⟩ := h
  rw [replyChipId, replyChipId, List.drop_append_of_le_length (by omega),
    List.take_append_of_le_length (by rw [List.length_drop]; omega)]

lemma chipIdOf_of_prefix {response r : List UInt8} (h : response <+: r)
    (hlen : 12 ≤ response.length) (hstart : [0xBD, 0x00] <+: r) :
    chipIdOf response = some (replyChipId r) := by
  apply chipIdOf_eq_some_iff.mpr
  refine ⟨⟨?_, hlen⟩, replyChipId_prefix h hlen⟩
  exact List.prefix_of_prefix_length_le hstart h (Nat.le_trans (Nat.le_add_left 2 10) hlen)

/-- The handshake ends with the first read that has a chip ID. -/
lemma exists_of_mem {reads : List (List UInt8)} {response : List UInt8} (hmem : response ∈ reads)
    (hsome : chipIdOf response ≠ none) :
    ∃ front response rest chipId, reads = front ++ response :: rest ∧
      (∀ x ∈ front, chipIdOf x = none) ∧ chipIdOf response = some chipId ∧
      handshakeOver reads = .ok (detected chipId) := by
  induction reads with
  | nil => exact absurd hmem List.not_mem_nil
  | cons first reads ih =>
      cases hfirst : chipIdOf first with
      | some chipId =>
          exact ⟨[], first, reads, chipId, rfl, List.forall_mem_nil _, hfirst,
            handshakeOver_of_some hfirst reads⟩
      | none =>
          have hrest : response ∈ reads := by
            rcases List.mem_cons.mp hmem with rfl | hrest
            · exact absurd hfirst hsome
            · exact hrest
          obtain ⟨front, response', rest, chipId, rfl, hfront, hresponse, hresult⟩ := ih hrest
          refine ⟨first :: front, response', rest, chipId, rfl, ?_, hresponse, ?_⟩
          · exact List.forall_mem_cons.mpr ⟨hfirst, hfront⟩
          · rw [handshakeOver_of_none hfirst, hresult]

lemma handshakeOver_eq_error {reads : List (List UInt8)} (h : ∀ x ∈ reads, chipIdOf x = none) :
    handshakeOver reads = .error stillWaiting := by
  induction reads with
  | nil => rfl
  | cons first reads ih =>
      obtain ⟨hfirst, hreads⟩ := List.forall_mem_cons.mp h
      rw [handshakeOver_of_none hfirst, ih hreads]

/-- **Where a read with a chip ID begins**: at the reply, or two bytes into it. -/
lemma chipIdOf_read {noise reply front response rest : List UInt8} {chipId : ℕ}
    (h : FirstReply IsReply noise reply) (hstream : front ++ (response ++ rest) = noise ++ reply)
    (hsome : chipIdOf response = some chipId) :
    (front = noise ∧ chipId = replyChipId reply) ∨
      (front = noise ++ reply.take 2 ∧ [0xBD, 0x00] <+: reply.drop 2 ∧
        chipId = replyChipId (reply.drop 2)) := by
  obtain ⟨⟨hstart, hlen⟩, rfl⟩ := chipIdOf_eq_some_iff.mp hsome
  obtain ⟨hreply, hreplyStart⟩ := h.isReply
  have hlength := congrArg List.length hstream
  simp only [List.length_append] at hlength
  have hbefore : ¬ front.length < noise.length := by
    intro hlt
    apply h.noEarlier _ hlt
    rw [← hstream, List.drop_left' rfl, hreply]
    constructor
    · rw [List.length_take, List.length_append]
      omega
    · rw [List.prefix_take_iff]
      exact ⟨hstart.trans (List.prefix_append _ _), Nat.le_add_left 2 12⟩
  obtain ⟨t, rfl, hrest⟩ : ∃ t, front = noise ++ t ∧ reply = t ++ (response ++ rest) := by
    rcases List.append_eq_append_iff.mp hstream with ⟨t, rfl, hrest⟩ | hbehind
    · have ht : t = [] := by
        apply List.length_eq_zero_iff.mp
        rw [List.length_append] at hbefore
        omega
      subst ht
      exact ⟨[], (List.append_nil _).symm ▸ (List.append_nil _).symm, hrest.symm⟩
    · exact hbehind
  have hresponse : response <+: response ++ rest := List.prefix_append _ _
  rcases t with _ | ⟨x, _ | ⟨y, _ | ⟨z, t⟩⟩⟩
  · left
    rw [hrest]
    exact ⟨List.append_nil _, replyChipId_prefix hresponse hlen⟩
  · -- the second byte of the reply would be the first byte of the response
    exfalso
    obtain ⟨u, rfl⟩ := hstart
    rw [hrest] at hreplyStart
    simp [List.cons_prefix_cons] at hreplyStart
  · right
    rw [hrest]
    exact ⟨rfl, hstart.trans hresponse, replyChipId_prefix hresponse hlen⟩
  · exfalso
    have := congrArg List.length hrest
    simp only [List.length_append, List.length_cons] at this
    omega

/-- When the handshake returns the chip ID of the reply. -/
lemma handshakeOver_iff {noise reply : List UInt8} (h : FirstReply IsReply noise reply)
    {reads : List (List UInt8)} (hreads : reads.flatten = noise ++ reply) :
    handshakeOver reads = .ok (detected (replyChipId reply)) ↔ ReadFromStart noise reply reads := by
  have hstream : ∀ {front response rest}, reads = front ++ response :: rest →
      front.flatten ++ (response ++ rest.flatten) = noise ++ reply := by
    intro front response rest heq
    rw [← hreads, heq, List.flatten_append, List.flatten_cons]
  constructor
  · intro hresult
    have hsome : ∃ response ∈ reads, chipIdOf response ≠ none := by
      by_contra hnone
      push Not at hnone
      rw [handshakeOver_eq_error hnone] at hresult
      cases hresult
    obtain ⟨response, hmem, hne⟩ := hsome
    obtain ⟨front, first, rest, chipId, heq, -, hfirst, hfound⟩ := exists_of_mem hmem hne
    have hid : chipId = replyChipId reply := by
      rw [hfound] at hresult
      exact Option.some.inj (congrArg HandshakeResult.chipId (Except.ok.inj hresult))
    have hlen := (chipIdOf_eq_some_iff.mp hfirst).1.2
    refine ⟨front, first, rest, heq, hlen, ?_⟩
    rcases chipIdOf_read h (hstream heq) hfirst with ⟨hfront, -⟩ | ⟨hfront, hstart, hagain⟩
    · exact .inl hfront
    · exact .inr ⟨hfront, hstart, hagain.symm.trans hid⟩
  · rintro ⟨front, response, rest, heq, hlen, hwhere⟩
    have hjoined := hstream heq
    have hsome : chipIdOf response = some (replyChipId reply) := by
      rcases hwhere with hfront | ⟨hfront, hstart, hagain⟩
      · rw [hfront] at hjoined
        have hprefix : response <+: reply := ⟨_, List.append_cancel_left hjoined⟩
        exact chipIdOf_of_prefix hprefix hlen h.isReply.2
      · rw [hfront, List.append_assoc] at hjoined
        have hdrop := congrArg (List.drop 2) (List.append_cancel_left hjoined)
        have htwo : (reply.take 2).length = 2 := by
          rw [List.length_take, h.isReply.1]
          rfl
        rw [List.drop_left' htwo] at hdrop
        rw [← hagain]
        exact chipIdOf_of_prefix ⟨_, hdrop⟩ hlen hstart
    have hmem : response ∈ reads := heq ▸ List.mem_append_right front List.mem_cons_self
    obtain ⟨front', first, rest', chipId, heq', hnone, hfirst, hfound⟩ :=
      exists_of_mem hmem (by rw [hsome]; exact Option.some_ne_none _)
    rw [hfound]
    rcases chipIdOf_read h (hstream heq') hfirst with ⟨-, hid⟩ | ⟨hfront', hstart', hid⟩
    · rw [hid]
    · rcases hwhere with hfront | ⟨-, -, hagain⟩
      · -- the read at the reply was before this one
        exfalso
        rcases List.append_eq_append_iff.mp (heq.symm.trans heq') with ⟨t, ht, hcut⟩ | ⟨t, ht, -⟩
        · cases t with
          | nil =>
              rw [ht, List.append_nil, hfront] at hfront'
              have := congrArg List.length hfront'
              rw [List.length_append, List.length_take, h.isReply.1] at this
              omega
          | cons x t =>
              have hx : x = response := (List.cons.inj hcut).1.symm
              have := hnone x (ht ▸ List.mem_append_right front List.mem_cons_self)
              rw [hx, hsome] at this
              cases this
        · have := congrArg List.length (congrArg List.flatten ht)
          rw [List.flatten_append, List.length_append, hfront', hfront, List.length_append,
            List.length_take, h.isReply.1] at this
          omega
      · rw [hid, hagain]

end HiSiliconV500

namespace HiSiliconCV6xx

/-- 11 bytes that begin with `CE` and end with `AA`. -/
def IsReply (r : List UInt8) : Prop := r.length = 11 ∧ r[0]? = some 0xCE ∧ r[10]? = some 0xAA

instance : DecidablePred IsReply := fun _ => inferInstanceAs (Decidable (_ ∧ _ ∧ _))

/-- The board ID of a reply. -/
def replyBoardId (r : List UInt8) : ℕ := readBe32 ((r.drop 4).take 4)

/-- The answer to a reply: its board ID, and what came behind it for the next read if the transport
supports `unread`. -/
def Answers (canUnread : Bool) (reply behind : List UInt8) (answer : BoardIdReply) : Prop :=
  answer.boardId = replyBoardId reply ∧ (canUnread = true → answer.left = behind)

/-- Behind noise without the first byte of a reply, the reply is found when it is there. -/
lemma boardIdOf_append {noise reply : List UInt8} (hreply : IsReply reply) (hnoise : 0xCE ∉ noise)
    (behind : List UInt8) :
    (noise ++ (reply ++ behind)).idxOf 0xCE = noise.length ∧
      boardIdOf (noise ++ (reply ++ behind)) = some (replyBoardId reply) := by
  obtain ⟨hlen, hfirst, hlast⟩ := hreply
  have hidx : (noise ++ (reply ++ behind)).idxOf 0xCE = noise.length := by
    rw [List.idxOf_append_of_notMem hnoise]
    cases reply with
    | nil => cases hfirst
    | cons b bs =>
        cases hfirst
        rw [List.cons_append, List.idxOf_cons_self, Nat.add_zero]
  have hmem : 0xCE ∈ noise ++ (reply ++ behind) :=
    List.mem_append_right _ (List.mem_append_left _ (List.mem_of_getElem? hfirst))
  have hend : (noise ++ (reply ++ behind))[noise.length + 10]? = some 0xAA := by
    rw [List.getElem?_append_right (Nat.le_add_right _ _), Nat.add_sub_cancel_left,
      List.getElem?_append_left (by omega), hlast]
  refine ⟨hidx, ?_⟩
  unfold boardIdOf
  rw [hidx, if_pos ⟨hmem, hend⟩, List.drop_length_add_append,
    List.drop_append_of_le_length (by omega),
    List.take_append_of_le_length (by rw [List.length_drop]; omega), replyBoardId]

/-- What is read from a stream has its first `CE` where the stream has it. -/
lemma idxOf_start {buf stream : List UInt8} (h : buf <+: stream) (hmem : 0xCE ∈ buf) :
    buf.idxOf 0xCE = stream.idxOf 0xCE := by
  obtain ⟨rest, rfl⟩ := h
  rw [List.idxOf_append_of_mem hmem]

/-- Nothing is found before the reply is there. -/
lemma boardIdOf_of_short {noise stream buf : List UInt8} (hnoise : 0xCE ∉ noise)
    (h : buf <+: noise ++ stream) (hshort : buf.length < noise.length + 11) :
    boardIdOf buf = none := by
  apply if_neg
  rintro ⟨hmem, hend⟩
  rw [idxOf_start h hmem, List.idxOf_append_of_notMem hnoise,
    List.getElem?_eq_none (by omega)] at hend
  cases hend

/-- Noise with the first byte of a reply hides the reply. -/
lemma boardIdOf_of_mem {noise reply behind buf : List UInt8} (h : FirstReply IsReply noise reply)
    (hnoise : 0xCE ∈ noise) (hbuf : buf <+: noise ++ (reply ++ behind)) : boardIdOf buf = none := by
  apply if_neg
  rintro ⟨hmem, hend⟩
  have hidx : buf.idxOf 0xCE = noise.idxOf 0xCE := by
    rw [idxOf_start hbuf hmem, List.idxOf_append_of_mem hnoise]
  have hlt := List.idxOf_lt_length_of_mem hnoise
  rw [hidx] at hend
  have hlen := h.isReply.1
  have hstream : (noise ++ reply)[noise.idxOf 0xCE + 10]? = some 0xAA := by
    obtain ⟨rest, hrest⟩ := hbuf
    have hin := (List.getElem?_eq_some_iff.mp hend).1
    have hleft : (buf ++ rest)[noise.idxOf 0xCE + 10]? = buf[noise.idxOf 0xCE + 10]? :=
      List.getElem?_append_left hin
    rw [← hleft, hrest, ← List.append_assoc,
      List.getElem?_append_left (by rw [List.length_append]; omega)] at hend
    exact hend
  apply h.noEarlier _ hlt
  rw [hlen]
  refine ⟨?_, ?_, ?_⟩
  · rw [List.length_take, List.length_drop, List.length_append]
    omega
  · rw [List.getElem?_take_of_lt (by decide), List.getElem?_drop, Nat.add_zero,
      List.getElem?_append_left hlt, List.getElem?_eq_getElem hlt, List.getElem_idxOf]
  · rw [List.getElem?_take_of_lt (by decide), List.getElem?_drop, hstream]

lemma boardIdIn_eq_none {buf chunk : List UInt8} (h : boardIdOf (buf ++ chunk) = none) :
    boardIdIn buf chunk = none := by
  rw [boardIdIn, h, ite_self]

/-- **Behind noise without a `CE`**, the reply is answered however it is cut. -/
lemma answers_boardIdOver {canUnread : Bool} {noise reply behind : List UInt8}
    (hreply : IsReply reply) (hnoise : 0xCE ∉ noise) {reads : List (List UInt8)} {buf : List UInt8}
    (hstream : buf ++ reads.flatten = noise ++ (reply ++ behind))
    (hbuf : buf.length < noise.length + 11) :
    Answers canUnread reply behind (boardIdOver canUnread buf reads) := by
  induction reads generalizing buf with
  | nil =>
      exfalso
      have := congrArg List.length hstream
      simp only [List.flatten_nil, List.length_append, List.length_nil, hreply.1] at this
      omega
  | cons chunk reads ih =>
      rw [List.flatten_cons, ← List.append_assoc] at hstream
      have hprefix : buf ++ chunk <+: noise ++ (reply ++ behind) := ⟨_, hstream⟩
      rcases Nat.lt_or_ge (buf ++ chunk).length (noise.length + 11) with hshort | hlong
      · rw [boardIdOver_of_none (boardIdIn_eq_none (boardIdOf_of_short hnoise hprefix hshort))]
        exact ih hstream hshort
      · have hwhole : noise ++ reply <+: buf ++ chunk := by
          rw [← List.append_assoc] at hprefix
          apply List.prefix_of_prefix_length_le (List.prefix_append _ _) hprefix
          rw [List.length_append, hreply.1]
          exact hlong
        obtain ⟨front, hfront⟩ := hwhole
        rw [List.append_assoc] at hfront
        have hbehind : front ++ reads.flatten = behind := by
          rw [← hfront, List.append_assoc, List.append_assoc] at hstream
          exact List.append_cancel_left (List.append_cancel_left hstream)
        have hchunk : chunk ≠ [] := by
          rintro rfl
          rw [List.append_nil] at hlong
          omega
        obtain ⟨hidx, hid⟩ := boardIdOf_append hreply hnoise front
        rw [hfront] at hidx hid
        have hfound : boardIdIn buf chunk = some (replyBoardId reply) := by
          rw [boardIdIn, if_neg hchunk, hid]
        rw [boardIdOver_of_some hfound]
        refine ⟨rfl, fun hcan => ?_⟩
        change unreadRemaining canUnread (buf ++ chunk) ++ reads.flatten = behind
        rw [unreadRemaining, if_pos hcan, hidx, ← hfront, List.drop_length_add_append,
          List.drop_left' hreply.1, hbehind]

lemma boardIdOver_of_mem {canUnread : Bool} {noise reply behind : List UInt8}
    (h : FirstReply IsReply noise reply) (hnoise : 0xCE ∈ noise) {reads : List (List UInt8)}
    {buf : List UInt8} (hstream : buf ++ reads.flatten = noise ++ (reply ++ behind)) :
    boardIdOver canUnread buf reads = ⟨0, []⟩ := by
  induction reads generalizing buf with
  | nil => rfl
  | cons chunk reads ih =>
      rw [List.flatten_cons, ← List.append_assoc] at hstream
      rw [boardIdOver_of_none (boardIdIn_eq_none (boardIdOf_of_mem h hnoise ⟨_, hstream⟩))]
      exact ih hstream

/-- When the board ID is the one of the reply. -/
lemma answers_boardIdOver_iff {canUnread : Bool} {noise reply behind : List UInt8}
    (h : FirstReply IsReply noise reply) {reads : List (List UInt8)}
    (hreads : reads.flatten = noise ++ (reply ++ behind)) :
    Answers canUnread reply behind (boardIdOver canUnread [] reads) ↔
      0xCE ∉ noise ∨ replyBoardId reply = 0 ∧ (canUnread = true → behind = []) := by
  by_cases hnoise : 0xCE ∈ noise
  · rw [boardIdOver_of_mem h hnoise hreads, or_iff_right (not_not_intro hnoise), Answers]
    exact and_congr eq_comm (imp_congr_right fun _ => eq_comm)
  · refine iff_of_true ?_ (.inl hnoise)
    exact answers_boardIdOver h.isReply hnoise hreads (Nat.lt_add_left _ (by decide))

end HiSiliconCV6xx

/-- **When a reply is recognised**: for the chip ID, a read has to begin with the reply; for the
board ID, no `CE` may come before it. -/
theorem replies_recognised_iff {noise reply : List UInt8} {reads : List (List UInt8)}
    (h : FirstReply HiSiliconV500.IsReply noise reply) (hreads : reads.flatten = noise ++ reply)
    (canUnread : Bool) {noise' reply' behind : List UInt8} {reads' : List (List UInt8)}
    (h' : FirstReply HiSiliconCV6xx.IsReply noise' reply')
    (hreads' : reads'.flatten = noise' ++ (reply' ++ behind)) :
    (HiSiliconV500.handshakeOver reads =
        .ok (HiSiliconV500.detected (HiSiliconV500.replyChipId reply)) ↔
      HiSiliconV500.ReadFromStart noise reply reads) ∧
    (HiSiliconCV6xx.Answers canUnread reply' behind
        (HiSiliconCV6xx.boardIdOver canUnread [] reads') ↔
      0xCE ∉ noise' ∨
        HiSiliconCV6xx.replyBoardId reply' = 0 ∧ (canUnread = true → behind = [])) :=
  ⟨HiSiliconV500.handshakeOver_iff h hreads, HiSiliconCV6xx.answers_boardIdOver_iff h' hreads'⟩

/-- A reply with the chip ID `0x12345678`. -/
def chipReply : List UInt8 :=
  [0xBD, 0x00, 0x00, 0x00, 0x00, 0x00, 0x00, 0x00, 0x12, 0x34, 0x56, 0x78, 0x00, 0x00]

/-- A reply with the board ID 2. -/
def boardReply : List UInt8 :=
  [0xCE, 0x01, 0x00, 0x00, 0x00, 0x00, 0x00, 0x02, 0x00, 0x00, 0xAA]

/-- Noise of one byte, in a read of its own and in front of an ACK that came with the board ID. -/
theorem replies_recognised_behind_zero :
    (HiSiliconV500.handshakeOver [[0x00], chipReply] =
        .ok (HiSiliconV500.detected (HiSiliconV500.replyChipId chipReply)) ↔
      HiSiliconV500.ReadFromStart [0x00] chipReply [[0x00], chipReply]) ∧
    (HiSiliconCV6xx.Answers true boardReply [0xAA]
        (HiSiliconCV6xx.boardIdOver true [] [[0x00] ++ (boardReply ++ [0xAA])]) ↔
      0xCE ∉ ([0x00] : List UInt8) ∨
        HiSiliconCV6xx.replyBoardId boardReply = 0 ∧ (true = true → [(0xAA : UInt8)] = [])) := by
  apply replies_recognised_iff
  · exact ⟨by decide, by decide⟩
  · rfl
  · exact ⟨by decide, by decide⟩
  · rfl

/-- A noise byte in the same read hides the chip ID, and a `CE` hides the board ID. -/
theorem replies_missed :
    (FirstReply HiSiliconV500.IsReply [0x00] chipReply ∧
      HiSiliconV500.handshakeOver [0x00 :: chipReply.take 13, chipReply.drop 13] ≠
        .ok (HiSiliconV500.detected (HiSiliconV500.replyChipId chipReply))) ∧
    FirstReply HiSiliconCV6xx.IsReply [0xCE] boardReply ∧
      ¬ HiSiliconCV6xx.Answers false boardReply []
        (HiSiliconCV6xx.boardIdOver false [] [0xCE :: boardReply]) := by
  refine ⟨⟨⟨by decide, by decide⟩, ?_⟩, ⟨by decide, by decide⟩, ?_⟩
  · intro h
    have hmissed : HiSiliconV500.handshakeOver [0x00 :: chipReply.take 13, chipReply.drop 13] =
        .error stillWaiting := rfl
    rw [hmissed] at h
    cases h
  · rintro ⟨hid, -⟩
    revert hid
    decide

end Defib
