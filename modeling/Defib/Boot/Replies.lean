import Defib.Boot.Session

/-!
# The replies of the newer bootroms, over any transport

What a transport makes of the bytes of a reply is a list of reads: `Transport.read` may return fewer
bytes than it was asked for, and an empty read stands for `TransportTimeout`, or for a turn in which
nothing was waiting.  `handshakeOver` and `boardIdOver` are the readers of the two protocols on such
a list; on a serial port the reads are those that its script is cut into
(`handshakeLoop_result`, `boardIdLoop_result`).
-/

namespace Defib

/-- What reads of up to `size` bytes return on a script, when the one that goes on has `got`. -/
def readsOf (size : ℕ) (got : List UInt8) : List (Reading UInt8) → List (List UInt8)
  | [] => [got]
  | .item b :: rest =>
      if got.length + 1 < size then readsOf size (got ++ [b]) rest
      else (got ++ [b]) :: readsOf size [] rest
  | .timeout :: rest => got :: readsOf size [] rest
  | .expired :: rest => got :: readsOf size [] rest

/-- What reads of all that is waiting return on a script until the deadline. -/
def turnsOf (chunk : List UInt8) : List (Reading UInt8) → List (List UInt8)
  | [] => [chunk]
  | .item b :: rest => turnsOf (chunk ++ [b]) rest
  | .timeout :: rest => chunk :: turnsOf [] rest
  | .expired :: _ => [chunk]

namespace HiSiliconV500

/-- `handshake` on what its reads return. -/
def handshakeOver : List (List UInt8) → Except String HandshakeResult
  | [] => .error stillWaiting
  | response :: reads =>
      match chipIdOf response with
      | some chipId => .ok (detected chipId)
      | none => handshakeOver reads

lemma handshakeOver_of_some {response : List UInt8} {chipId : ℕ}
    (h : chipIdOf response = some chipId) (reads : List (List UInt8)) :
    handshakeOver (response :: reads) = .ok (detected chipId) := by
  rw [handshakeOver, h]

lemma handshakeOver_of_none {response : List UInt8} (h : chipIdOf response = none)
    (reads : List (List UInt8)) : handshakeOver (response :: reads) = handshakeOver reads := by
  rw [handshakeOver, h]

/-- On a serial port, the handshake is the one on the reads that its script is cut into. -/
lemma handshakeLoop_result (response : List UInt8) (script : List (Reading UInt8)) :
    (handshakeLoop response script).result = handshakeOver (readsOf 14 response script) := by
  induction script generalizing response with
  | nil =>
      rw [handshakeLoop, readsOf, handshakeOver]
      cases chipIdOf response with
      | none => rfl
      | some chipId => rfl
  | cons r rest ih =>
      cases r with
      | item b =>
          rw [handshakeLoop, readsOf]
          by_cases hmore : response.length + 1 < 14
          · rw [if_pos hmore, if_pos hmore]
            exact ih (response ++ [b])
          · rw [if_neg hmore, if_neg hmore, handshakeOver]
            cases chipIdOf (response ++ [b]) with
            | none => exact ih []
            | some chipId => rfl
      | timeout =>
          rw [handshakeLoop, readsOf, handshakeOver]
          cases chipIdOf response with
          | none => exact ih []
          | some chipId => rfl
      | expired =>
          rw [handshakeLoop, readsOf, handshakeOver]
          cases chipIdOf response with
          | none => exact ih []
          | some chipId => rfl

end HiSiliconV500

namespace HiSiliconCV6xx

/-- What `_get_board_id` returns, and what the transport has for the next read. -/
structure BoardIdReply where
  boardId : ℕ
  left : List UInt8
  deriving DecidableEq, Repr

/-- What `unread` puts back: the bytes behind the answer, if the transport supports it. -/
def unreadRemaining (canUnread : Bool) (buf : List UInt8) : List UInt8 :=
  if canUnread then buf.drop (buf.idxOf 0xCE + 11) else []

/-- `_get_board_id` on what the reads of its turns return until the deadline. -/
def boardIdOver (canUnread : Bool) (buf : List UInt8) : List (List UInt8) → BoardIdReply
  | [] => ⟨0, []⟩
  | chunk :: reads =>
      match boardIdIn buf chunk with
      | some boardId => ⟨boardId, unreadRemaining canUnread (buf ++ chunk) ++ reads.flatten⟩
      | none => boardIdOver canUnread (buf ++ chunk) reads

lemma boardIdOver_of_some {canUnread : Bool} {buf chunk : List UInt8} {boardId : ℕ}
    (h : boardIdIn buf chunk = some boardId) (reads : List (List UInt8)) :
    boardIdOver canUnread buf (chunk :: reads) =
      ⟨boardId, unreadRemaining canUnread (buf ++ chunk) ++ reads.flatten⟩ := by
  rw [boardIdOver, h]

lemma boardIdOver_of_none {canUnread : Bool} {buf chunk : List UInt8}
    (h : boardIdIn buf chunk = none) (reads : List (List UInt8)) :
    boardIdOver canUnread buf (chunk :: reads) = boardIdOver canUnread (buf ++ chunk) reads := by
  rw [boardIdOver, h]

/-- On a serial port, the board ID is the one in the reads that its script is cut into. -/
lemma boardIdLoop_result (buf chunk : List UInt8) (script : List (Reading UInt8)) :
    (boardIdLoop buf chunk script).result =
      .ok (boardIdOver false buf (turnsOf chunk script)).boardId := by
  induction script generalizing buf chunk with
  | nil =>
      rw [boardIdLoop, turnsOf, boardIdOver]
      cases boardIdIn buf chunk with
      | none => rfl
      | some boardId => rfl
  | cons r rest ih =>
      cases r with
      | item b =>
          rw [boardIdLoop, turnsOf]
          exact ih buf (chunk ++ [b])
      | timeout =>
          rw [boardIdLoop, turnsOf, boardIdOver]
          cases boardIdIn buf chunk with
          | none => exact ih (buf ++ chunk) []
          | some boardId => rfl
      | expired =>
          rw [boardIdLoop, turnsOf, boardIdOver]
          cases boardIdIn buf chunk with
          | none => rfl
          | some boardId => rfl

end HiSiliconCV6xx

end Defib
