import Defib.Framework.Dict
import Defib.Framework.PyText

/-!
# The TFTP server

`TFTPServerProtocol` of `network/tftp_server.py`: a state, and what it does with a datagram
(`datagramReceived`).  A reaction is the state after it, the datagrams sent, and the exception
raised, if any.  What a block counter has been raised to before an exception stays.

A request is answered from what the server was made with alone (`rrqPlan`); a transfer goes on
when the ACK of the block sent last arrives.
-/

namespace Defib

/-- `struct.pack("!H", n)`, of a number that fits. -/
def packBe16 (n : ℕ) : List UInt8 := [UInt8.ofNat (n / 2 ^ 8), UInt8.ofNat n]

/-- The big-endian integer in the first two bytes. -/
def readBe16 (p : List UInt8) : ℕ := (p.getD 0 0).toNat * 2 ^ 8 + (p.getD 1 0).toNat

lemma readBe16_packBe16_append (n : ℕ) (rest : List UInt8) :
    readBe16 (packBe16 n ++ rest) = n % 2 ^ 16 := by
  simp only [readBe16, packBe16, List.cons_append, List.getD_cons_zero, List.getD_cons_succ,
    UInt8.toNat_ofNat']
  omega

namespace Tftp

/-! ## Constants -/

def opcodeRrq : ℕ := 1
def opcodeData : ℕ := 3
def opcodeAck : ℕ := 4
def opcodeError : ℕ := 5
def opcodeOack : ℕ := 6

def errNotDefined : ℕ := 0
def errFileNotFound : ℕ := 1
def errIllegalOp : ℕ := 4

def defaultBlocksize : ℕ := 512

/-! ## State -/

variable {α : Type} [DecidableEq α]

/-- `TFTPTransfer`. -/
structure Transfer (α : Type) where
  addr : α
  data : List UInt8
  blocksize : ℕ
  blockNum : ℕ
  complete : Bool
  deriving DecidableEq, Repr

/-- `TFTPServerStats`. -/
structure Stats where
  requests : ℕ
  bytesSent : ℕ
  transfersComplete : ℕ
  errors : ℕ
  deriving DecidableEq, Repr

/-- What a server is made with.  `lower` is `str.lower`, whose tables are those of the Unicode
version of the interpreter. -/
structure Config where
  files : Dict Text (List UInt8)
  defaultData : Option (List UInt8)
  doneCount : ℕ
  lower : Text → Text

/-- What changes in a `TFTPServerProtocol`. -/
structure Server (α : Type) where
  transfers : Dict α (Transfer α)
  stats : Stats
  done : Bool
  deriving DecidableEq, Repr

/-- A server that has just been made. -/
def Server.init : Server α := ⟨[], ⟨0, 0, 0, 0⟩, false⟩

/-- What a server does with a datagram. -/
structure Reaction (α : Type) where
  server : Server α
  sent : List (α × List UInt8)
  raised : Option String
  deriving DecidableEq, Repr

/-! ## Requests -/

/-- `posixpath.basename`. -/
def basename (filename : Text) : Text :=
  (filename.reverse.takeWhile (· ≠ '/')).reverse

/-- `_resolve_file`. -/
def resolveFile (cfg : Config) (filename : Text) : Option (List UInt8) :=
  if cfg.files = [] then cfg.defaultData
  else
    match cfg.files.get? filename with
    | some data => some data
    | none =>
        match cfg.files.get? (basename filename) with
        | some data => some data
        | none =>
            match cfg.files.find? fun entry => cfg.lower entry.1 = cfg.lower filename ||
                cfg.lower entry.1 = cfg.lower (basename filename) with
            | some entry => some entry.2
            | none => cfg.defaultData

/-- The options of a request: names in lower case, and values. -/
def parseOptions : List (List UInt8) → List (Text × Text)
  | name :: value :: rest =>
      ((decodeAsciiReplace name).map Char.toLower, decodeAsciiReplace value) :: parseOptions rest
  | _ => []

/-- `"blksize"`. -/
def blksizeName : Text := "blksize".toList

/-- The block size for a value of the option `blksize`. -/
def clampBlksize (value : Text) : ℕ :=
  match parseInt value with
  | some requested => (max 8 (min requested 65464)).toNat
  | none => defaultBlocksize

/-- The block size for the options of a request. -/
def negotiate (options : Dict Text Text) : ℕ :=
  match options.get? blksizeName with
  | some value => clampBlksize value
  | none => defaultBlocksize

/-- How a request is served: the file, the block size, and whether an OACK is sent first. -/
structure Plan where
  data : List UInt8
  blocksize : ℕ
  oack : Bool
  deriving DecidableEq, Repr

/-- What `_handle_rrq` makes of a request: a plan, or the code and the text of an error. -/
def rrqPlan (cfg : Config) (data : List UInt8) : Except (ℕ × Text) Plan :=
  let parts := (data.drop 2).splitOn 0
  match decodeAscii (parts.headD []), parts[1]?.elim (some "octet".toList) decodeAscii with
  | some filename, some _ =>
      match resolveFile cfg filename with
      | none => .error (errFileNotFound, "File not found: ".toList ++ filename)
      | some serveData =>
          let options := Dict.setAll [] (parseOptions (parts.drop 2))
          let blocksize := negotiate options
          .ok ⟨serveData, blocksize, options ≠ [] && blocksize ≠ defaultBlocksize⟩
  | _, _ => .error (errNotDefined, "Malformed RRQ".toList)

/-! ## Sending -/

/-- `_send_error`. -/
def sendError (s : Server α) (addr : α) (code : ℕ) (msg : Text) : Reaction α where
  server := { s with stats := { s.stats with errors := s.stats.errors + 1 } }
  sent := [(addr, packBe16 opcodeError ++ packBe16 code ++ encodeAscii msg ++ [0])]
  raised := none

/-- A DATA datagram. -/
def dataPacket (blockNum : ℕ) (blockData : List UInt8) : List UInt8 :=
  packBe16 opcodeData ++ packBe16 blockNum ++ blockData

/-- An OACK datagram. -/
def oackPacket (blocksize : ℕ) : List UInt8 :=
  packBe16 opcodeOack ++ encodeAscii blksizeName ++ [0] ++ encodeAscii (decimal blocksize) ++ [0]

/-- Block `n` of a file, from 1 on. -/
def blockOf (data : List UInt8) (blocksize n : ℕ) : List UInt8 :=
  (data.drop ((n - 1) * blocksize)).take blocksize

/-- `_send_data_block`, of the transfer to an address. -/
def sendDataBlock (s : Server α) (addr : α) (t : Transfer α) : Reaction α :=
  let blockNum := t.blockNum + 1
  let blockData := blockOf t.data t.blocksize blockNum
  if blockNum < 2 ^ 16 then
    let complete := t.complete || blockData.length < t.blocksize
    { server := { s with
        transfers := s.transfers.set addr { t with blockNum := blockNum, complete := complete } }
      sent := [(t.addr, dataPacket blockNum blockData)]
      raised := none }
  else
    { server := { s with transfers := s.transfers.set addr { t with blockNum := blockNum } }
      sent := []
      raised := some "'H' format requires 0 <= number <= 65535" }

/-! ## Receiving -/

/-- `_handle_rrq`. -/
def handleRrq (cfg : Config) (s : Server α) (data : List UInt8) (addr : α) : Reaction α :=
  let s := { s with stats := { s.stats with requests := s.stats.requests + 1 } }
  match rrqPlan cfg data with
  | .error (code, msg) => sendError s addr code msg
  | .ok plan =>
      let transfer : Transfer α := ⟨addr, plan.data, plan.blocksize, 0, false⟩
      let s := { s with transfers := s.transfers.set addr transfer }
      if plan.oack then ⟨s, [(addr, oackPacket plan.blocksize)], none⟩
      else sendDataBlock s addr transfer

/-- `_handle_ack`. -/
def handleAck (cfg : Config) (s : Server α) (data : List UInt8) (addr : α) : Reaction α :=
  if data.length < 4 then ⟨s, [], none⟩
  else
    let blockNum := readBe16 (data.drop 2)
    match s.transfers.get? addr with
    | none => ⟨s, [], none⟩
    | some transfer =>
        if blockNum = 0 ∧ transfer.blockNum = 0 then sendDataBlock s addr transfer
        else if blockNum = transfer.blockNum then
          if transfer.complete then
            let stats := { s.stats with
              transfersComplete := s.stats.transfersComplete + 1
              bytesSent := s.stats.bytesSent + transfer.data.length }
            { server := {
                transfers := s.transfers.del addr
                stats := stats
                done := s.done || stats.transfersComplete ≥ cfg.doneCount }
              sent := []
              raised := none }
          else sendDataBlock s addr transfer
        else ⟨s, [], none⟩

/-- `_handle_error`. -/
def handleError (s : Server α) (addr : α) : Reaction α where
  server := { s with
    transfers := s.transfers.del addr
    stats := { s.stats with errors := s.stats.errors + 1 } }
  sent := []
  raised := none

/-- `datagram_received`. -/
def datagramReceived (cfg : Config) (s : Server α) (data : List UInt8) (addr : α) : Reaction α :=
  if data.length < 2 then ⟨s, [], none⟩
  else
    let opcode := readBe16 data
    if opcode = opcodeRrq then handleRrq cfg s data addr
    else if opcode = opcodeAck then handleAck cfg s data addr
    else if opcode = opcodeError then handleError s addr
    else sendError s addr errIllegalOp "Unsupported operation".toList

/-! ## Runs -/

/-- The server after a list of datagrams, with the addresses they come from. -/
def serverAfter (cfg : Config) (s : Server α) (received : List (α × List UInt8)) : Server α :=
  received.foldl (fun s d => (datagramReceived cfg s d.2 d.1).server) s

/-- What the server sends while it receives them. -/
def sentDuring (cfg : Config) : Server α → List (α × List UInt8) → List (α × List UInt8)
  | _, [] => []
  | s, d :: received =>
      (datagramReceived cfg s d.2 d.1).sent ++
        sentDuring cfg (datagramReceived cfg s d.2 d.1).server received

end Tftp

end Defib
