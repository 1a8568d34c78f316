import Defib.Dump.MdOutput
import Defib.Restore.Console
import Defib.Wire.Crc32

/-!
# Dumping a flash over the console

`send_command` and `dump_flash` of `src/defib/flashdump.py`, from the point at which the size of the
flash and the address of the staging area are known.  The device is what a run reads during each of
its commands, which it numbers from the first one of the run; `is_cancelled` is asked after each
block.

A dump is the list of the blocks it writes.  A `Block` carries the replies to its `md.b` commands
and by how much it raised the count of errors.
-/

namespace Defib

/-! ## The console -/

/-- What a read of `send_command` ends with. -/
inductive ConsoleRead
  | data (bytes : List UInt8)
  | timeout
  | raised (e : Text)

/-- The loop of `send_command` with a text to wait for, which it looks for in the last 64 bytes.
When the reads run out, so has the time. -/
def collect (waitFor : Text) : List UInt8 → List ConsoleRead → Except Text Text
  | buf, [] => .ok (decodeAsciiReplace buf)
  | buf, .data bytes :: reads =>
      if bytes = [] then collect waitFor buf reads
      else
        let buf := buf ++ bytes
        if waitFor <:+: decodeAsciiReplace (buf.drop (buf.length - 64)) then
          .ok (decodeAsciiReplace buf)
        else collect waitFor buf reads
  | buf, .timeout :: reads => collect waitFor buf reads
  | _, .raised e :: _ => .error e

/-- `send_command`, on what comes in behind the command. -/
def sendCommand (waitFor : Text) (reads : List ConsoleRead) : Except Text Text :=
  collect waitFor [] reads

/-- The commands of a dump. -/
inductive DumpCmd
  /-- `sf probe 0` -/
  | sfProbe
  /-- `sf read 0x{ramAddr:x} 0x0 0x{flashSize:x}` -/
  | sfRead (ramAddr flashSize : ℕ)
  /-- `md.b 0x{ramAddr:x} 10` -/
  | mdCheck (ramAddr : ℕ)
  /-- `crc32 0 0` -/
  | crcProbe
  /-- `md.b 0x{addr:x} 0x{size:x}` -/
  | md (addr size : ℕ)
  /-- `crc32 0x{addr:x} 0x{size:x}` -/
  | crc32 (addr size : ℕ)
  /-- An empty line. -/
  | prompt
  deriving DecidableEq, Repr

/-- What is read during the `n`-th command. -/
abbrev DumpDevice := ℕ → DumpCmd → List ConsoleRead

/-- All commands of a dump wait for the prompt. -/
def DumpDevice.reply (device : DumpDevice) (n : ℕ) (cmd : DumpCmd) : Except Text Text :=
  sendCommand "# ".toList (device n cmd)

/-- The pattern `==>\s*([0-9a-fA-F]{8})`. -/
def matchCrc (text : Text) : Option (ℕ × Text) := do
  let text ← lit "==>".toList text
  let text := text.dropWhile isAsciiSpace
  if (text.take 8).length = 8 ∧ (text.take 8).all isHexDigit then
    some (hexNumber (text.take 8), text.drop 8)
  else none

/-- `_get_device_crc32`, on the reply. -/
def getDeviceCrc32 (resp : Text) : Option ℕ := search matchCrc resp

/-! ## One block -/

/-- The commands sent and what is counted. -/
structure DumpCounts where
  sent : ℕ
  verified : ℕ
  errors : ℕ
  retriesTotal : ℕ
  deriving DecidableEq, Repr

namespace DumpCounts

variable (c : DumpCounts)

def send : DumpCounts := { c with sent := c.sent + 1 }

def retry : DumpCounts := { c with retriesTotal := c.retriesTotal + 1 }

end DumpCounts

/-- What an attempt at a block ends with: the reply to `md.b`, whether another attempt follows, and
what it leaves in `chunk_data`. -/
structure Attempt where
  reply : Except Text Text
  again : Bool
  data : List UInt8
  counts : DumpCounts

def chunkSize : ℕ := 0x1000

def maxRetries : ℕ := 5

variable (device : DumpDevice) (hasCrc32 : Bool)

/-- The CRC check of a block.  An exception leaves the data unchecked, and a reply without a CRC
counts as a match. -/
def checkCrc (last : Bool) (addr remaining : ℕ) (reply : Except Text Text) (data : List UInt8)
    (c : DumpCounts) : Attempt :=
  match device.reply c.sent (.crc32 addr remaining) with
  | .error _ => ⟨reply, false, data, c.send⟩
  | .ok resp =>
      match getDeviceCrc32 resp with
      | none => ⟨reply, false, data, { c.send with verified := c.verified + 1 }⟩
      | some deviceCrc =>
          if deviceCrc = (zlibCrc32 data).toNat then
            ⟨reply, false, data, { c.send with verified := c.verified + 1 }⟩
          else if last then ⟨reply, false, data, { c.send with errors := c.errors + 1 }⟩
          else ⟨reply, true, data, { c.send.retry with errors := c.errors + 1 }⟩

/-- One round of the `for attempt` loop. -/
def attempt (last : Bool) (addr remaining : ℕ) (c : DumpCounts) : Attempt :=
  let reply := device.reply c.sent (.md addr remaining)
  let c := c.send
  match reply with
  | .error _ =>
      if last then ⟨reply, false, List.replicate remaining 0, c.retry⟩
      -- an empty line is sent to get a prompt
      else ⟨reply, true, [], c.retry.send⟩
  | .ok resp =>
      let data := parseMdOutput resp
      if data.length = 0 then
        if last then ⟨reply, false, List.replicate remaining 0, c.retry⟩
        else ⟨reply, true, data, c.retry⟩
      else if hasCrc32 ∧ data.length = remaining then
        checkCrc device last addr remaining reply data c
      else ⟨reply, false, data, c⟩

/-- The attempts at a block, with so many retries left: the replies, the data and the counts. -/
def attempts (addr remaining : ℕ) :
    ℕ → DumpCounts → List (Except Text Text) × List UInt8 × DumpCounts
  | 0, c =>
      let a := attempt device hasCrc32 true addr remaining c
      ([a.reply], a.data, a.counts)
  | left + 1, c =>
      let a := attempt device hasCrc32 false addr remaining c
      if a.again then
        let rest := attempts addr remaining left a.counts
        (a.reply :: rest.1, rest.2)
      else ([a.reply], a.data, a.counts)

/-! ## The dump -/

/-- A block of the dump: where in the file it is written, what of the RAM it was asked for, the
replies to `md.b`, the data, and the errors counted for it. -/
structure Block where
  pos : ℕ
  addr : ℕ
  remaining : ℕ
  replies : List (Except Text Text)
  data : List UInt8
  errors : ℕ
  deriving DecidableEq

/-- What a dump leaves: its blocks, the final `offset`, which it returns, and the counts. -/
structure FlashDump where
  blocks : List Block
  offset : ℕ
  counts : DumpCounts
  deriving DecidableEq

/-- The `while` loop, at the file position `pos`.  Every block moves `offset` on, so that as many
rounds are enough as there are bytes left. -/
def dumpBlocks (ramAddr flashSize : ℕ) (isCancelled : ℕ → Bool) :
    ℕ → ℕ → ℕ → ℕ → DumpCounts → FlashDump
  | 0, _, offset, _, c => ⟨[], offset, c⟩
  | rounds + 1, pos, offset, i, c =>
      if offset < flashSize then
        let remaining := min chunkSize (flashSize - offset)
        let r := attempts device hasCrc32 (ramAddr + offset) remaining maxRetries c
        let b : Block := ⟨pos, ramAddr + offset, remaining, r.1, r.2.1, r.2.2.errors - c.errors⟩
        if isCancelled i then ⟨[b], offset + r.2.1.length, r.2.2⟩
        else
          let rest := dumpBlocks ramAddr flashSize isCancelled rounds (pos + r.2.1.length)
            (offset + r.2.1.length) (i + 1) r.2.2
          { rest with blocks := b :: rest.blocks }
      else ⟨[], offset, c⟩

/-- Where a dump resumes that finds a file of this length. -/
def resumeOffset (flashSize : ℕ) : Option ℕ → ℕ
  | none => 0
  | some existing =>
      let offset := existing / chunkSize * chunkSize
      if 0 < offset ∧ offset < flashSize then offset else 0

/-- `dump_flash`, with `sent` commands behind it and `existing` the length of the output file, if
there is one. -/
def dumpFlash (sent ramAddr flashSize : ℕ) (existing : Option ℕ) (isCancelled : ℕ → Bool) :
    Except Text FlashDump := do
  let probeResp ← device.reply sent .sfProbe
  if lowerContains probeResp "error".toList ∨ lowerContains probeResp "fail".toList then
    throw ("sf probe failed: ".toList ++ PyChars.ascii.strip probeResp)
  let resp ← device.reply (sent + 1) (.sfRead ramAddr flashSize)
  if ¬ "Read: OK".toList <:+: resp then
    let resp := PyChars.ascii.strip resp
    throw ("sf read failed or timed out. Response: ".toList ++ resp.drop (resp.length - 200))
  let checkResp ← device.reply (sent + 2) (.mdCheck ramAddr)
  let checkData := parseMdOutput checkResp
  if 16 ≤ checkData.length ∧ (checkData.take 16).all (· = checkData.headD 0) then
    throw ("Flash read sanity check failed: first 16 bytes are all 0x".toList ++
      hexDigits 2 (checkData.headD 0).toNat ++ (". This usually means sf probe/sf read " ++
      "failed silently. Try running 'sf probe 0' manually first.").toList)
  let crcResp ← device.reply (sent + 3) .crcProbe
  let hasCrc32 := !lowerContains crcResp "unknown command".toList
  let offset := resumeOffset flashSize existing
  return dumpBlocks device hasCrc32 ramAddr flashSize isCancelled (flashSize - offset) offset offset
    0 ⟨sent + 4, 0, 0, 0⟩

end Defib
