import Defib.Framework.Runs
import Defib.Agent.MemoryRead

/-!
# Commands that change the flash

The four handlers that call `flash_erase_sector` or `flash_write_page`: `handle_erase`,
`handle_flash_write`, which `handle_write` calls for the requests that it does not serve as RAM,
`handle_flash_program` and `handle_flash_stream`.  A handler is modelled by what it does in order,
its calls into the driver and the packets it sends (`FlashEvent`); those that receive data while
they run are state machines that read one result of `proto_recv` at a time, where a packet with
command `0` stands for a timeout or a corrupt frame.

The checks at the head of each handler are definitions of their own (`eraseAccepted` and so on),
in the 32-bit arithmetic of the code.
-/

namespace Defib

/-- What a handler does: driver calls and packets. -/
inductive FlashEvent
  | erase (addr : ℕ)
  | program (addr : ℕ) (data : List UInt8)
  | send (p : Packet)
  deriving DecidableEq, Repr

/-- `proto_send_ack`, as an event. -/
def sendAck (status : UInt8) : FlashEvent := .send (ackPacket status)

/-- What the flash answers to a handler. -/
structure Chip where
  /-- Whether `flash_erase_sector` returns `0`, by address. -/
  eraseOk : ℕ → Bool
  /-- `flash_unlock_debug` after the erase at an address. -/
  unlockDebug : ℕ → UInt8 × UInt8 × UInt8
  /-- The memory-mapped window, as it reads after programming. -/
  window : Store UInt8

/-! ## `handle_erase` -/

/-- The loop over sectors that `handle_erase` and `handle_flash_program` share: erase, report,
and give up at the first failure. -/
def eraseLoop (chip : Chip) (base sectorSz : ℕ) (progress : ℕ → ℕ → Packet) :
    List ℕ → List FlashEvent × Bool
  | [] => ([], true)
  | i :: is =>
      let addr := add32 base (i * sectorSz)
      if chip.eraseOk addr then
        let rest := eraseLoop chip base sectorSz progress is
        (.erase addr :: .send (progress i addr) :: rest.1, rest.2)
      else ([.erase addr, sendAck ackFlashError], false)

/-- The check of `handle_erase`. -/
def eraseAccepted (g : Geometry) (addr size : ℕ) : Bool :=
  size ≠ 0 && add32 addr size ≤ g.size && addr % g.sectorSize = 0 && size % g.sectorSize = 0

/-- `[sectors_done:2LE][debug:3B]`. -/
def eraseProgress (chip : Chip) (i addr : ℕ) : Packet :=
  let debug := chip.unlockDebug addr
  ⟨rspData, packU16 (i + 1) ++ [debug.1, debug.2.1, debug.2.2]⟩

/-- `handle_erase`. -/
def handleErase (b : Board) (chip : Chip) (data : List UInt8) : List FlashEvent :=
  if data.length < 8 then [sendAck ackCrcError]
  else
    match b.geometry with
    | none => [sendAck ackFlashError]
    | some g =>
        let addr := readLe32 data
        let size := readLe32 (data.drop 4)
        if eraseAccepted g addr size then
          let loop := eraseLoop chip addr g.sectorSize (eraseProgress chip)
            (List.range (size / g.sectorSize))
          sendAck ackOk :: (loop.1 ++ if loop.2 then [sendAck ackOk] else [])
        else [sendAck ackFlashError]

/-! ## `handle_flash_write` -/

/-- The page loop: one call of `flash_write_page` per page of the source. -/
def writePages (g : Geometry) (addr : ℕ) (src : Store UInt8) (size : ℕ) : List FlashEvent :=
  ((Cut.upTo g.pageSize g.page_pos).pieces 0 size).map fun p =>
    .program (add32 addr p.1) (src.load p.1 p.2)

/-- The body of the receive loops: copy a packet's data behind what has been received. -/
def copyIn (ram : Store UInt8) (dest received limit : ℕ) (pkt : List UInt8) : Store UInt8 × ℕ :=
  let chunk := (pkt.drop 2).take (limit - received)
  (ram.write (dest + received) chunk, received + chunk.length)

/-- The RAM a receive loop fills and how far it is. -/
structure RxState where
  ram : Store UInt8
  received : ℕ

/-- The check of `handle_flash_write`. -/
def flashWriteAccepted (g : Geometry) (addr size : ℕ) : Bool :=
  size ≠ 0 && size ≤ g.size && add32 addr size ≤ g.size

/-- The error ACK that carries a checksum and a length. -/
def crcErrorAck (crc : BitVec 32) (len : ℕ) : FlashEvent :=
  .send ⟨rspAck, ackCrcError :: (packU32 crc.toNat ++ packU32 len)⟩

/-- The error ACK of a receive loop that timed out. -/
def timeoutAck (received : ℕ) : FlashEvent :=
  .send ⟨rspAck, ackFlashError :: packU32 received⟩

/-- `handle_flash_write` after its receive loop. -/
def flashWriteFinish (b : Board) (g : Geometry) (chip : Chip) (addr size : ℕ) (crc : ℕ)
    (ram : Store UInt8) (received : ℕ) : List FlashEvent :=
  let staging : Store UInt8 := fun i => ram (b.soc.ramBase + 0x200000 + i)
  let actual := crc32 0 (staging.load 0 size)
  if actual.toNat ≠ crc then [crcErrorAck actual received]
  else
    let verify := crc32 0 (chip.window.load addr size)
    writePages g addr staging size ++
      if verify.toNat ≠ crc then [crcErrorAck verify size] else [sendAck ackOk]

/-- The receive loop of `handle_flash_write`. -/
def flashWriteRecv (b : Board) (g : Geometry) (chip : Chip) (addr size crc : ℕ) (st : RxState)
    (p : Packet) : Option RxState × List FlashEvent :=
  if p.cmd = rspData ∧ p.data.length > 2 then
    let r := copyIn st.ram (b.soc.ramBase + 0x200000) st.received size p.data
    if r.2 < size then (some ⟨r.1, r.2⟩, [])
    else (none, flashWriteFinish b g chip addr size crc r.1 r.2)
  else if p.cmd = 0 then (none, [timeoutAck st.received])
  else (some st, [])

/-- `handle_flash_write`, with the results of `proto_recv` it reads. -/
def handleFlashWrite (b : Board) (chip : Chip) (ram : Store UInt8) (data : List UInt8)
    (inputs : List Packet) : List FlashEvent :=
  if data.length < 12 then [sendAck ackCrcError]
  else
    match b.geometry with
    | none => [sendAck ackFlashError]
    | some g =>
        let addr := readLe32 data
        let size := readLe32 (data.drop 4)
        let crc := readLe32 (data.drop 8)
        if flashWriteAccepted g addr size then
          sendAck ackOk :: outputs (flashWriteRecv b g chip addr size crc) (some ⟨ram, 0⟩) inputs
        else [sendAck ackFlashError]

/-! ## `handle_write` -/

/-- The parameters of a `CMD_WRITE`. -/
structure WriteReq where
  addr : ℕ
  size : ℕ
  crc : ℕ
  deriving DecidableEq, Repr

/-- The fields of a `CMD_WRITE` payload. -/
def writeReq (data : List UInt8) : WriteReq :=
  ⟨readLe32 data, readLe32 (data.drop 4), readLe32 (data.drop 8)⟩

/-- The test that routes a request to `handle_flash_write`. -/
def WriteReq.toFlash (b : Board) (r : WriteReq) : Bool :=
  b.flashReadable && r.addr < b.flashInfo.size && add32 r.addr r.size ≤ b.flashInfo.size

/-- The check of `handle_write`. -/
def WriteReq.accepted (b : Board) (r : WriteReq) : Bool :=
  r.size ≠ 0 && r.size ≤ maxReadSize && r.addr ≥ b.soc.ramBase && add32 r.addr r.size > r.addr

/-- `handle_write` after its receive loop. -/
def writeFinish (r : WriteReq) (ram : Store UInt8) (received : ℕ) : List FlashEvent :=
  let actual := crc32 0 (ram.load r.addr r.size)
  if actual.toNat = r.crc then [sendAck ackOk] else [crcErrorAck actual received]

/-- The receive loop of `handle_write`. -/
def writeRecv (r : WriteReq) (st : RxState) (p : Packet) : Option RxState × List FlashEvent :=
  if p.cmd = rspData ∧ p.data.length > 2 then
    let rx := copyIn st.ram r.addr st.received r.size p.data
    if rx.2 < r.size then (some ⟨rx.1, rx.2⟩, []) else (none, writeFinish r rx.1 rx.2)
  else if p.cmd = 0 then (none, [timeoutAck st.received])
  else (some st, [])

/-- `handle_write`, with the results of `proto_recv` it reads. -/
def handleWrite (b : Board) (chip : Chip) (ram : Store UInt8) (data : List UInt8)
    (inputs : List Packet) : List FlashEvent :=
  if data.length < 12 then [sendAck ackCrcError]
  else if (writeReq data).toFlash b then handleFlashWrite b chip ram data inputs
  else if (writeReq data).accepted b then
    sendAck ackOk :: outputs (writeRecv (writeReq data)) (some ⟨ram, 0⟩) inputs
  else [sendAck ackFlashError]

/-! ## `handle_flash_program` -/

/-- The checks of `handle_flash_program`, up to the checksum of the source. -/
def flashProgramAccepted (b : Board) (g : Geometry) (m : Machine) (ramAddr addr size crc : ℕ) :
    Bool :=
  size ≠ 0 && add32 addr size ≤ g.size && addrReadable b ramAddr size &&
    (crc32 0 (m.bus.load ramAddr size)).toNat = crc

/-- `[done:2LE][total:2LE]`. -/
def progressPacket (done total : ℕ) : Packet := ⟨rspData, packU16 done ++ packU16 total⟩

/-- The page loop of `handle_flash_program`, which reports every 64 pages.  The source of a page is
read when its turn comes. -/
def programLoop (g : Geometry) (addr : ℕ) (src : ℕ → Store UInt8) (size totalSectors : ℕ) :
    List FlashEvent :=
  ((Cut.upTo g.pageSize g.page_pos).pieces 0 size).flatMap fun p =>
    let offset := p.1 + p.2
    .program (add32 addr p.1) ((src p.1).load p.1 p.2) ::
      if offset % (g.pageSize * 64) = 0 ∨ offset ≥ size then
        [.send (progressPacket (totalSectors + offset / (g.pageSize * 64))
          (totalSectors + size / (g.pageSize * 64)))]
      else []

/-- `handle_flash_program`.  The source is read for its checksum, when `m` is on the bus, and again
for each page: `live` is what is on the bus then, by the offset of the page.  Sector sizes are powers
of two, so masking with `~(sector_sz - 1)` rounds down to a multiple. -/
def handleFlashProgram (b : Board) (m : Machine) (live : ℕ → Store UInt8) (chip : Chip)
    (data : List UInt8) : List FlashEvent :=
  if data.length < 16 then [sendAck ackCrcError]
  else
    match b.geometry with
    | none => [sendAck ackFlashError]
    | some g =>
        let ramAddr := readLe32 data
        let addr := readLe32 (data.drop 4)
        let size := readLe32 (data.drop 8)
        let crc := readLe32 (data.drop 12)
        if size = 0 ∨ add32 addr size > g.size ∨ addrReadable b ramAddr size = false then
          [sendAck ackFlashError]
        else
          let actual := crc32 0 (m.bus.load ramAddr size)
          if actual.toNat ≠ crc then [crcErrorAck actual size]
          else
            let eraseStart := addr / g.sectorSize * g.sectorSize
            let eraseEnd := add32 (add32 addr size) (g.sectorSize - 1) / g.sectorSize * g.sectorSize
            let numSectors := (eraseEnd + 2 ^ 32 - eraseStart) % 2 ^ 32 / g.sectorSize
            let erased := eraseLoop chip eraseStart g.sectorSize
              (fun s _ => progressPacket (s + 1) numSectors) (List.range numSectors)
            sendAck ackOk :: (erased.1 ++
              if erased.2 then
                programLoop g addr (fun o i => live o (ramAddr + i)) size numSectors ++
                  [sendAck ackOk]
              else [])

/-! ## `handle_flash_stream` -/

/-- `page_is_ff`, which looks at whole words. -/
def pageIsFf (data : List UInt8) : Bool :=
  (List.range (data.length / 4)).all fun i => readLe32 (data.drop (4 * i)) = 0xFFFFFFFF

/-- The pages of a sector that are programmed. -/
def programPages (g : Geometry) (addr : ℕ) (buf : List UInt8) : List FlashEvent :=
  ((Cut.upTo g.pageSize g.page_pos).pieces 0 buf.length).filterMap fun p =>
    let page := (buf.drop p.1).take p.2
    if pageIsFf page then none else some (.program (add32 addr p.1) page)

/-- `erase_and_program`: what it does, and whether it returns `0`. -/
def eraseAndProgram (g : Geometry) (chip : Chip) (addr : ℕ) (buf : List UInt8) :
    List FlashEvent × Bool :=
  if chip.eraseOk addr then (.erase addr :: programPages g addr buf, true)
  else ([.erase addr], false)

/-- The parameters of a stream: the fields of its command. -/
structure StreamReq where
  flashAddr : ℕ
  size : ℕ
  bitmap : List UInt8

/-- `num_sectors`. -/
def StreamReq.numSectors (g : Geometry) (req : StreamReq) : ℕ :=
  add32 req.size (g.sectorSize - 1) / g.sectorSize

/-- `sector_bytes` of a sector. -/
def StreamReq.sectorBytes (g : Geometry) (req : StreamReq) (s : ℕ) : ℕ :=
  if req.size - s * g.sectorSize > g.sectorSize then g.sectorSize
  else req.size - s * g.sectorSize

/-- Whether the bitmap announces data for a sector. -/
def bitmapBit (bitmap : List UInt8) (s : ℕ) : Bool := (bitmap.getD (s / 8) 0).toNat.testBit (s % 8)

/-- A buffer that holds a received sector, with the address and length to program. -/
structure PendingSector where
  buf : Bool
  addr : ℕ
  bytes : ℕ

/-- The variables of the loop over sectors, while it waits for data of sector `s`. -/
structure StreamState where
  ram : Store UInt8
  s : ℕ
  rxBuf : Bool
  pending : Option PendingSector
  totalReceived : ℕ
  bufReceived : ℕ

/-- `buf[i]`: the two buffers, 128 KiB apart. -/
def bufAddr (b : Board) (i : Bool) : ℕ := b.soc.ramBase + if i then 0x220000 else 0x200000

/-- Erase and program the pending sector, if there is one. -/
def processPending (b : Board) (g : Geometry) (chip : Chip) (ram : Store UInt8) :
    Option PendingSector → List FlashEvent × Bool
  | none => ([], true)
  | some p => eraseAndProgram g chip p.addr (ram.load (bufAddr b p.buf) p.bytes)

/-- The loop over sectors from the head of the turn for sector `s`, with `left` turns to go: skip
the sectors without data until one with data has to be received, or finish. -/
def streamAdvance (b : Board) (g : Geometry) (chip : Chip) (req : StreamReq) :
    ℕ → StreamState → Option StreamState × List FlashEvent
  | 0, st =>
      let r := processPending b g chip st.ram st.pending
      (none, r.1 ++ [sendAck (if r.2 then ackOk else ackFlashError)])
  | left + 1, st =>
      if bitmapBit req.bitmap st.s then (some { st with bufReceived := 0 }, [])
      else
        let r := processPending b g chip st.ram st.pending
        if r.2 then
          let addr := add32 req.flashAddr (st.s * g.sectorSize)
          if chip.eraseOk addr then
            let next := streamAdvance b g chip req left { st with s := st.s + 1, pending := none }
            (next.1, r.1 ++ [.erase addr,
              .send (progressPacket (st.s + 1) (req.numSectors g))] ++ next.2)
          else (none, r.1 ++ [.erase addr, sendAck ackFlashError])
        else (none, r.1 ++ [sendAck ackFlashError])

/-- The receive loop of a sector, one result of `proto_recv` at a time. -/
def streamRecv (b : Board) (g : Geometry) (chip : Chip) (req : StreamReq) (st : StreamState)
    (p : Packet) : Option StreamState × List FlashEvent :=
  if p.cmd = rspData ∧ p.data.length > 2 then
    let sectorBytes := req.sectorBytes g st.s
    let rx := copyIn st.ram (bufAddr b st.rxBuf) st.bufReceived sectorBytes p.data
    if rx.2 < sectorBytes then (some { st with ram := rx.1, bufReceived := rx.2 }, [])
    else
      let progress := FlashEvent.send (progressPacket (st.s + 1) (req.numSectors g))
      let r := processPending b g chip rx.1 st.pending
      if r.2 then
        let next := streamAdvance b g chip req (req.numSectors g - (st.s + 1))
          { ram := rx.1
            s := st.s + 1
            rxBuf := !st.rxBuf
            pending := some ⟨st.rxBuf, add32 req.flashAddr (st.s * g.sectorSize), sectorBytes⟩
            totalReceived := st.totalReceived + sectorBytes
            bufReceived := 0 }
        (next.1, progress :: (r.1 ++ next.2))
      else (none, progress :: (r.1 ++ [sendAck ackFlashError]))
  else if p.cmd = 0 then (none, [timeoutAck (st.totalReceived + st.bufReceived)])
  else (some st, [])

/-- The check of `handle_flash_stream`. -/
def streamAccepted (g : Geometry) (req : StreamReq) : Bool :=
  req.size ≠ 0 && add32 req.flashAddr req.size ≤ g.size

/-- `handle_flash_stream` after its first two checks, for a payload of `len` bytes: the error it
answers with, or the stream up to its first `proto_recv`. -/
def streamBegin (b : Board) (g : Geometry) (chip : Chip) (ram : Store UInt8) (len : ℕ)
    (req : StreamReq) : Except UInt8 (Option StreamState × List FlashEvent) :=
  if streamAccepted g req then
    if len < 12 + (req.numSectors g + 7) / 8 then .error ackCrcError
    else .ok (streamAdvance b g chip req (req.numSectors g) ⟨ram, 0, false, none, 0, 0⟩)
  else .error ackFlashError

/-- The fields of a `CMD_FLASH_STREAM` payload.  The checksum in bytes 8 to 11 is not used. -/
def streamReq (data : List UInt8) : StreamReq :=
  ⟨readLe32 data, readLe32 (data.drop 4), data.drop 12⟩

/-- A stream from its request on, with the results of `proto_recv` it reads. -/
def streamEvents (b : Board) (g : Geometry) (chip : Chip) (ram : Store UInt8) (len : ℕ)
    (req : StreamReq) (inputs : List Packet) : List FlashEvent :=
  match streamBegin b g chip ram len req with
  | .error status => [sendAck status]
  | .ok next => sendAck ackOk :: (next.2 ++ outputs (streamRecv b g chip req) next.1 inputs)

/-- `handle_flash_stream`. -/
def handleFlashStream (b : Board) (chip : Chip) (ram : Store UInt8) (data : List UInt8)
    (inputs : List Packet) : List FlashEvent :=
  if data.length < 12 then [sendAck ackCrcError]
  else
    match b.geometry with
    | none => [sendAck ackFlashError]
    | some g => streamEvents b g chip ram data.length (streamReq data) inputs

end Defib
