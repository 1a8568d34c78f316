import Defib.Agent.FlashCommands

/-!
# What the handlers store in RAM

Besides its own image and stack the agent writes to RAM where a handler stages data: at a fixed
offset (`handle_flash_write`, `handle_flash_stream`), above a target the host chooses
(`handle_selfupdate`), or in a scratch range the host chooses (`handle_membw`).  The two handlers
that change the flash are state machines already; here their receive loops are observed for the
addresses they store to.  The other two are modelled by what they do in order (`RamEvent`).

Addresses are 32 bits wide, also where a pointer is counted up.
-/

namespace Defib

/-! ## Builds -/

/-- `LOAD_ADDR` of each build, and whether it has an ARM926. -/
def agentBuilds : List (Soc × ℕ × Bool) :=
  [(hi3516ev300, 0x41000000, false), (hi3516ev200, 0x41000000, false),
    (gk7205v200, 0x41000000, false), (gk7205v300, 0x41000000, false),
    (hi3516cv300, 0x81000000, true), (hi3516cv500, 0x81000000, false),
    (hi3518ev200, 0x81000000, false), (hi3516cv610, 0x41000400, false),
    (hi3519v101, 0x81000000, false), (hi3520dv200, 0x81000000, false)]

/-- A board with the build of the agent that runs on it. -/
structure AgentBoard extends Board where
  /-- `AGENT_LOAD_ADDR`. -/
  agentLoadAddr : ℕ
  /-- `CPU_ARM926`. -/
  cpuArm926 : Bool
  build_mem : (soc, agentLoadAddr, cpuArm926) ∈ agentBuilds

/-! ## Stores -/

/-- The body of the receive loops, `dest[received++] = pkt[2 + i]`: addresses and bytes. -/
def copyStores (dest received limit : ℕ) (pkt : List UInt8) : List (ℕ × UInt8) :=
  ((pkt.drop 2).take (limit - received)).mapIdx fun i x => (add32 dest (received + i), x)

/-- The RAM after some stores. -/
def afterStores (ram : Store UInt8) (stores : List (ℕ × UInt8)) : Store UInt8 :=
  stores.foldl (fun m p => fun i => if i = p.1 then p.2 else m i) ram

/-- What `handle_flash_write` stores when it receives a packet. -/
def flashWriteStores (b : Board) (size : ℕ) (st : RxState) (p : Packet) : List (ℕ × UInt8) :=
  if p.cmd = rspData ∧ p.data.length > 2 then
    copyStores (b.soc.ramBase + 0x200000) st.received size p.data
  else []

/-- The stores of `handle_flash_write`, with the results of `proto_recv` it reads. -/
def handleFlashWriteStores (b : Board) (chip : Chip) (ram : Store UInt8) (data : List UInt8)
    (inputs : List Packet) : List (ℕ × UInt8) :=
  if data.length < 12 then []
  else
    match b.geometry with
    | none => []
    | some g =>
        let addr := readLe32 data
        let size := readLe32 (data.drop 4)
        let crc := readLe32 (data.drop 8)
        if flashWriteAccepted g addr size then
          outputs (fun st p => ((flashWriteRecv b g chip addr size crc st p).1,
            flashWriteStores b size st p)) (some ⟨ram, 0⟩) inputs
        else []

/-- What `handle_flash_stream` stores when it receives a packet. -/
def streamStores (b : Board) (g : Geometry) (req : StreamReq) (st : StreamState) (p : Packet) :
    List (ℕ × UInt8) :=
  if p.cmd = rspData ∧ p.data.length > 2 then
    copyStores (bufAddr b st.rxBuf) st.bufReceived (req.sectorBytes g st.s) p.data
  else []

/-- The stores of a stream from its request on. -/
def streamRunStores (b : Board) (g : Geometry) (chip : Chip) (ram : Store UInt8) (len : ℕ)
    (req : StreamReq) (inputs : List Packet) : List (ℕ × UInt8) :=
  match streamBegin b g chip ram len req with
  | .error _ => []
  | .ok next =>
      outputs (fun st p => ((streamRecv b g chip req st p).1, streamStores b g req st p)) next.1
        inputs

/-- The stores of `handle_flash_stream`. -/
def handleFlashStreamStores (b : Board) (chip : Chip) (ram : Store UInt8) (data : List UInt8)
    (inputs : List Packet) : List (ℕ × UInt8) :=
  if data.length < 12 then []
  else
    match b.geometry with
    | none => []
    | some g => streamRunStores b g chip ram data.length (streamReq data) inputs

/-! ## `handle_membw` -/

/-- What a handler does: stores, packets, and the jump to another program. -/
inductive RamEvent
  | store (addr : ℕ) (byte : UInt8)
  | send (p : Packet)
  | jump (target addr staging size : ℕ)
  deriving DecidableEq, Repr

/-- The address and byte of a store. -/
def RamEvent.store? : RamEvent → Option (ℕ × UInt8)
  | .store addr byte => some (addr, byte)
  | _ => none

/-- The stores of a handler. -/
def storesOf (events : List RamEvent) : List (ℕ × UInt8) := events.filterMap RamEvent.store?

def RamEvent.ofStore (p : ℕ × UInt8) : RamEvent := .store p.1 p.2

/-- `proto_send_ack`, as an event. -/
def ramAck (status : UInt8) : RamEvent := .send (ackPacket status)

def rspMembw : UInt8 := 0x87

/-- `MAX_MEMBW_SIZE`. -/
def maxMembwSize : ℕ := 16 * 1024 * 1024

namespace AgentBoard

variable (b : AgentBoard)

/-- `MEMBW_AGENT_GUARD_LO`. -/
def membwAgentGuardLo : ℕ := b.agentLoadAddr - 0x10000

/-- `MEMBW_AGENT_GUARD_HI`. -/
def membwAgentGuardHi : ℕ := b.agentLoadAddr + 0x800000

/-- `MEMBW_DEFAULT_ADDR`. -/
def membwDefaultAddr : ℕ := b.agentLoadAddr + 0x800000

end AgentBoard

/-- A loop of `stmia` over eight words: turns left, the counter, the destination and where the
counter ends.  The test comes behind the store. -/
def stmLoop : ℕ → ℕ → ℕ → ℕ → List ℕ
  | 0, _, _, _ => []
  | turns + 1, count, dst, stop =>
      (List.range 32).map (add32 dst) ++
        if add32 count 32 < stop then stmLoop turns (add32 count 32) (add32 dst 32) stop else []

/-- As many turns as there are addresses of eight words. -/
def stmTurns : ℕ := 2 ^ 27

/-- `membw_memset`: the addresses it stores to. -/
def membwMemset (addr bytes : ℕ) : List ℕ := stmLoop stmTurns addr addr (add32 addr bytes)

/-- `membw_memcpy`. -/
def membwMemcpy (dst src bytes : ℕ) : List ℕ := stmLoop stmTurns src dst (add32 src bytes)

/-- What the timers of a bandwidth test show. -/
structure MembwTimes where
  timerHz : ℕ
  memsetTicks : ℕ
  readTicks : ℕ
  memcpyTicks : ℕ

/-- The parameters of a bandwidth test. -/
structure MembwReq where
  size : ℕ
  iters : ℕ
  addr : ℕ

/-- The fields of a `CMD_MEMBW` payload, with their defaults. -/
def membwReq (b : AgentBoard) (data : List UInt8) : MembwReq where
  size := if readLe32 data = 0 then 4 * 1024 * 1024 else readLe32 data
  iters := if readLe32 (data.drop 4) = 0 then 8 else readLe32 (data.drop 4)
  addr := if readLe32 (data.drop 8) = 0 then b.membwDefaultAddr else readLe32 (data.drop 8)

/-- The checks of `handle_membw`. -/
def MembwReq.accepted (b : AgentBoard) (r : MembwReq) : Bool :=
  r.iters ≤ 256 && r.size ≤ maxMembwSize && r.size % 256 = 0 && r.addr ≥ b.soc.ramBase &&
    add32 (r.addr - b.soc.ramBase) (2 * r.size) ≤ 128 * 1024 * 1024 &&
    !(add32 r.addr (2 * r.size) > b.membwAgentGuardLo && r.addr < b.membwAgentGuardHi)

/-- The addresses a bandwidth test stores to; the reading loop stores nothing. -/
def MembwReq.addrs (r : MembwReq) : List ℕ :=
  (List.replicate r.iters (membwMemset r.addr r.size)).flatten ++
    (List.replicate r.iters (membwMemcpy (add32 r.addr r.size) r.addr r.size)).flatten

/-- `handle_membw`.  What it fills the range with and copies is `0xA5`. -/
def handleMembw (b : AgentBoard) (times : MembwTimes) (data : List UInt8) : List RamEvent :=
  if b.cpuArm926 then [ramAck ackFlashError]
  else if data.length < 12 then [ramAck ackCrcError]
  else
    let r := membwReq b data
    if r.accepted b then
      (r.addrs.map fun a => RamEvent.store a 0xA5) ++
        [.send ⟨rspMembw, packU32 r.addr ++ packU32 r.size ++ packU32 r.iters ++
          packU32 times.timerHz ++ packU32 times.memsetTicks ++ packU32 times.readTicks ++
          packU32 times.memcpyTicks ++ packU32 1⟩]
    else [ramAck ackFlashError]

/-! ## `handle_selfupdate` -/

/-- `MAX_UPDATE_SIZE`. -/
def maxUpdateSize : ℕ := 256 * 1024

/-- `trampoline_arm`. -/
def trampolineArm (cpuArm926 : Bool) : List ℕ :=
  if cpuArm926 then
    [0xe1a03000, 0xe3520000, 0x0a000003, 0xe4d14001, 0xe4c04001, 0xe2522001, 0x1afffffb,
      0xe12fff13]
  else
    [0xe1a03000, 0xe1a05002, 0xe3520000, 0x0a000003, 0xe4d14001, 0xe4c04001, 0xe2522001,
      0x1afffffb, 0xe1a00003, 0xe0836005, 0xe3c0001f, 0xee070f3b, 0xee070f35, 0xe2800020,
      0xe1500006, 0xbafffffa, 0xf57ff04f, 0xf57ff06f, 0xe12fff13]

/-- `tramp_dst`. -/
def trampDst (b : AgentBoard) : ℕ := b.soc.ramBase + 0x200

/-- The words of the trampoline, stored in place. -/
def trampolineStores (b : AgentBoard) : List (ℕ × UInt8) :=
  ((trampolineArm b.cpuArm926).flatMap packU32).mapIdx fun i x => (trampDst b + i, x)

/-- The check of `handle_selfupdate`. -/
def selfupdateAccepted (b : AgentBoard) (addr size : ℕ) : Bool :=
  size ≠ 0 && size ≤ maxUpdateSize && addr ≥ b.soc.ramBase && add32 addr size > addr

/-- `staging`. -/
def selfupdateStaging (addr : ℕ) : ℕ := add32 addr 0x100000

/-- `handle_selfupdate` after its receive loop, up to the jump. -/
def selfupdateFinish (b : AgentBoard) (addr size crc : ℕ) (ram : Store UInt8) : List RamEvent :=
  let actual := crc32 0 ((List.range size).map fun i => ram (add32 (selfupdateStaging addr) i))
  if actual.toNat ≠ crc then [ramAck ackCrcError]
  else
    ramAck ackOk :: (trampolineStores b).map RamEvent.ofStore ++
      [.jump (trampDst b) addr (selfupdateStaging addr) size]

/-- The receive loop of `handle_selfupdate`. -/
def selfupdateRecv (b : AgentBoard) (addr size crc : ℕ) (st : RxState) (p : Packet) :
    Option RxState × List RamEvent :=
  if p.cmd = rspData ∧ p.data.length > 2 then
    let stores := copyStores (selfupdateStaging addr) st.received size p.data
    let ram := afterStores st.ram stores
    let received := st.received + stores.length
    if received < size then (some ⟨ram, received⟩, stores.map RamEvent.ofStore)
    else (none, stores.map RamEvent.ofStore ++ selfupdateFinish b addr size crc ram)
  else if p.cmd = 0 then (none, [ramAck ackFlashError])
  else (some st, [])

/-- `handle_selfupdate`, with the results of `proto_recv` it reads. -/
def handleSelfupdate (b : AgentBoard) (ram : Store UInt8) (data : List UInt8)
    (inputs : List Packet) : List RamEvent :=
  if data.length < 12 then [ramAck ackCrcError]
  else
    let addr := readLe32 data
    let size := readLe32 (data.drop 4)
    let crc := readLe32 (data.drop 8)
    if selfupdateAccepted b addr size then
      ramAck ackOk :: outputs (selfupdateRecv b addr size crc) (some ⟨ram, 0⟩) inputs
    else [ramAck ackFlashError]

end Defib
