import Defib.Wire.Packet
import Defib.Agent.FlashDriver

/-!
# Reading memory

`CMD_READ` and `CMD_CRC32`: the whitelist `addr_readable`, `handle_read` with its four ways of
fetching a chunk, and `handle_crc32_cmd`.

`handle_read` cuts the request into chunks, and what a byte of a reply comes from depends on the
chunk it falls into.  `sent` says, offset by offset, which byte that is; `readReply_spec` reduces
the reply to it, so that everything said later about a reply is a statement about `sent`.
-/

namespace Defib

/-! ## The whitelist -/

/-- `MAX_READ_SIZE`. -/
def maxReadSize : ℕ := 32 * 1024 * 1024

/-- `uint32_t` addition. -/
def add32 (a b : ℕ) : ℕ := (a + b) % 2 ^ 32

lemma add32_of_lt {a b : ℕ} (h : a + b < 2 ^ 32) : add32 a b = a + b := Nat.mod_eq_of_lt h

/-- The test `addr >= lo && (addr + size) <= (lo + len)`. -/
def inRange (addr size lo len : ℕ) : Bool := addr ≥ lo && add32 addr size ≤ lo + len

/-- The register regions of `addr_readable`, as base and length. -/
def ioWindows (soc : Soc) : List (ℕ × ℕ) :=
  [(0x10000000, 0x1000), (0x12010000, 0x10000), (0x12020000, 0x10000),
    (soc.fmcBase, 0x1000), (soc.crgBase, 0x1000), (soc.uartBase, 0x1000)] ++
    (soc.emmcBase.toList ++ soc.ioCtrl0Base.toList).map fun base => (base, 0x1000)

/-- The flash window, with its bound evaluated in 64 bits. -/
def flashWindow (b : Board) (addr size : ℕ) : Bool :=
  b.flashReadable && addr ≥ b.soc.flashMem && addr - b.soc.flashMem + size ≤ b.flashInfo.size

/-- `addr_readable`. -/
def addrReadable (b : Board) (addr size : ℕ) : Bool :=
  if size = 0 ∨ add32 addr size ≤ addr then false
  else if inRange addr size b.soc.ramBase (128 * 1024 * 1024) then true
  else if (ioWindows b.soc).any fun w => inRange addr size w.1 w.2 then true
  else if b.soc.bootrom.any fun w => inRange addr size w.1 w.2 then true
  else flashWindow b addr size

/-! ## `handle_read` -/

/-- The test that selects word access. -/
def ioRegion (soc : Soc) (addr : ℕ) : Bool :=
  (0x10000000 ≤ addr && addr < 0x13000000)
    || (soc.fmcBase ≤ addr && addr < soc.fmcBase + 0x1000)
    || (soc.crgBase ≤ addr && addr < soc.crgBase + 0x1000)
    || (soc.uartBase ≤ addr && addr < soc.uartBase + 0x1000)

/-- `emmc_path`, before its alignment test. -/
def emmcPath (b : Board) (addr size : ℕ) : Bool :=
  b.soc.emmcBase.isSome && b.flashInfo.flashType = .emmc && flashWindow b addr size

/-- Byte `(val >> ((byte_off + j) * 8)) & 0xFF` of the word that holds address `a`.  A shift by
32 or more, which C leaves undefined, is the ARM register shift and gives zero. -/
def ioByte (m : Machine) (a j : ℕ) : UInt8 :=
  ⟨((m.reg (a - a % 4)) >>> ((a % 4 + j) * 8)).setWidth 8⟩

/-- The two nested loops over the words and bytes of a chunk at address `start`. -/
def ioRead (m : Machine) (start chunk : ℕ) : List UInt8 :=
  ((Cut.upTo 4 (by omega)).pieces 0 chunk).flatMap fun p =>
    (List.range p.2).map (ioByte m (start + p.1))

/-- One chunk, by whichever access the address calls for; `none` when the card fails. -/
def fetch (b : Board) (m : Machine) (addr size offset chunk : ℕ) : Option (List UInt8) :=
  if ioRegion b.soc addr then some (ioRead m (addr + offset) chunk)
  else if emmcPath b addr size then
    (emmcReadBlock b m ((addr - b.soc.flashMem + offset) / 512)).map (List.take chunk)
  else if flashWindow b addr size then
    some (flashRead b m (addr - b.soc.flashMem + offset) chunk)
  else some (m.bus.load (addr + offset) chunk)

/-- The longest chunk: what fits a packet after the sequence number, or one block of a card. -/
def readLimit (b : Board) (addr size : ℕ) : ℕ :=
  if emmcPath b addr size then 512 else maxPayload - 2

lemma readLimit_pos (b : Board) (addr size : ℕ) : 0 < readLimit b addr size := by
  unfold readLimit
  split <;> decide

/-- The chunks of a request. -/
def chunks (b : Board) (addr size : ℕ) : List (ℕ × ℕ) :=
  (Cut.upTo (readLimit b addr size) (readLimit_pos b addr size)).pieces 0 size

/-- The loop of `handle_read`: one `RSP_DATA` per chunk, then the final ACK. -/
def readLoop (fetch : ℕ → ℕ → Option (List UInt8)) : ℕ → List (ℕ × ℕ) → List Packet
  | _, [] => [ackPacket ackOk]
  | seq, p :: ps =>
      match fetch p.1 p.2 with
      | none => [ackPacket ackFlashError]
      | some bytes => ⟨rspData, packU16 seq ++ bytes⟩ :: readLoop fetch ((seq + 1) % 2 ^ 16) ps

/-- The checks a request passes before the loop starts. -/
def readAccepted (b : Board) (addr size : ℕ) : Bool :=
  size ≠ 0 && size ≤ maxReadSize && addrReadable b addr size &&
    !(emmcPath b addr size && ((addr - b.soc.flashMem) % 512 ≠ 0 || size % 512 ≠ 0))

/-- What is sent for a request with these parameters. -/
def readReply (b : Board) (m : Machine) (addr size : ℕ) : List Packet :=
  if readAccepted b addr size then readLoop (fetch b m addr size) 0 (chunks b addr size)
  else [ackPacket ackFlashError]

/-- `handle_read`. -/
def handleRead (b : Board) (m : Machine) (data : List UInt8) : List Packet :=
  if data.length < 8 then [ackPacket ackCrcError]
  else readReply b m (readLe32 data) (readLe32 (data.drop 4))

/-! ## `handle_crc32_cmd` -/

/-- The test that routes a checksum to the flash driver, with its bound in 32 bits. -/
def crcWindow (b : Board) (addr size : ℕ) : Bool :=
  b.flashReadable && addr ≥ b.soc.flashMem &&
    add32 addr size ≤ add32 b.soc.flashMem b.flashInfo.size

/-- The checksum of a request that passed the checks. -/
def crcOf (b : Board) (m : Machine) (addr size : ℕ) : BitVec 32 :=
  if crcWindow b addr size then flashCrc32 b m (addr - b.soc.flashMem) size
  else crc32 0 (m.bus.load addr size)

/-- `handle_crc32_cmd`. -/
def handleCrc32Cmd (b : Board) (m : Machine) (data : List UInt8) : List Packet :=
  if data.length < 8 then [ackPacket ackCrcError]
  else
    let addr := readLe32 data
    let size := readLe32 (data.drop 4)
    if size = 0 ∨ size > maxReadSize ∨ addrReadable b addr size = false then
      [ackPacket ackFlashError]
    else [⟨rspCrc32, packU32 (crcOf b m addr size).toNat⟩]

/-! ## The reply, chunk by chunk -/

/-- The `RSP_DATA` packets of a reply. -/
def dataPackets (reply : List Packet) : List Packet := reply.filter fun p => p.cmd == rspData

/-- The data parts of a reply, put together. -/
def payload (reply : List Packet) : List UInt8 :=
  (dataPackets reply).flatMap fun p => p.data.drop 2

/-- The sequence numbers of a reply, as they stand in its packets. -/
def seqNumbers (reply : List Packet) : List (List UInt8) :=
  (dataPackets reply).map fun p => p.data.take 2

section ReadLoop

variable (fetch : ℕ → ℕ → Option (List UInt8)) (read : ℕ → ℕ → List UInt8)

lemma readLoop_getLast? (seq : ℕ) (ps : List (ℕ × ℕ)) :
    (readLoop fetch seq ps).getLast? = some (ackPacket ackOk) ↔
      ∀ p ∈ ps, (fetch p.1 p.2).isSome := by
  induction ps generalizing seq with
  | nil => simp [readLoop]
  | cons p ps ih =>
      cases h : fetch p.1 p.2 with
      | none => simp [readLoop, h, ackPacket, ackFlashError, ackOk]
      | some bytes =>
          have hne : readLoop fetch ((seq + 1) % 2 ^ 16) ps ≠ [] := by
            cases ps with
            | nil => simp [readLoop]
            | cons q qs =>
                rw [readLoop]
                split <;> simp
          simp only [readLoop, h, List.mem_cons, forall_eq_or_imp, Option.isSome_some, true_and]
          rw [List.getLast?_cons_of_ne_nil hne, ih]

variable {fetch read}

lemma dataPackets_cons_data (seq : ℕ) (bytes : List UInt8) (reply : List Packet) :
    dataPackets (⟨rspData, packU16 seq ++ bytes⟩ :: reply) =
      ⟨rspData, packU16 seq ++ bytes⟩ :: dataPackets reply := by
  simp [dataPackets]

variable (read) in
lemma payload_readLoop (seq : ℕ) (ps : List (ℕ × ℕ))
    (h : ∀ p ∈ ps, fetch p.1 p.2 = some (read p.1 p.2)) :
    payload (readLoop fetch seq ps) = ps.flatMap fun p => read p.1 p.2 := by
  induction ps generalizing seq with
  | nil => rfl
  | cons p ps ih =>
      have hp := h p (by simp)
      simp only [readLoop, hp, List.flatMap_cons]
      rw [payload, dataPackets_cons_data, List.flatMap_cons, ← payload,
        ih _ fun q hq => h q (by simp [hq])]
      simp [packU16]

lemma seqNumbers_readLoop (seq : ℕ) (ps : List (ℕ × ℕ))
    (h : ∀ p ∈ ps, fetch p.1 p.2 = some (read p.1 p.2)) :
    seqNumbers (readLoop fetch (seq % 2 ^ 16) ps) =
      (List.range ps.length).map fun k => packU16 ((seq + k) % 2 ^ 16) := by
  induction ps generalizing seq with
  | nil => rfl
  | cons p ps ih =>
      have hp := h p (by simp)
      have hnext : (seq % 2 ^ 16 + 1) % 2 ^ 16 = (seq + 1) % 2 ^ 16 := by omega
      simp only [readLoop, hp, hnext]
      rw [seqNumbers, dataPackets_cons_data, List.map_cons, ← seqNumbers,
        ih _ fun q hq => h q (by simp [hq]), List.length_cons, List.range_succ_eq_map,
        List.map_cons, List.map_map]
      congr 1
      refine List.map_congr_left fun k _ => ?_
      simp only [Function.comp_apply]
      congr 2
      omega

end ReadLoop

/-! ## Which byte is sent -/

/-- The position on the card of byte `i` of a request at window offset `off`. -/
def emmcCell (card : EmmcCard) (off i : ℕ) : ℕ :=
  let blockNo := (off + i / 512 * 512) / 512
  (if card.highCapacity then 512 * blockNo else blockNo) + i % 512

/-- The byte at offset `i` of the data sent for a request. -/
def sent (b : Board) (m : Machine) (addr size : ℕ) : Store UInt8 := fun i =>
  if ioRegion b.soc addr then
    let start := i / readLimit b addr size * readLimit b addr size
    let r := i % readLimit b addr size
    ioByte m (addr + start + r / 4 * 4) (r % 4)
  else if emmcPath b addr size then
    match b.probe.emmc with
    | none => 0
    | some card => m.flash (emmcCell card (addr - b.soc.flashMem) i)
  else if flashWindow b addr size then view b m (addr - b.soc.flashMem + i)
  else m.bus (addr + i)

lemma ioRead_eq (m : Machine) (start chunk : ℕ) :
    ioRead m start chunk =
      Store.load (fun r => ioByte m (start + r / 4 * 4) (r % 4)) 0 chunk := by
  refine Cut.flatMap_pieces_load _ _ (fun i n => (List.range n).map (ioByte m (start + i)))
    0 chunk fun p hp => ?_
  obtain ⟨hmod, hle⟩ := Cut.mem_pieces_upTo _ rfl hp
  refine List.map_congr_left fun j hj => ?_
  have hj' := List.mem_range.mp hj
  have hdiv : (p.1 + j) / 4 * 4 = p.1 := by omega
  have hrem : (p.1 + j) % 4 = j := by omega
  simp only [hdiv, hrem]

/-- The position of a byte in the chunk of a fixed limit it falls into. -/
lemma div_mod_of_chunk {limit start r : ℕ} (hmod : start % limit = 0) (hr : r < limit) :
    (start + r) / limit * limit = start ∧ (start + r) % limit = r := by
  obtain ⟨k, rfl⟩ := Nat.dvd_of_mod_eq_zero hmod
  have hpos : 0 < limit := by omega
  rw [Nat.mul_add_div hpos, Nat.div_eq_of_lt hr, Nat.mul_add_mod, Nat.mod_eq_of_lt hr]
  exact ⟨by rw [Nat.add_zero, Nat.mul_comm], rfl⟩

/-- The SPI drivers serve every flash window that is not a card's. -/
lemma flashType_ne_emmc {b : Board} {addr size : ℕ} (hflash : flashWindow b addr size = true)
    (hemmc : ¬ emmcPath b addr size = true) : b.flashInfo.flashType ≠ .emmc := by
  intro htype
  have hreadable : b.flashReadable = true := by
    simp only [flashWindow, Bool.and_eq_true] at hflash
    exact hflash.1.1
  rcases b.boot_cases hreadable with hnor | ⟨hnand, -⟩ | ⟨card, -, hbase, -⟩
  · rw [hnor.1] at htype
    cases htype
  · rw [hnand] at htype
    cases htype
  · exact hemmc (by simp [emmcPath, hbase, htype, hflash])

/-- A non-empty request in a card's window finds a card that reported a capacity. -/
lemma exists_card {b : Board} {addr size : ℕ} (hemmc : emmcPath b addr size = true)
    (hsize : size ≠ 0) : ∃ card, b.probe.emmc = some card ∧ emmcCapacityBytes card ≠ 0 := by
  simp only [emmcPath, flashWindow, Bool.and_eq_true, decide_eq_true_eq] at hemmc
  obtain ⟨⟨-, htype⟩, ⟨hreadable, -⟩, hbound⟩ := hemmc
  rcases b.boot_cases hreadable with hnor | ⟨hnand, -⟩ | ⟨card, hcard, -, hinfo⟩
  · rw [hnor.1] at htype
    cases htype
  · rw [hnand] at htype
    cases htype
  · refine ⟨card, hcard, fun hcap => ?_⟩
    rw [hinfo, emmcInfo, hcap] at hbound
    simp at hbound
    omega

lemma fetch_emmc {b : Board} {m : Machine} {addr size : ℕ} (hio : ¬ ioRegion b.soc addr = true)
    (hemmc : emmcPath b addr size = true) {p : ℕ × ℕ} (hp : p ∈ chunks b addr size) :
    fetch b m addr size p.1 p.2 = none ∨
      fetch b m addr size p.1 p.2 = some ((sent b m addr size).load p.1 p.2) := by
  obtain ⟨hmod, hle⟩ := Cut.mem_pieces_upTo _ (Nat.zero_mod _) hp
  rw [show readLimit b addr size = 512 from if_pos hemmc] at hmod hle
  simp only [fetch, if_neg hio, if_pos hemmc]
  unfold emmcReadBlock
  cases hcard : b.probe.emmc with
  | none => exact .inl rfl
  | some card =>
      by_cases hcap : emmcCapacityBytes card = 0
      · exact .inl (by simp [hcap])
      by_cases hfail : m.emmcFails ((addr - b.soc.flashMem + p.1) / 512) = true
      · exact .inl (by simp [hcap, hfail])
      right
      simp only [if_neg hcap, if_neg hfail, Option.map_some]
      rw [Store.take_load _ _ hle]
      refine congrArg some (List.map_congr_left fun r hr => ?_)
      obtain ⟨hdiv, hrem⟩ := div_mod_of_chunk hmod
        (by have := List.mem_range.mp hr; omega : r < 512)
      simp only [sent, if_neg hio, if_pos hemmc, hcard, emmcCell, hdiv, hrem]

/-- A chunk is fetched as `sent` has it, or, on a card, not at all. -/
lemma fetch_eq {b : Board} {m : Machine} {addr size : ℕ} {p : ℕ × ℕ}
    (hp : p ∈ chunks b addr size) :
    fetch b m addr size p.1 p.2 = none ∨
      fetch b m addr size p.1 p.2 = some ((sent b m addr size).load p.1 p.2) := by
  by_cases hio : ioRegion b.soc addr = true
  · right
    obtain ⟨hmod, hle⟩ := Cut.mem_pieces_upTo _ (Nat.zero_mod _) hp
    rw [fetch, if_pos hio, ioRead_eq]
    refine congrArg some (List.map_congr_left fun r hr => ?_)
    obtain ⟨hdiv, hrem⟩ := div_mod_of_chunk hmod
      (by have := List.mem_range.mp hr; omega : r < readLimit b addr size)
    simp only [sent, if_pos hio, hdiv, hrem, Nat.zero_add]
  by_cases hemmc : emmcPath b addr size = true
  · exact fetch_emmc hio hemmc hp
  right
  by_cases hflash : flashWindow b addr size = true
  · rw [fetch, if_neg hio, if_neg hemmc, if_pos hflash,
      flashRead_eq (flashType_ne_emmc hflash hemmc)]
    refine congrArg some (List.map_congr_left fun r _ => ?_)
    simp only [sent, if_neg hio, if_neg hemmc, if_pos hflash, Nat.add_assoc]
  · rw [fetch, if_neg hio, if_neg hemmc, if_neg hflash]
    refine congrArg some (List.map_congr_left fun r _ => ?_)
    simp only [sent, if_neg hio, if_neg hemmc, if_neg hflash, Nat.add_assoc]

/-- A reply that ends with `ACK_OK`. -/
def AckedOk (reply : List Packet) : Prop := reply.getLast? = some (ackPacket ackOk)

/-- A request that is answered with `ACK_OK` passed the checks, and all its chunks were read. -/
lemma fetch_of_ackedOk {b : Board} {m : Machine} {addr size : ℕ}
    (hack : AckedOk (readReply b m addr size)) :
    readAccepted b addr size = true ∧ ∀ p ∈ chunks b addr size,
      fetch b m addr size p.1 p.2 = some ((sent b m addr size).load p.1 p.2) := by
  by_cases hacc : readAccepted b addr size = true
  · rw [readReply, if_pos hacc] at hack
    have hsome := (readLoop_getLast? _ _ _).mp hack
    refine ⟨hacc, fun p hp => ?_⟩
    rcases fetch_eq (m := m) hp with hnone | hsent
    · have := hsome p hp
      rw [hnone] at this
      cases this
    · exact hsent
  · rw [readReply, if_neg hacc] at hack
    simp [AckedOk, ackPacket, ackFlashError, ackOk] at hack

/-- **The reply to a read.**  A request that is answered with `ACK_OK` has passed the checks, its
data is what `sent` says, and its packets are numbered from zero. -/
lemma readReply_spec {b : Board} {m : Machine} {addr size : ℕ}
    (hack : AckedOk (readReply b m addr size)) :
    readAccepted b addr size = true ∧
      payload (readReply b m addr size) = (sent b m addr size).load 0 size ∧
      seqNumbers (readReply b m addr size) =
        (List.range (chunks b addr size).length).map fun k => packU16 (k % 2 ^ 16) := by
  obtain ⟨hacc, hfetch⟩ := fetch_of_ackedOk hack
  rw [readReply, if_pos hacc]
  refine ⟨hacc, ?_, ?_⟩
  · rw [payload_readLoop _ 0 _ hfetch]
    exact Cut.flatMap_pieces_load _ _ _ 0 size fun p _ => rfl
  · simpa using seqNumbers_readLoop 0 _ hfetch

/-- When no block read fails, every request that passes the checks is answered. -/
lemma ackedOk_readReply {b : Board} {m : Machine} {addr size : ℕ}
    (hacc : readAccepted b addr size = true) (hok : ∀ n, m.emmcFails n = false) :
    AckedOk (readReply b m addr size) := by
  rw [readReply, if_pos hacc, AckedOk, readLoop_getLast?]
  intro p hp
  unfold fetch
  by_cases hio : ioRegion b.soc addr = true
  · simp [hio]
  by_cases hemmc : emmcPath b addr size = true
  · have hsize : size ≠ 0 := by
      simp only [readAccepted, Bool.and_eq_true, decide_eq_true_eq] at hacc
      exact hacc.1.1.1
    obtain ⟨card, hcard, hcap⟩ := exists_card hemmc hsize
    simp [hio, hemmc, emmcReadBlock, hcard, hcap, hok]
  · rw [if_neg hio, if_neg hemmc]
    split <;> rfl

end Defib
