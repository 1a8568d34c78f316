import Defib.Agent.ReadPaths
import Defib.Agent.MemoryWrite
import Defib.Host.ReadMemory

/-!
# Which medium serves the RAM window

`handle_read` looks for a card and for the flash window before it falls back to plain memory, and
`handle_write` hands everything below the flash size to `handle_flash_write`.  An SPI flash has at
most 128 MiB and its window lies below RAM, so neither test ever fires on a RAM address.  A card
may report up to 4 GiB, and then both do: `servedAsRam_iff` says for exactly which ranges the two
handlers still treat RAM as RAM, and `servedAsRam_of_spi` that without a card these are all.
-/

namespace Defib

/-- A range inside the RAM window `[RAM_BASE, RAM_BASE + 128 MiB)`. -/
def InRam (b : Board) (addr size : ℕ) : Prop :=
  Inside addr size (b.soc.ramBase, 128 * 1024 * 1024)

/-- The reply to a read that is served from RAM: plain loads, in packets of the full size. -/
def ramReadReply (m : Machine) (addr size : ℕ) : List Packet :=
  if size = 0 ∨ size > maxReadSize then [ackPacket ackFlashError]
  else
    readLoop (fun offset chunk => some (m.bus.load (addr + offset) chunk)) 0
      ((Cut.upTo (maxPayload - 2) (by decide)).pieces 0 size)

/-- What a write that is served by RAM makes of an idle agent: it waits for the data of the
request, and its receive loop stores them at the address itself. -/
def ramWriteBegin (a : WriteAgent) (r : WriteReq) : WriteAgent × List Packet :=
  if r.size = 0 ∨ r.size > maxReadSize then (a, [ackPacket ackFlashError])
  else ({ a with phase := .receiving r 0 }, [ackPacket ackOk])

/-- `handle_read` reads a range as RAM, whatever memory and flash hold. -/
def ReadAsRam (b : Board) (addr size : ℕ) : Prop :=
  ∀ m, handleRead b m (packU32 addr ++ packU32 size) = ramReadReply m addr size

/-- `handle_write` writes a range as RAM. -/
def WrittenAsRam (b : Board) (addr size : ℕ) : Prop :=
  ∀ chip info a crc, crc < 2 ^ 32 → a.phase = .idle →
    WriteAgent.recv b chip info a ⟨cmdWrite, packU32 addr ++ packU32 size ++ packU32 crc⟩ =
      ramWriteBegin a ⟨addr, size, crc⟩

/-- RAM is the medium of a range, for both handlers. -/
def ServedAsRam (b : Board) (addr size : ℕ) : Prop :=
  ReadAsRam b addr size ∧ WrittenAsRam b addr size

/-- The range ends beyond everything the identified flash lays claim to: its size counted from
zero, as `handle_write` does, and, for the sizes `handle_read` admits, counted from `FLASH_MEM`. -/
def BeyondFlash (b : Board) (addr size : ℕ) : Prop :=
  b.flashReadable = true → 0 < size →
    b.flashInfo.size < addr + size ∧
      (size ≤ maxReadSize → b.soc.flashMem + b.flashInfo.size < addr + size)

/-! ## The memory maps -/

/-- No controller lies in RAM or above it. -/
lemma Board.registers_le_ramBase (b : Board) :
    0x13000000 ≤ b.soc.ramBase ∧ b.soc.fmcBase + 0x1000 ≤ b.soc.ramBase ∧
      b.soc.crgBase + 0x1000 ≤ b.soc.ramBase ∧ b.soc.uartBase + 0x1000 ≤ b.soc.ramBase := by
  have h : ∀ soc ∈ socs, 0x13000000 ≤ soc.ramBase ∧ soc.fmcBase + 0x1000 ≤ soc.ramBase ∧
      soc.crgBase + 0x1000 ≤ soc.ramBase ∧ soc.uartBase + 0x1000 ≤ soc.ramBase := by
    decide
  exact h _ b.soc_mem

lemma ioRegion_of_inRam {b : Board} {addr size : ℕ} (h : InRam b addr size) :
    ioRegion b.soc addr = false := by
  have hmap := b.registers_le_ramBase
  have hlo : b.soc.ramBase ≤ addr := h.1
  simp only [ioRegion, Bool.or_eq_false_iff, Bool.and_eq_false_iff, decide_eq_false_iff_not]
  omega

/-- The RAM window ends far below 4 GiB. -/
lemma InRam.lt {b : Board} {addr size : ℕ} (h : InRam b addr size) :
    addr + size < 2 ^ 32 := by
  have hmap := b.flashMem_add_le
  have hhi : addr + size ≤ b.soc.ramBase + 128 * 1024 * 1024 := h.2
  omega

lemma addrReadable_of_inRam {b : Board} {addr size : ℕ} (h : InRam b addr size)
    (hpos : 0 < size) : addrReadable b addr size = true := by
  have hlt := h.lt
  have hadd : add32 addr size = addr + size := add32_of_lt hlt
  rw [addrReadable, if_neg (by omega), if_pos ((inRange_iff hlt _).mpr h)]

/-- A RAM range in the flash window is in the window of a card. -/
lemma emmcPath_of_inRam {b : Board} {addr size : ℕ} (h : InRam b addr size) (hpos : 0 < size)
    (hflash : flashWindow b addr size = true) : emmcPath b addr size = true := by
  by_contra hemmc
  have htype := flashType_ne_emmc hflash hemmc
  simp only [flashWindow, Bool.and_eq_true, decide_eq_true_eq] at hflash
  have hsize := size_le_of_ne_emmc hflash.1.1 htype
  have hmap := b.flashMem_add_le
  have hlo : b.soc.ramBase ≤ addr := h.1
  omega

/-! ## Reading -/

lemma handleRead_inRam {b : Board} {addr size : ℕ} (h : InRam b addr size) (m : Machine) :
    handleRead b m (packU32 addr ++ packU32 size) = readReply b m addr size := by
  have hlt := h.lt
  exact handleRead_request (by omega) (by omega) b m

/-- Where the flash window does not reach, RAM is read as RAM. -/
lemma readReply_of_not_flashWindow {b : Board} {addr size : ℕ} (h : InRam b addr size)
    (hflash : flashWindow b addr size = false) (m : Machine) :
    readReply b m addr size = ramReadReply m addr size := by
  have hemmc : emmcPath b addr size = false := by simp [emmcPath, hflash]
  have hio := ioRegion_of_inRam h
  rw [readReply, ramReadReply]
  by_cases hsize : size = 0 ∨ size > maxReadSize
  · have hacc : readAccepted b addr size = false := by
      simp only [readAccepted, Bool.and_eq_false_iff, decide_eq_false_iff_not]
      omega
    rw [if_pos hsize, hacc, if_neg (by decide)]
  · have hacc : readAccepted b addr size = true := by
      simp only [readAccepted, addrReadable_of_inRam h (by omega), hemmc, Bool.and_eq_true,
        decide_eq_true_eq]
      exact ⟨⟨⟨by omega, by omega⟩, trivial⟩, rfl⟩
    have hfetch : fetch b m addr size =
        fun offset chunk => some (m.bus.load (addr + offset) chunk) := by
      funext offset chunk
      simp [fetch, hio, hemmc, hflash]
    have hlimit : readLimit b addr size = maxPayload - 2 := by simp [readLimit, hemmc]
    rw [if_neg hsize, if_pos hacc, hfetch]
    simp only [chunks, hlimit]

/-- Memory and flash with nothing in common. -/
def splitMachine : Machine where
  bus := fun _ => 0
  reg := fun _ => 0
  flash := fun _ => 1
  stray := fun _ _ => 0
  emmcFails := fun _ => false

/-- A read served from RAM is acknowledged and returns what RAM holds. -/
lemma payload_ramReadReply (m : Machine) (addr : ℕ) {size : ℕ} (hpos : 0 < size)
    (hle : size ≤ maxReadSize) :
    AckedOk (ramReadReply m addr size) ∧
      payload (ramReadReply m addr size) = m.bus.load addr size := by
  have hsize : ¬ (size = 0 ∨ size > maxReadSize) := by omega
  rw [ramReadReply, if_neg hsize]
  constructor
  · rw [AckedOk, readLoop_getLast?]
    exact fun _ _ => rfl
  · rw [payload_readLoop (fun offset chunk => m.bus.load (addr + offset) chunk) 0 _
      fun _ _ => rfl]
    have hload := Cut.flatMap_pieces_load (Cut.upTo (maxPayload - 2) (by decide))
      (fun i => m.bus (addr + i)) (fun i n => m.bus.load (addr + i) n) 0 size
      (fun p _ => by simp [Store.load, Nat.add_assoc])
    rw [hload]
    simp [Store.load]

/-- A RAM range in the window of a card is read from the card, or not at all. -/
lemma not_readAsRam_of_flashWindow {b : Board} {addr size : ℕ} (h : InRam b addr size)
    (hpos : 0 < size) (hle : size ≤ maxReadSize) (hflash : flashWindow b addr size = true) :
    ¬ ReadAsRam b addr size := by
  intro hram
  have hreply := hram splitMachine
  rw [handleRead_inRam h] at hreply
  obtain ⟨hacked, hpayload⟩ := payload_ramReadReply splitMachine addr hpos hle
  rw [← hreply] at hacked hpayload
  -- the reply is acknowledged, so its bytes are the card's: ones where RAM holds zeros
  obtain ⟨-, hsent, -⟩ := readReply_spec hacked
  rw [hsent] at hpayload
  have hio := ioRegion_of_inRam h
  have hemmc := emmcPath_of_inRam h hpos hflash
  obtain ⟨card, hcard, -⟩ := exists_card hemmc (by omega)
  have hfirst := congrArg List.head? hpayload
  obtain ⟨n, rfl⟩ : ∃ n, size = n + 1 := ⟨size - 1, by omega⟩
  rw [Store.load, Store.load, List.range_succ_eq_map] at hfirst
  simp [sent, hio, hemmc, hcard, splitMachine] at hfirst

/-! ## Writing -/

lemma recv_write_inRam {b : Board} {addr size : ℕ} (h : InRam b addr size) (chip : Chip)
    (info : List UInt8) {a : WriteAgent} {crc : ℕ} (hcrc : crc < 2 ^ 32) (hidle : a.phase = .idle) :
    WriteAgent.recv b chip info a ⟨cmdWrite, packU32 addr ++ packU32 size ++ packU32 crc⟩ =
      a.begin b 12 ⟨addr, size, crc⟩ := by
  have hlt := h.lt
  have hreq : writeReq (packU32 addr ++ packU32 size ++ packU32 crc) = ⟨addr, size, crc⟩ := by
    have h₁ : (packU32 addr ++ packU32 size ++ packU32 crc).drop 4 =
        packU32 size ++ packU32 crc := rfl
    have h₂ : (packU32 addr ++ packU32 size ++ packU32 crc).drop 8 = packU32 crc := rfl
    rw [writeReq, h₁, h₂, List.append_assoc, readLe32_packU32_append, readLe32_packU32_append,
      readLe32_packU32, Nat.mod_eq_of_lt (by omega), Nat.mod_eq_of_lt (by omega),
      Nat.mod_eq_of_lt hcrc]
  rw [WriteAgent.recv, hidle]
  simp only [if_pos, hreq]
  rfl

/-- Where the flash does not reach, RAM is written as RAM. -/
lemma writtenAsRam_of_lt {b : Board} {addr size : ℕ} (h : InRam b addr size)
    (hflash : b.flashReadable = true → b.flashInfo.size < addr + size) :
    WrittenAsRam b addr size := by
  intro chip info a crc hcrc hidle
  have hlt := h.lt
  have hadd : add32 addr size = addr + size := add32_of_lt hlt
  have hlo : b.soc.ramBase ≤ addr := h.1
  have htoFlash : WriteReq.toFlash b ⟨addr, size, crc⟩ = false := by
    simp only [WriteReq.toFlash, hadd, Bool.and_eq_false_iff, decide_eq_false_iff_not]
    cases hreadable : b.flashReadable with
    | false => exact .inl (.inl rfl)
    | true =>
        have := hflash hreadable
        right
        omega
  rw [recv_write_inRam h chip info hcrc hidle, WriteAgent.begin, ramWriteBegin, htoFlash]
  by_cases hsize : size = 0 ∨ size > maxReadSize
  · have hacc : WriteReq.accepted b ⟨addr, size, crc⟩ = false := by
      simp only [WriteReq.accepted, Bool.and_eq_false_iff, decide_eq_false_iff_not]
      omega
    simp [hsize, hacc]
  · have hacc : WriteReq.accepted b ⟨addr, size, crc⟩ = true :=
      WriteReq.accepted_of_fits (by simp only; omega) (by simp only; omega) hlo (by simpa using hlt)
    simp [hsize, hacc]

/-- An empty write is refused by either handler. -/
lemma writtenAsRam_zero {b : Board} {addr : ℕ} (h : InRam b addr 0) : WrittenAsRam b addr 0 := by
  intro chip info a crc hcrc hidle
  have hrefused : ramWriteBegin a ⟨addr, 0, crc⟩ = (a, [ackPacket ackFlashError]) := rfl
  rw [recv_write_inRam h chip info hcrc hidle, WriteAgent.begin, hrefused, if_neg (by decide)]
  cases hgeometry : b.geometry with
  | none => simp [WriteReq.accepted]
  | some g => simp [WriteReq.accepted, flashWriteAccepted]

/-- A write below the flash size that is too long for RAM goes to the flash. -/
lemma not_writtenAsRam_of_le {b : Board} {addr size : ℕ} (h : InRam b addr size)
    (hreadable : b.flashReadable = true) (hsize : maxReadSize < size)
    (hle : addr + size ≤ b.flashInfo.size) : ¬ WrittenAsRam b addr size := by
  intro hram
  have hadd : add32 addr size = addr + size := add32_of_lt h.lt
  have hwritten := hram ⟨fun _ => true, fun _ => (0, 0, 0), fun _ => 0⟩ [] ⟨fun _ => 0, .idle, []⟩ 0
    (by omega) rfl
  rw [recv_write_inRam h _ _ (by omega) rfl, ramWriteBegin, if_pos (.inr hsize),
    WriteAgent.begin, if_neg (by decide)] at hwritten
  have htoFlash : WriteReq.toFlash b ⟨addr, size, 0⟩ = true := by
    simp only [WriteReq.toFlash, hreadable, hadd, Bool.true_and, Bool.and_eq_true,
      decide_eq_true_eq]
    omega
  have hgeometry : ∃ g, b.geometry = some g ∧ g.size = b.flashInfo.size := by
    rw [Board.geometry, dif_pos hreadable]
    exact ⟨_, rfl, rfl⟩
  obtain ⟨g, hg, hgsize⟩ := hgeometry
  have hacc : flashWriteAccepted g addr size = true := by
    simp only [flashWriteAccepted, hadd, hgsize, Bool.and_eq_true, decide_eq_true_eq]
    omega
  simp [htoFlash, hg, hacc, ackPacket, ackOk, ackFlashError] at hwritten

/-! ## The RAM window -/

lemma flashWindow_eq_false_of_beyond {b : Board} {addr size : ℕ} (hpos : 0 < size)
    (hle : size ≤ maxReadSize) (hbeyond : BeyondFlash b addr size) :
    flashWindow b addr size = false := by
  cases hreadable : b.flashReadable with
  | false => simp [flashWindow, hreadable]
  | true =>
      obtain ⟨-, hwindow⟩ := hbeyond hreadable hpos
      have hgt := hwindow hle
      simp only [flashWindow, hreadable, Bool.true_and, Bool.and_eq_false_iff,
        decide_eq_false_iff_not]
      omega

lemma readAsRam_of_beyond {b : Board} {addr size : ℕ} (h : InRam b addr size)
    (hbeyond : BeyondFlash b addr size) : ReadAsRam b addr size := by
  intro m
  rw [handleRead_inRam h]
  by_cases hsize : size = 0 ∨ size > maxReadSize
  · -- the size is refused before any routing
    have hacc : readAccepted b addr size = false := by
      simp only [readAccepted, Bool.and_eq_false_iff, decide_eq_false_iff_not]
      omega
    rw [readReply, hacc, ramReadReply, if_pos hsize, if_neg (by decide)]
  · exact readReply_of_not_flashWindow h
      (flashWindow_eq_false_of_beyond (by omega) (by omega) hbeyond) m

lemma writtenAsRam_of_beyond {b : Board} {addr size : ℕ} (h : InRam b addr size)
    (hbeyond : BeyondFlash b addr size) : WrittenAsRam b addr size := by
  rcases Nat.eq_zero_or_pos size with rfl | hpos
  · exact writtenAsRam_zero h
  · exact writtenAsRam_of_lt h fun hreadable => (hbeyond hreadable hpos).1

/-- **Which RAM is RAM.**  A range inside the RAM window is read and written as RAM exactly when it
ends beyond what the identified flash lays claim to. -/
theorem servedAsRam_iff (b : Board) (addr size : ℕ) (h : InRam b addr size) :
    ServedAsRam b addr size ↔ BeyondFlash b addr size := by
  constructor
  · rintro ⟨hread, hwritten⟩ hreadable hpos
    have hlo : b.soc.ramBase ≤ addr := h.1
    have hmap := b.flashMem_add_le
    by_cases hle : size ≤ maxReadSize
    · have hwindow : ¬ flashWindow b addr size = true := fun hflash =>
        not_readAsRam_of_flashWindow h hpos hle hflash hread
      simp only [flashWindow, hreadable, Bool.true_and, Bool.and_eq_true,
        decide_eq_true_eq] at hwindow
      omega
    · refine ⟨?_, fun h => absurd h hle⟩
      by_contra hsmall
      exact not_writtenAsRam_of_le h hreadable (by omega) (by omega) hwritten
  · intro hbeyond
    exact ⟨readAsRam_of_beyond h hbeyond, writtenAsRam_of_beyond h hbeyond⟩

/-- The first mebibyte of RAM of a 16 MiB NOR board. -/
theorem servedAsRam_norBoard :
    InRam (norBoard hi3516ev300 (by decide)) 0x40000000 0x100000 ∧
      (ServedAsRam (norBoard hi3516ev300 (by decide)) 0x40000000 0x100000 ↔
        BeyondFlash (norBoard hi3516ev300 (by decide)) 0x40000000 0x100000) := by
  have hram : InRam (norBoard hi3516ev300 (by decide)) 0x40000000 0x100000 :=
    ⟨by decide, by decide⟩
  exact ⟨hram, servedAsRam_iff _ _ _ hram⟩

/-- Without a card, all of RAM is RAM. -/
theorem servedAsRam_of_spi {b : Board} {addr size : ℕ} (h : InRam b addr size)
    (htype : b.flashReadable = true → b.flashInfo.flashType ≠ .emmc) :
    ServedAsRam b addr size := by
  have hbeyond : BeyondFlash b addr size := by
    intro hreadable hpos
    have hsize := size_le_of_ne_emmc hreadable (htype hreadable)
    have hmap := b.flashMem_add_le
    have hlo : b.soc.ramBase ≤ addr := h.1
    omega
  exact ⟨readAsRam_of_beyond h hbeyond, writtenAsRam_of_beyond h hbeyond⟩

/-- A board with a high-capacity card. -/
def cardBoard : Board :=
  ⟨hi3516cv500, by decide, ⟨0, fun _ => (0, 0, 0), some ⟨true, 0, 0⟩⟩⟩

/-- **A card swallows RAM.**  With a high-capacity card, the agent refuses to read 100 bytes at the
start of RAM. -/
theorem card_swallows_ram :
    InRam cardBoard 0x80000000 100 ∧ ¬ ServedAsRam cardBoard 0x80000000 100 := by
  have hram : InRam cardBoard 0x80000000 100 := ⟨by decide, by decide⟩
  refine ⟨hram, fun h => ?_⟩
  exact not_readAsRam_of_flashWindow hram (by decide) (by decide) (by decide) h.1

end Defib
