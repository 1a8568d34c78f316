import Defib.Agent.FlashCommands
import Defib.Host.SwitchBaud

/-!
# The host's flash writer

`write_flash` of the agent client: it settles the rate of the line, announces a stream with a bitmap
of the sectors that are not all `0xFF`, sends those sectors in packets of 512 bytes, one sector per
progress report, and returns what the final ACK says.  The client is a state machine that reads one
packet at a time (`writeFlashRecv`), and `WriteHost` also records everything it has sent.

* `bitmapBit_bitmap`: the bitmap announces exactly the sectors that are sent.
* `sendSector_encodes_iff`: the sequence number of a data packet is packed into 16 bits, so a
  sector can be sent if and only if it lies below 32 MiB or is empty.
-/

namespace Defib

/-! ## Data packets -/

/-- `WRITE_CHUNK_SIZE`. -/
def writeChunkSize : ℕ := 512

/-- The ranges of at most `WRITE_CHUNK_SIZE` bytes that a send loop takes. -/
def writeChunks (offset n : ℕ) : List (ℕ × ℕ) :=
  (Cut.upTo writeChunkSize (by decide)).pieces offset n

/-- A data packet: `struct.pack("<H", seq)` and a range of the data. -/
def dataPacket (data : List UInt8) (seq : ℕ) (p : ℕ × ℕ) : Packet :=
  ⟨rspData, packU16 seq ++ (data.drop p.1).take p.2⟩

/-- A send loop: the packets that go out, and whether `struct.pack` could encode all of them. -/
def sendData (data : List UInt8) : ℕ → List (ℕ × ℕ) → List Packet × Bool
  | _, [] => ([], true)
  | seq, p :: ps =>
      if seq < 2 ^ 16 then
        let rest := sendData data (seq + 1) ps
        (dataPacket data seq p :: rest.1, rest.2)
      else ([], false)

lemma sendData_snd (data : List UInt8) (seq : ℕ) (ps : List (ℕ × ℕ)) :
    (sendData data seq ps).2 = true ↔ ps = [] ∨ seq + ps.length ≤ 2 ^ 16 := by
  induction ps generalizing seq with
  | nil => simp [sendData]
  | cons p ps ih =>
      rw [sendData]
      split
      · rename_i hseq
        have hnil : ps = [] ↔ ps.length = 0 := List.length_eq_zero_iff.symm
        simp only [ih, hnil, List.length_cons, reduceCtorEq, false_or]
        omega
      · simp only [Bool.false_eq_true, reduceCtorEq, List.length_cons, false_or, false_iff]
        omega

/-- The packets of a loop that goes through, one turn at a time. -/
lemma sendData_cons_inv {data : List UInt8} {seq : ℕ} {p : ℕ × ℕ} {ps : List (ℕ × ℕ)}
    {out : List Packet} (h : sendData data seq (p :: ps) = (out, true)) :
    ∃ rest, out = dataPacket data seq p :: rest ∧ sendData data (seq + 1) ps = (rest, true) := by
  rw [sendData] at h
  split at h
  · simp only [Prod.mk.injEq] at h
    exact ⟨_, h.1.symm, Prod.ext rfl h.2⟩
  · simp at h

/-! ## The job -/

/-- The arguments of `write_flash`, the sector size the client learned from `get_info`, and its
rate. -/
structure FlashJob where
  addr : ℕ
  data : List UInt8
  sectorSize : ℕ
  client : BaudClient

namespace FlashJob

variable (j : FlashJob)

/-- `sector_sz`, with its default. -/
def sectorSz : ℕ := if j.sectorSize = 0 then 0x10000 else j.sectorSize

/-- `num_sectors`. -/
def numSectors : ℕ := (j.data.length + j.sectorSz - 1) / j.sectorSz

/-- `sector_data`. -/
def sectorData (s : ℕ) : List UInt8 := (j.data.drop (s * j.sectorSz)).take j.sectorSz

/-- Whether a sector is compared unequal to `ff_sector`. -/
def nonEmpty (s : ℕ) : Bool :=
  j.sectorData s ≠ (List.replicate j.sectorSz 0xFF).take (j.sectorData s).length

/-- One turn of the loop that builds the bitmap. -/
def markSector (bitmap : List UInt8) (s : ℕ) : List UInt8 :=
  if j.nonEmpty s then bitmap.modify (s / 8) (· ||| UInt8.ofNat (2 ^ (s % 8))) else bitmap

/-- `bitmap`. -/
def bitmap : List UInt8 :=
  (List.range j.numSectors).foldl j.markSector (List.replicate ((j.numSectors + 7) / 8) 0)

/-- The `CMD_FLASH_STREAM` packet. -/
def request : Packet :=
  ⟨cmdFlashStream, packU32 j.addr ++ packU32 j.data.length ++
    packU32 (zlibCrc32 j.data).toNat ++ j.bitmap⟩

/-- The data packets of a sector, and whether all of them could be encoded. -/
def sendSector (s : ℕ) : List Packet × Bool :=
  let offset := s * j.sectorSz
  let sectorBytes := min j.sectorSz (j.data.length - offset)
  if bitmapBit j.bitmap s then
    sendData j.data (offset / writeChunkSize) (writeChunks offset sectorBytes)
  else ([], true)

end FlashJob

/-! ### The bitmap -/

lemma length_markSector (j : FlashJob) (bitmap : List UInt8) (s : ℕ) :
    (j.markSector bitmap s).length = bitmap.length := by
  unfold FlashJob.markSector
  split <;> simp

lemma length_foldl_markSector (j : FlashJob) (ss : List ℕ) (bitmap : List UInt8) :
    (ss.foldl j.markSector bitmap).length = bitmap.length := by
  induction ss generalizing bitmap with
  | nil => rfl
  | cons s ss ih => rw [List.foldl_cons, ih, length_markSector]

lemma FlashJob.length_bitmap (j : FlashJob) : j.bitmap.length = (j.numSectors + 7) / 8 := by
  rw [FlashJob.bitmap, length_foldl_markSector, List.length_replicate]

lemma toNat_ofNat_two_pow (i : ℕ) : (UInt8.ofNat (2 ^ (i % 8))).toNat = 2 ^ (i % 8) := by
  have hlt : 2 ^ (i % 8) < 2 ^ 8 := Nat.pow_lt_pow_right (by omega) (by omega)
  rw [UInt8.toNat_ofNat', Nat.mod_eq_of_lt hlt]

lemma bitmapBit_markSector (j : FlashJob) {bitmap : List UInt8} {s : ℕ}
    (hs : s / 8 < bitmap.length) (i : ℕ) :
    bitmapBit (j.markSector bitmap s) i = (bitmapBit bitmap i || (i = s && j.nonEmpty s)) := by
  unfold FlashJob.markSector
  cases j.nonEmpty s with
  | false => simp
  | true =>
      rw [if_pos rfl, bitmapBit, bitmapBit, List.getD_eq_getElem?_getD,
        List.getD_eq_getElem?_getD, List.getElem?_modify]
      by_cases hbyte : s / 8 = i / 8
      · have hi : i / 8 < bitmap.length := by omega
        rw [List.getElem?_eq_getElem hi]
        simp only [hbyte, if_true, Option.map_eq_map, Option.map_some, Option.getD_some,
          UInt8.toNat_or, Nat.testBit_or, toNat_ofNat_two_pow, Nat.testBit_two_pow,
          Bool.and_true]
        congr 2
        simp only [eq_iff_iff]
        omega
      · have hne : i ≠ s := by
          rintro rfl
          exact hbyte rfl
        simp [hbyte, hne]

lemma bitmapBit_foldl_markSector (j : FlashJob) {bitmap : List UInt8} {k : ℕ}
    (hk : k ≤ 8 * bitmap.length) (i : ℕ) :
    bitmapBit ((List.range k).foldl j.markSector bitmap) i =
      (bitmapBit bitmap i || (i < k && j.nonEmpty i)) := by
  induction k with
  | zero => simp
  | succ k ih =>
      rw [List.range_succ, List.foldl_append, List.foldl_cons, List.foldl_nil,
        bitmapBit_markSector j (by rw [length_foldl_markSector]; omega), ih (by omega),
        Bool.or_assoc]
      congr 1
      by_cases hik : i = k
      · subst hik
        simp
      · have hlt : i < k + 1 ↔ i < k := by omega
        simp [hik, hlt]

lemma bitmapBit_replicate (n i : ℕ) : bitmapBit (List.replicate n 0) i = false := by
  rw [bitmapBit, List.getD_eq_getElem?_getD, List.getElem?_replicate]
  split <;> simp

/-- **The bitmap** marks exactly the sectors with data. -/
lemma FlashJob.bitmapBit_bitmap (j : FlashJob) {s : ℕ} (hs : s < j.numSectors) :
    bitmapBit j.bitmap s = j.nonEmpty s := by
  rw [FlashJob.bitmap, bitmapBit_foldl_markSector j (by rw [List.length_replicate]; omega),
    bitmapBit_replicate]
  simp [hs]

/-! ### Which sectors can be sent -/

namespace FlashJob

variable (j : FlashJob)

lemma sectorSz_pos : 0 < j.sectorSz := by
  unfold sectorSz
  split <;> omega

lemma sector_lt {s : ℕ} (hs : s < j.numSectors) : s * j.sectorSz < j.data.length := by
  have h : (s + 1) * j.sectorSz ≤ j.data.length + j.sectorSz - 1 :=
    (Nat.le_div_iff_mul_le j.sectorSz_pos).mp hs
  have hpos := j.sectorSz_pos
  rw [Nat.add_mul, Nat.one_mul] at h
  omega

lemma length_sectorData (s : ℕ) :
    (j.sectorData s).length = min j.sectorSz (j.data.length - s * j.sectorSz) := by
  simp [sectorData]

/-- A sector is empty when its bytes are. -/
lemma nonEmpty_eq_false {s : ℕ} : j.nonEmpty s = false ↔ ∀ x ∈ j.sectorData s, x = 0xFF := by
  have hlen := j.length_sectorData s
  have htake : (List.replicate j.sectorSz (0xFF : UInt8)).take (j.sectorData s).length =
      List.replicate (j.sectorData s).length 0xFF := by
    rw [List.take_replicate, Nat.min_eq_left (by omega)]
  rw [nonEmpty, htake]
  simp [List.eq_replicate_iff]

/-- **The 16-bit sequence number.**  A sector goes through if it is empty or lies in the first
32 MiB, and only then. -/
lemma sendSector_encodes_iff (hchunk : writeChunkSize ∣ j.sectorSz) (hwrap : j.sectorSz ∣ 2 ^ 25)
    {s : ℕ} (hs : s < j.numSectors) :
    (j.sendSector s).2 = true ↔ j.nonEmpty s = false ∨ s * j.sectorSz < 2 ^ 25 := by
  have hlt := j.sector_lt hs
  have hpos := j.sectorSz_pos
  rw [sendSector, j.bitmapBit_bitmap hs]
  cases j.nonEmpty s with
  | false => simp
  | true =>
      have hn : 0 < min j.sectorSz (j.data.length - s * j.sectorSz) := by omega
      have hne : writeChunks (s * j.sectorSz)
          (min j.sectorSz (j.data.length - s * j.sectorSz)) ≠ [] := by
        rw [writeChunks, Cut.pieces_of_pos _ _ hn]
        simp
      simp only [if_true, sendData_snd, hne, false_or, Bool.true_eq_false]
      rw [writeChunks, Cut.length_pieces_upTo]
      obtain ⟨c, hc⟩ := hchunk
      obtain ⟨w, hw⟩ := hwrap
      -- in units of chunks: the sector starts at `s * c`, and `w` sectors make 32 MiB
      have hoff : s * j.sectorSz / writeChunkSize = s * c := by
        rw [hc, Nat.mul_left_comm, Nat.mul_div_cancel_left _ (by decide)]
      have hbelow : s * j.sectorSz < 2 ^ 25 ↔ s < w := by
        rw [hw, Nat.mul_comm]
        exact Nat.mul_lt_mul_left hpos
      have htotal : c * w = 2 ^ 16 := by
        have : writeChunkSize * (c * w) = writeChunkSize * 2 ^ 16 := by
          rw [← Nat.mul_assoc, ← hc, ← hw]
          rfl
        exact Nat.eq_of_mul_eq_mul_left (by decide) this
      have hcount : 0 < (min j.sectorSz (j.data.length - s * j.sectorSz) + writeChunkSize - 1) /
          writeChunkSize :=
        Nat.div_pos (by omega) (by decide)
      have hcount' : (min j.sectorSz (j.data.length - s * j.sectorSz) + writeChunkSize - 1) /
          writeChunkSize ≤ c := by
        refine Nat.lt_succ_iff.mp ((Nat.div_lt_iff_lt_mul (by decide)).mpr ?_)
        rw [Nat.succ_mul, Nat.mul_comm c, ← hc]
        omega
      rw [hoff, hbelow, ← htotal]
      constructor
      · intro h
        by_contra hge
        have : c * w ≤ s * c := by
          rw [Nat.mul_comm s]
          exact Nat.mul_le_mul_left _ (by omega)
        omega
      · intro hsw
        have : (s + 1) * c ≤ c * w := by
          rw [Nat.mul_comm c]
          exact Nat.mul_le_mul_right _ hsw
        rw [Nat.add_mul, Nat.one_mul] at this
        omega

end FlashJob

/-! ## The client -/

/-- Where `write_flash` waits, or how it ended. -/
inductive WritePhase
  | switching (phase : SwitchPhase)
  | awaitAck
  | awaitProgress (s : ℕ)
  | awaitFinal
  | returned (ok : Bool)
  | raised
  deriving DecidableEq, Repr

/-- `write_flash` from where the rate is settled. -/
def FlashJob.announce (j : FlashJob) : WritePhase × List Packet :=
  if j.addr < 2 ^ 32 ∧ j.data.length < 2 ^ 32 then (.awaitAck, [j.request]) else (.raised, [])

/-- `write_flash` in or after `_switch_baud`. -/
def FlashJob.afterSwitch (j : FlashJob) (r : SwitchPhase × List Packet) :
    WritePhase × List Packet :=
  match r.1 with
  | .over => (j.announce.1, r.2 ++ j.announce.2)
  | .raised => (.raised, r.2)
  | phase => (.switching phase, r.2)

/-- The head of a turn of the loop over sectors. -/
def FlashJob.turn (j : FlashJob) (s : ℕ) : WritePhase × List Packet :=
  if s < j.numSectors then
    let r := j.sendSector s
    (if r.2 then .awaitProgress s else .raised, r.1)
  else (.awaitFinal, [])

/-- `data_pkt[0] == ACK_OK`, which raises on an empty packet. -/
def ackResult : List UInt8 → WritePhase
  | [] => .raised
  | status :: _ => .returned (status = ackOk)

/-- `write_flash` at one of its waits, with the packet it receives. -/
def writeFlashRecv (j : FlashJob) : WritePhase → Packet → WritePhase × List Packet
  | .switching phase, p => j.afterSwitch (switchRecv j.client phase p)
  | .awaitAck, p =>
      if p.cmd = rspReady then (.awaitAck, [])
      else if p.cmd ≠ rspAck then (.returned false, [])
      else if ackResult p.data = .returned true then j.turn 0
      else (ackResult p.data, [])
  | .awaitProgress s, p =>
      if p.cmd = rspReady then (.awaitProgress s, [])
      else if p.cmd = rspData then
        if p.data.length < 4 then (.raised, []) else j.turn (s + 1)
      else if p.cmd = rspAck then (ackResult p.data, [])
      else (.returned false, [])
  | .awaitFinal, p =>
      if p.cmd = rspReady then (.awaitFinal, [])
      else if p.cmd = rspAck then (ackResult p.data, [])
      else if p.cmd = rspData then (.awaitFinal, [])
      else (.returned false, [])
  | .returned ok, _ => (.returned ok, [])
  | .raised, _ => (.raised, [])

/-- A running `write_flash`, with the packets it has sent so far. -/
structure WriteHost where
  phase : WritePhase
  sent : List Packet

/-- `write_flash` up to its first wait. -/
def WriteHost.start (j : FlashJob) : WriteHost :=
  if j.client.switches j.data.length then
    ⟨.switching .awaitAck, [setBaudPacket defaultFastBaud]⟩
  else ⟨j.announce.1, j.announce.2⟩

/-- One packet received, with what goes out. -/
def WriteHost.recv (j : FlashJob) (h : WriteHost) (p : Packet) : WriteHost × List Packet :=
  let r := writeFlashRecv j h.phase p
  (⟨r.1, h.sent ++ r.2⟩, r.2)

end Defib
