import Defib.Wire.Cobs
import Defib.Wire.Crc32
import Mathlib.Data.List.TakeDrop

/-!
# Packets

The packet format shared by the host (`src/defib/agent/protocol.py`) and the device
(`agent/protocol.c`): a command byte, data, and the little-endian CRC-32 of both, COBS-encoded
and closed by a zero byte.

`parsePacket_buildPacket` is the host's round trip, and `protoSend_eq_buildPacket` says that
the device's transmitter puts the very same bytes on the line.
-/

namespace Defib

/-! ## Little-endian integers -/

/-- The little-endian bytes of the low 16 bits. -/
def packU16 (n : ℕ) : List UInt8 := [UInt8.ofNat n, UInt8.ofNat (n / 256)]

/-- The little-endian bytes of the low 32 bits: `struct.pack("<I", n)`, `write_le32`. -/
def packU32 (n : ℕ) : List UInt8 :=
  [UInt8.ofNat n, UInt8.ofNat (n / 2 ^ 8), UInt8.ofNat (n / 2 ^ 16), UInt8.ofNat (n / 2 ^ 24)]

/-- `read_le32`: the little-endian integer in the first four bytes. -/
def readLe32 (p : List UInt8) : ℕ :=
  (p.getD 0 0).toNat + (p.getD 1 0).toNat * 2 ^ 8 + (p.getD 2 0).toNat * 2 ^ 16 +
    (p.getD 3 0).toNat * 2 ^ 24

@[simp] lemma length_packU16 (n : ℕ) : (packU16 n).length = 2 := rfl

@[simp] lemma length_packU32 (n : ℕ) : (packU32 n).length = 4 := rfl

lemma readLe32_packU32_append (n : ℕ) (rest : List UInt8) :
    readLe32 (packU32 n ++ rest) = n % 2 ^ 32 := by
  simp only [readLe32, packU32, List.cons_append, List.getD_cons_zero, List.getD_cons_succ,
    UInt8.toNat_ofNat']
  omega

lemma readLe32_packU32 (n : ℕ) : readLe32 (packU32 n) = n % 2 ^ 32 := by
  have h := readLe32_packU32_append n []
  rwa [List.append_nil] at h

lemma getD_take_of_lt {n i : ℕ} (h : i < n) (p : List UInt8) :
    (p.take n).getD i 0 = p.getD i 0 := by
  rw [List.getD_eq_getElem?_getD, List.getD_eq_getElem?_getD, List.getElem?_take_of_lt h]

lemma readLe32_take {n : ℕ} (h : 4 ≤ n) (p : List UInt8) : readLe32 (p.take n) = readLe32 p := by
  simp only [readLe32]
  rw [getD_take_of_lt (by omega), getD_take_of_lt (by omega), getD_take_of_lt (by omega),
    getD_take_of_lt (by omega)]

lemma readLe32_lt (p : List UInt8) : readLe32 p < 2 ^ 32 := by
  have h : ∀ i, (p.getD i 0).toNat < 256 := fun i => UInt8.toNat_lt _
  have h0 := h 0
  have h1 := h 1
  have h2 := h 2
  have h3 := h 3
  unfold readLe32
  omega

/-! ## Commands and replies -/

/-- `CMD_WRITE`. -/
def cmdWrite : UInt8 := 0x03
/-- `CMD_FLASH_STREAM`. -/
def cmdFlashStream : UInt8 := 0x0B

/-- `RSP_DATA`. -/
def rspData : UInt8 := 0x82
/-- `RSP_ACK`. -/
def rspAck : UInt8 := 0x83
/-- `RSP_CRC32`. -/
def rspCrc32 : UInt8 := 0x84
/-- `RSP_READY`. -/
def rspReady : UInt8 := 0x85

/-- `ACK_OK`. -/
def ackOk : UInt8 := 0x00
/-- `ACK_CRC_ERROR`. -/
def ackCrcError : UInt8 := 0x01
/-- `ACK_FLASH_ERROR`. -/
def ackFlashError : UInt8 := 0x02

/-- `MAX_PAYLOAD` of `agent/protocol.h`. -/
def maxPayload : ℕ := 1024

/-- `MAX_PACKET_SIZE` of `protocol.py`. -/
def maxPacketSize : ℕ := 1100

/-- A packet: the command byte and its data. -/
structure Packet where
  cmd : UInt8
  data : List UInt8
  deriving DecidableEq, Repr

/-- `proto_send_ack`. -/
def ackPacket (status : UInt8) : Packet := ⟨rspAck, [status]⟩

/-- `proto_send_ready`. -/
def readyPacket : Packet := ⟨rspReady, [0x44, 0x45, 0x46, 0x49, 0x42]⟩

/-! ## The host side -/

/-- `build_packet`. -/
def buildPacket (cmd : UInt8) (data : List UInt8) : List UInt8 :=
  let raw := [cmd] ++ data
  let crc := packU32 (zlibCrc32 raw).toNat
  Cobs.encode (raw ++ crc) ++ [0x00]

/-- Python's `#x` format. -/
def hexString (n : ℕ) : String := "0x" ++ String.ofList (Nat.toDigits 16 n)

/-- `parse_packet`. -/
def parsePacket (raw : List UInt8) : Except String (UInt8 × List UInt8) :=
  match Cobs.decode raw with
  | .error e => .error e
  | .ok decoded =>
      if decoded.length < 5 then .error "Packet too short"
      else
        let payload := decoded.take (decoded.length - 4)
        let expectedCrc := readLe32 (decoded.drop (decoded.length - 4))
        let actualCrc := (zlibCrc32 payload).toNat
        if actualCrc ≠ expectedCrc then
          .error ("CRC mismatch: " ++ hexString actualCrc ++ " != " ++ hexString expectedCrc)
        else .ok (payload.getD 0 0, payload.drop 1)

/-- A frame as it arrives at `parse_packet`: the packet without its delimiter. -/
def frameOf (cmd : UInt8) (data : List UInt8) : List UInt8 :=
  Cobs.encode (cmd :: data ++ packU32 (zlibCrc32 (cmd :: data)).toNat)

lemma buildPacket_eq (cmd : UInt8) (data : List UInt8) :
    buildPacket cmd data = frameOf cmd data ++ [0x00] := rfl

lemma zero_notMem_frameOf (cmd : UInt8) (data : List UInt8) : (0 : UInt8) ∉ frameOf cmd data :=
  Cobs.zero_notMem_encode _

lemma parsePacket_frameOf (cmd : UInt8) (data : List UInt8) :
    parsePacket (frameOf cmd data) = .ok (cmd, data) := by
  have hlt : (zlibCrc32 (cmd :: data)).toNat < 2 ^ 32 := BitVec.isLt _
  have hlen : (cmd :: data ++ packU32 (zlibCrc32 (cmd :: data)).toNat).length - 4 =
      (cmd :: data).length := by simp
  have hshort : ¬ (cmd :: data ++ packU32 (zlibCrc32 (cmd :: data)).toNat).length < 5 := by simp
  simp only [parsePacket, frameOf, Cobs.decode_encode, hshort, if_false, hlen, List.take_left,
    List.drop_left, readLe32_packU32, Nat.mod_eq_of_lt hlt, ne_eq, not_true_eq_false,
    List.getD_cons_zero, List.drop_succ_cons, List.drop_zero]

/-- **Packet round trip.**  Cutting off the delimiter and parsing gives the packet back. -/
lemma parsePacket_buildPacket (cmd : UInt8) (data : List UInt8) :
    parsePacket (buildPacket cmd data).dropLast = .ok (cmd, data) := by
  rw [buildPacket_eq, List.dropLast_concat]
  exact parsePacket_frameOf cmd data

/-- A parsed packet is no longer than the frame it came in. -/
lemma length_le_of_parsePacket {raw : List UInt8} {cmd : UInt8} {data : List UInt8}
    (h : parsePacket raw = .ok (cmd, data)) : data.length ≤ raw.length := by
  unfold parsePacket at h
  cases hdec : Cobs.decode raw with
  | error e => simp [hdec] at h
  | ok decoded =>
      have hlen := Cobs.length_le_of_decode hdec
      simp only [hdec] at h
      split_ifs at h
      simp only [Except.ok.injEq, Prod.mk.injEq] at h
      rw [← h.2, List.length_drop, List.length_take]
      omega

/-! ## The device side -/

/-- `proto_send`: the bytes put on the line.  `txCobs` is what the transmit buffer held. -/
def protoSend (cmd : UInt8) (data : List UInt8) (txCobs : Store UInt8) : List UInt8 :=
  let txRaw := cmd :: data
  let crc := crc32 0 txRaw
  let txRaw := txRaw ++ packU32 crc.toNat
  let out := Cobs.cobsEncode txRaw txCobs
  out.output.load 0 out.outIdx ++ [0x00]

/-- The device transmits exactly what the host would build. -/
lemma protoSend_eq_buildPacket (cmd : UInt8) (data : List UInt8) (txCobs : Store UInt8) :
    protoSend cmd data txCobs = buildPacket cmd data := by
  simp only [protoSend, Cobs.cobsEncode_spec, crc32_zero, buildPacket_eq, frameOf]

end Defib
