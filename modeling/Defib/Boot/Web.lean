import Mathlib.Data.Nat.Bitwise
import Defib.Boot.Senders

/-!
# The browser's senders

The frame builders of `web/protocol.js` and the senders of `web/index.html`.  JavaScript's bit
operators work on signed integers of 32 bits, here `BitVec 32`, so that its CRC accumulator wraps
where Python's grows, and the length of a transfer may be a negative number by the time its bytes
are taken.  `CRC_TABLE` has the same entries as in `protocol/crc.py`.

The builders make the frames of `protocol/frames.py` (`buildHeadFrame_eq`, `buildDataFrame_eq`,
`buildTailFrame_eq`), and the senders go through the frames of their transfers
(`sendDataToBootrom_eq`, `standardSendFirmware_eq`).  What the page shows and logs is left out.
-/

namespace Defib
namespace Web

/-! ## Numbers -/

/-- A number as the bit operators take it. -/
def toInt32 (n : ℕ) : BitVec 32 := BitVec.ofNat 32 n

/-- What a `Uint8Array` keeps of a number. -/
def toUint8 (x : BitVec 32) : UInt8 := UInt8.ofNat x.toNat

/-- `(x >> k) & 0xff`. -/
def byteAt (x : BitVec 32) (k : ℕ) : BitVec 32 := x.sshiftRight k &&& 0xFF

/-! ## Frames -/

/-- The loop body of `calcCrc`. -/
def crcStep (crc : BitVec 32) (b : UInt8) : BitVec 32 :=
  ((crc <<< 8) ||| toInt32 b.toNat) ^^^ toInt32 (crcTable.getD (byteAt crc 8).toNat 0)

def calcCrc (data : List UInt8) : BitVec 32 :=
  [0, 0].foldl crcStep (data.foldl crcStep 0) &&& 0xFFFF

def appendCrc (data : List UInt8) : List UInt8 :=
  let crc := calcCrc data
  data ++ [toUint8 (byteAt crc 8), toUint8 (crc &&& 0xFF)]

/-- The four bytes of a field of a HEAD frame. -/
def field (n : ℕ) : List UInt8 :=
  [toUint8 (byteAt (toInt32 n) 24), toUint8 (byteAt (toInt32 n) 16), toUint8 (byteAt (toInt32 n) 8),
    toUint8 (toInt32 n &&& 0xFF)]

def buildHeadFrame (length address : ℕ) : List UInt8 :=
  appendCrc ([0xFE, 0x00, 0xFF, 0x01] ++ field length ++ field address)

def buildDataFrame (seq : ℕ) (payload : List UInt8) : List UInt8 :=
  appendCrc ([0xDA, toUint8 (toInt32 seq &&& 0xFF), toUint8 (~~~toInt32 seq &&& 0xFF)] ++ payload)

def buildTailFrame (seq : ℕ) : List UInt8 :=
  appendCrc [0xED, toUint8 (toInt32 seq &&& 0xFF), toUint8 (~~~toInt32 seq &&& 0xFF)]

/-- `data.slice(start, end)`. -/
def slice (data : List UInt8) (start stop : ℕ) : List UInt8 := (data.drop start).take (stop - start)

/-- `chunkData`, whose loop visits the multiples of `size`. -/
def chunkData (data : List UInt8) (size : ℕ) : List (List UInt8) :=
  (List.range ((data.length + size - 1) / size)).map fun k =>
    slice data (k * size) (min (k * size + size) data.length)

/-! ## Senders -/

def sendFrmWaitAck : List UInt8 → Host Bool := frameWaitAck 10

def sendDataToBootrom (data : List UInt8) (address : ℕ) : Host Bool := do
  let headAcked ← sendFrmWaitAck
    (appendCrc ([0xFE, 0x00, 0xFF, 0x01] ++ field data.length ++ field address))
  if headAcked then
    let dataAcked ← sendRemaining
      (fun idx chunk => sendFrmWaitAck (appendCrc
        ([0xDA, toUint8 (toInt32 idx &&& 0xFF), toUint8 (~~~toInt32 idx &&& 0xFF)] ++ chunk)))
      data 0 0 data.length
    if dataAcked then
      -- `Math.ceil(data.length / 1024) + 1`: the quotient is exact
      let count := (data.length + 1023) / 1024 + 1
      sendFrmWaitAck (appendCrc
        [0xED, toUint8 (toInt32 count &&& 0xFF), toUint8 (~~~toInt32 count &&& 0xFF)])
    else pure false
  else pure false

/-- The read of one attempt of `sendFrameWithRetry`. -/
def pollAck : Host Bool
  | [] => ⟨.ok false, [], [.read .expired]⟩
  | r :: rest => ⟨.ok (r = .item ackByte), rest, [.read r]⟩

/-- `sendFrameWithRetry`: unlike Python's, an attempt ends with the first byte it reads. -/
def sendFrameWithRetry (data : List UInt8) : ℕ → Host Bool
  | 0 => pure false
  | retries + 1 => do
      Scripted.flush
      Scripted.write data
      let acked ← pollAck
      if acked then pure true else sendFrameWithRetry data retries

/-- The loops over the chunks in `standardSendFirmware`. -/
def sendChunks : ℕ → List (List UInt8) → Host Bool
  | _, [] => pure true
  | i, chunk :: chunks => do
      let acked ← sendFrameWithRetry (buildDataFrame (i + 1) chunk) 32
      if acked then sendChunks (i + 1) chunks else pure false

/-- The DDR step of `standardSendFirmware`. -/
def sendDdrStep (profile : SoCProfile) : Host Bool := do
  let headAcked ← sendFrameWithRetry (buildHeadFrame 64 profile.ddrStepAddress) 16
  if headAcked then
    let dataAcked ← sendFrameWithRetry (buildDataFrame 1 profile.ddrStepData) 32
    if dataAcked then sendFrameWithRetry (buildTailFrame 2) 16 else pure false
  else pure false

/-- The SPL and the U-Boot of `standardSendFirmware`. -/
def sendImage (length address : ℕ) (data : List UInt8) : Host Bool := do
  let headAcked ← sendFrameWithRetry (buildHeadFrame length address) 16
  if headAcked then
    let chunks := chunkData data 1024
    let dataAcked ← sendChunks 0 chunks
    if dataAcked then sendFrameWithRetry (buildTailFrame (chunks.length + 1)) 16 else pure false
  else pure false

def standardSendFirmware (firmware : List UInt8) (profile : SoCProfile) : Host Bool := do
  let ddrSent ← sendDdrStep profile
  if ddrSent then
    let splSent ← sendImage profile.splMaxSize profile.splAddress
      (slice firmware 0 profile.splMaxSize)
    if splSent then sendImage firmware.length profile.ubootAddress firmware else pure false
  else pure false

/-! ## They are the frames of `frames.py` -/

/-- The byte at a position, whatever the sign. -/
lemma byteAt_toInt32 (n : ℕ) {k : ℕ} (hk : k ≤ 24) :
    byteAt (toInt32 n) k = toInt32 ((n >>> k) &&& 0xFF) := by
  apply BitVec.eq_of_getLsbD_eq
  intro i hi
  have hmask : (0xFF : BitVec 32) = BitVec.ofNat 32 (2 ^ 8 - 1) := rfl
  have hmask' : (0xFF : ℕ) = 2 ^ 8 - 1 := rfl
  rw [byteAt, toInt32, toInt32, hmask, hmask', BitVec.getLsbD_and, BitVec.getLsbD_sshiftRight]
  simp only [BitVec.getLsbD_ofNat, Nat.testBit_and, Nat.testBit_shiftRight,
    Nat.testBit_two_pow_sub_one, hi, decide_true, Bool.true_and]
  by_cases hlow : i < 8
  · have hin : k + i < 32 := by omega
    simp only [hlow, hin, decide_true, Bool.and_true, if_true, Bool.true_and]
    simp
    omega
  · simp [hlow]

lemma toUint8_toInt32 (n : ℕ) : toUint8 (toInt32 n) = UInt8.ofNat n := by
  apply UInt8.toNat_inj.mp
  rw [toUint8, toInt32, BitVec.toNat_ofNat, UInt8.toNat_ofNat', UInt8.toNat_ofNat']
  omega

/-- Masking a byte changes nothing of what is kept of it. -/
lemma ofNat_and_255 (n : ℕ) : UInt8.ofNat (n &&& 0xFF) = UInt8.ofNat n := by
  apply UInt8.toNat_inj.mp
  rw [UInt8.toNat_ofNat', UInt8.toNat_ofNat', Nat.and_two_pow_sub_one_eq_mod n 8]
  omega

lemma toInt32_and_255 (n : ℕ) : toInt32 n &&& 0xFF = toInt32 (n &&& 0xFF) :=
  BitVec.ofNat_and.symm

lemma toUint8_byteAt (n : ℕ) {k : ℕ} (hk : k ≤ 24) :
    toUint8 (byteAt (toInt32 n) k) = UInt8.ofNat (n >>> k) := by
  rw [byteAt_toInt32 n hk, toUint8_toInt32, ofNat_and_255]

lemma toUint8_and_255 (n : ℕ) : toUint8 (toInt32 n &&& 0xFF) = UInt8.ofNat n := by
  rw [toInt32_and_255, toUint8_toInt32, ofNat_and_255]

lemma toUint8_not_and_255 (n : ℕ) : toUint8 (~~~toInt32 n &&& 0xFF) = ~~~UInt8.ofNat n := by
  apply UInt8.toNat_inj.mp
  have hmask : (0xFF : BitVec 32).toNat = 2 ^ 8 - 1 := rfl
  rw [toUint8, toInt32, BitVec.toNat_and, hmask, Nat.and_two_pow_sub_one_eq_mod, BitVec.toNat_not,
    BitVec.toNat_ofNat, UInt8.toNat_ofNat', UInt8.toNat_not, UInt8.toNat_ofNat', UInt8.size]
  omega

/-- **The accumulator is Python's, cut to 32 bits.** -/
lemma crcStep_toInt32 (crc : ℕ) (b : UInt8) :
    crcStep (toInt32 crc) b = toInt32 (Defib.crcStep crc b) := by
  have hindex : (byteAt (toInt32 crc) 8).toNat = (crc >>> 8) &&& 0xFF := by
    rw [byteAt_toInt32 crc (by omega), toInt32, BitVec.toNat_ofNat, Nat.mod_eq_of_lt]
    exact Nat.lt_of_le_of_lt Nat.and_le_right (by omega)
  have hshift : toInt32 crc <<< 8 = toInt32 (crc <<< 8) := by
    apply BitVec.eq_of_toNat_eq
    rw [BitVec.toNat_shiftLeft, toInt32, toInt32, BitVec.toNat_ofNat, BitVec.toNat_ofNat,
      Nat.shiftLeft_eq, Nat.shiftLeft_eq]
    omega
  rw [crcStep, Defib.crcStep, hindex, hshift]
  simp only [toInt32, BitVec.ofNat_xor, BitVec.ofNat_or]

lemma foldl_crcStep (data : List UInt8) (crc : ℕ) :
    data.foldl crcStep (toInt32 crc) = toInt32 (data.foldl Defib.crcStep crc) := by
  induction data generalizing crc with
  | nil => rfl
  | cons b data ih => rw [List.foldl_cons, List.foldl_cons, crcStep_toInt32, ih]

lemma calcCrc_eq (data : List UInt8) : calcCrc data = toInt32 (Defib.calcCrc data) := by
  have hzero : (0 : BitVec 32) = toInt32 0 := rfl
  have hmask : (0xFFFF : BitVec 32) = toInt32 0xFFFF := rfl
  rw [calcCrc, Defib.calcCrc, hzero, hmask, foldl_crcStep, foldl_crcStep]
  exact BitVec.ofNat_and.symm

lemma appendCrc_eq (data : List UInt8) : appendCrc data = Defib.appendCrc data := by
  rw [appendCrc, Defib.appendCrc, calcCrc_eq]
  simp only [toUint8_byteAt _ (by omega : 8 ≤ 24), toUint8_and_255]

lemma field_eq (n : ℕ) : field n = packBe32 n := by
  simp only [field, packBe32, toUint8_byteAt n (le_refl 24), toUint8_byteAt n (by omega : 16 ≤ 24),
    toUint8_byteAt n (by omega : 8 ≤ 24), toUint8_and_255, Nat.shiftRight_eq_div_pow]

lemma buildHeadFrame_eq (length address : ℕ) :
    buildHeadFrame length address = headBytes length address := by
  rw [buildHeadFrame, headBytes, appendCrc_eq, field_eq, field_eq]
  rfl

lemma buildDataFrame_eq (seq : ℕ) (payload : List UInt8) :
    buildDataFrame seq payload = dataFrame seq payload := by
  rw [buildDataFrame, dataFrame, appendCrc_eq, toUint8_and_255, toUint8_not_and_255]
  rfl

lemma buildTailFrame_eq (seq : ℕ) : buildTailFrame seq = tailFrame seq := by
  rw [buildTailFrame, tailFrame, appendCrc_eq, toUint8_and_255, toUint8_not_and_255]
  rfl

lemma chunkData_eq (data : List UInt8) (size : ℕ) :
    chunkData data size = Defib.chunkData data size := by
  refine List.map_congr_left fun k _ => ?_
  rw [slice, List.take_eq_take_iff, List.length_drop]
  omega

/-! ## They send the frames of a transfer -/

lemma sendDataToBootrom_eq (data : List UInt8) (address : ℕ) :
    sendDataToBootrom data address = sendAll sendFrmWaitAck
      (transferFrames data.length address (Defib.chunkData data maxDataLen)) := by
  have hdata := sendRemaining_eq buildDataFrame sendFrmWaitAck buildDataFrame_eq data 0 0
    data.length (by omega)
  have hcount : (data.length + 1023) / 1024 = (Defib.chunkData data maxDataLen).length := by
    rw [length_chunkData, maxDataLen]
    congr 1
  change (do
    let headAcked ← sendFrmWaitAck (buildHeadFrame data.length address)
    if headAcked then
      let dataAcked ← sendRemaining (fun idx chunk => sendFrmWaitAck (buildDataFrame idx chunk))
        data 0 0 data.length
      if dataAcked then
        sendFrmWaitAck (buildTailFrame ((data.length + 1023) / 1024 + 1))
      else pure false
    else pure false) = _
  rw [hdata, hcount, buildHeadFrame_eq, buildTailFrame_eq, transferFrames, sendAll, sendAll_append,
    sendAll_singleton]
  rfl

/-- A frame with the number of attempts. -/
abbrev Attempts : Type := List UInt8 × ℕ

def attempt (k : Attempts) : Host Bool := sendFrameWithRetry k.1 k.2

lemma attempt_sends {k : Attempts} (hpos : 0 < k.2) : Sends [.flush] k.1 (attempt k) := by
  obtain ⟨frame, retries⟩ := k
  obtain ⟨n, rfl⟩ : ∃ n, retries = n + 1 := ⟨retries - 1, by simp only at hpos; omega⟩
  refine ⟨fun tail => ?_, fun script => ?_⟩
  · rw [attempt, sendFrameWithRetry, Scripted.flush_bind_apply, Scripted.write_bind_apply]
    rfl
  · rw [attempt, sendFrameWithRetry, Scripted.flush_bind_apply, Scripted.write_bind_apply]
    cases script with
    | nil => exact ⟨_, rfl⟩
    | cons r rest => exact ⟨_, rfl⟩

/-- The attempts at the frames of a transfer. -/
def transferAttempts (length address : ℕ) (chunks : List (List UInt8)) : List Attempts :=
  (headBytes length address, 16) ::
    ((dataFrames 1 chunks).map (·, 32) ++ [(tailFrame (chunks.length + 1), 16)])

lemma sendChunks_eq (i : ℕ) (chunks : List (List UInt8)) :
    sendChunks i chunks = sendAll attempt ((dataFrames (i + 1) chunks).map (·, 32)) := by
  induction chunks generalizing i with
  | nil => rfl
  | cons c cs ih =>
      rw [sendChunks, dataFrames, List.map_cons, sendAll, ih, buildDataFrame_eq]
      rfl

lemma sendAll_transferAttempts (length address : ℕ) (chunks : List (List UInt8)) :
    sendAll attempt (transferAttempts length address chunks) = (do
      let headAcked ← sendFrameWithRetry (buildHeadFrame length address) 16
      if headAcked then
        let dataAcked ← sendChunks 0 chunks
        if dataAcked then sendFrameWithRetry (buildTailFrame (chunks.length + 1)) 16
        else pure false
      else pure false) := by
  rw [transferAttempts, sendAll, sendAll_append, sendAll_singleton, sendChunks_eq,
    buildHeadFrame_eq, buildTailFrame_eq]
  rfl

/-- The attempts of an upload. -/
def uploadAttempts (firmware : List UInt8) (profile : SoCProfile) : List Attempts :=
  transferAttempts 64 profile.ddrStepAddress [profile.ddrStepData] ++
    (transferAttempts profile.splMaxSize profile.splAddress
        (Defib.chunkData (firmware.take profile.splMaxSize) maxDataLen) ++
      transferAttempts firmware.length profile.ubootAddress
        (Defib.chunkData firmware maxDataLen))

lemma standardSendFirmware_eq (firmware : List UInt8) (profile : SoCProfile) :
    standardSendFirmware firmware profile =
      sendAll attempt (uploadAttempts firmware profile) := by
  have himage : ∀ length address data, sendImage length address data =
      sendAll attempt (transferAttempts length address (Defib.chunkData data maxDataLen)) := by
    intro length address data
    rw [sendImage, sendAll_transferAttempts, chunkData_eq]
    rfl
  have hddr : sendDdrStep profile = sendAll attempt
      (transferAttempts 64 profile.ddrStepAddress [profile.ddrStepData]) := by
    have hone : sendChunks 0 [profile.ddrStepData] =
        sendFrameWithRetry (buildDataFrame 1 profile.ddrStepData) 32 := by
      rw [sendChunks_eq, buildDataFrame_eq]
      exact sendAll_singleton (dataFrame 1 profile.ddrStepData, 32)
    rw [sendAll_transferAttempts, hone]
    rfl
  have hslice : slice firmware 0 profile.splMaxSize = firmware.take profile.splMaxSize := rfl
  rw [standardSendFirmware, hddr, himage, himage, hslice, uploadAttempts, sendAll_append,
    sendAll_append]

end Web
end Defib
