import Defib.Boot.Web
import Defib.Framework.BitPolynomial
import Defib.Rockusb.Codec

/-!
# Three CRC-16s

`calc_crc` keeps an accumulator that only grows and feeds two zero bytes behind the data, `calcCrc`
of `web/protocol.js` does so in 32 bits, and `rk_crc16` cuts its register to 16 bits and takes each
byte at the top.  `crc_is_remainder` says that they are one number, the remainder of the data
followed by 16 zero bits, and what follows for frames: the remainder of a frame is zero, and that of
a frame with one bit flipped is not.

The table is what eight steps of the division make of a byte (`bitPoly_crcTable`), which turns one
step of either loop into an equation of remainders.
-/

namespace Defib

open Polynomial

/-- `x^16 + x^12 + x^5 + 1`. -/
def ccitt : Generator := ⟨16, 0x11021, by decide, by decide, by decide⟩

lemma ccitt_poly : ccitt.poly = X ^ 16 + X ^ 12 + X ^ 5 + 1 := by
  have hbits : ccitt.bits = 2 ^ 16 ^^^ 2 ^ 12 ^^^ 2 ^ 5 ^^^ 1 := by decide
  rw [Generator.poly, hbits, bitPoly_xor, bitPoly_xor, bitPoly_xor, bitPoly_two_pow,
    bitPoly_two_pow, bitPoly_two_pow, bitPoly_one]

/-! ## The table -/

/-- The table is what the division makes of a byte in front of 16 zeros. -/
lemma crcTable_eq_remainder : ∀ h < 256,
    crcTable.getD h 0 = ccitt.remainder (byteBits (UInt8.ofNat h) ++ List.replicate 16 false) := by
  decide +kernel

lemma crcTable_lt : ∀ h < 256, crcTable.getD h 0 < 2 ^ 16 := by
  intro h hlt
  rw [crcTable_eq_remainder h hlt]
  exact ccitt.remainder_lt _

lemma bitPoly_crcTable {h : ℕ} (hlt : h < 256) :
    bitPoly (crcTable.getD h 0) = (bitPoly h * X ^ 16) %ₘ ccitt.poly := by
  rw [crcTable_eq_remainder h hlt, Generator.bitPoly_remainder, ofBits_append,
    ofBits_replicate_false, add_zero, List.length_replicate, ofBits_byteBits, bitPoly_two_pow_mul,
    UInt8.toNat_ofNat', Nat.mod_eq_of_lt hlt]

/-! ## One byte -/

/-- A register of 16 bits shifted by a byte: its high byte leaves through the table. -/
lemma bitPoly_shifted {r top low : ℕ} (hr : r < 2 ^ 16) (htop : top < 2 ^ 8) (hlow : low < 2 ^ 8) :
    bitPoly ((2 ^ 8 * (r % 2 ^ 8) + low) ^^^ crcTable.getD (r / 2 ^ 8 ^^^ top) 0) =
      (bitPoly r * X ^ 8 + bitPoly low + bitPoly top * X ^ 16) %ₘ ccitt.poly := by
  have hhigh : r / 2 ^ 8 ^^^ top < 2 ^ 8 := Nat.xor_lt_two_pow (by omega) htop
  have hkept : 2 ^ 8 * (r % 2 ^ 8) + low < 2 ^ 16 := by omega
  have hsplit : bitPoly r = bitPoly (r / 2 ^ 8) * X ^ 8 + bitPoly (r % 2 ^ 8) := by
    rw [← bitPoly_concat _ (Nat.mod_lt r (by decide)), Nat.div_add_mod]
  calc bitPoly ((2 ^ 8 * (r % 2 ^ 8) + low) ^^^ crcTable.getD (r / 2 ^ 8 ^^^ top) 0)
      = bitPoly (2 ^ 8 * (r % 2 ^ 8) + low) %ₘ ccitt.poly +
          (bitPoly (r / 2 ^ 8 ^^^ top) * X ^ 16) %ₘ ccitt.poly := by
        rw [bitPoly_xor, bitPoly_crcTable hhigh, ccitt.bitPoly_modByMonic hkept]
    _ = (bitPoly r * X ^ 8 + bitPoly low + bitPoly top * X ^ 16) %ₘ ccitt.poly := by
        rw [← add_modByMonic, bitPoly_concat _ hlow, bitPoly_xor, hsplit]
        exact congrArg (· %ₘ ccitt.poly) (by ring)

/-- The low 16 bits of the accumulator of `calc_crc`. -/
lemma crcStep_mod (crc : ℕ) (b : UInt8) :
    crcStep crc b % 2 ^ 16 = (2 ^ 8 * (crc % 2 ^ 16 % 2 ^ 8) + b.toNat) ^^^
      crcTable.getD (crc % 2 ^ 16 / 2 ^ 8 ^^^ 0) 0 := by
  have hb := b.toNat_lt
  have hindex : (crc >>> 8) &&& 0xFF = crc % 2 ^ 16 / 2 ^ 8 := by
    rw [Nat.and_two_pow_sub_one_eq_mod _ 8, Nat.shiftRight_eq_div_pow]
    omega
  have hkept : ((crc <<< 8) ||| b.toNat) % 2 ^ 16 =
      2 ^ 8 * (crc % 2 ^ 16 % 2 ^ 8) + b.toNat := by
    rw [← Nat.shiftLeft_add_eq_or_of_lt hb, Nat.shiftLeft_eq]
    omega
  rw [crcStep, hindex, Nat.xor_zero, Nat.xor_mod_two_pow, hkept,
    Nat.mod_eq_of_lt (crcTable_lt _ (by omega))]

/-- **One byte of `calc_crc`**: the accumulator so far, then the byte. -/
lemma bitPoly_crcStep (crc : ℕ) (b : UInt8) :
    bitPoly (crcStep crc b % 2 ^ 16) =
      (bitPoly (crc % 2 ^ 16) * X ^ 8 + bitPoly b.toNat) %ₘ ccitt.poly := by
  have hreg : crc % 2 ^ 16 < 2 ^ 16 := Nat.mod_lt _ (Nat.two_pow_pos 16)
  rw [crcStep_mod, bitPoly_shifted hreg (by decide) b.toNat_lt, bitPoly_zero, zero_mul, add_zero]

/-- **One byte of `rk_crc16`**, whose register takes it at the top. -/
lemma bitPoly_rkCrcStep {crc : ℕ} (hcrc : crc < 2 ^ 16) (b : UInt8) :
    bitPoly (Rockusb.rkCrcStep crc b) =
      (bitPoly crc * X ^ 8 + bitPoly b.toNat * X ^ 16) %ₘ ccitt.poly := by
  have hb := b.toNat_lt
  have hhigh : crc / 2 ^ 8 ^^^ b.toNat < 2 ^ 8 := Nat.xor_lt_two_pow (by omega) hb
  have hindex : ((crc >>> 8) ^^^ b.toNat) &&& 0xFF = crc / 2 ^ 8 ^^^ b.toNat := by
    rw [Nat.and_two_pow_sub_one_eq_mod _ 8, Nat.shiftRight_eq_div_pow, Nat.mod_eq_of_lt hhigh]
  have hkept : (crc <<< 8) &&& 0xFFFF = 2 ^ 8 * (crc % 2 ^ 8) + 0 := by
    rw [Nat.and_two_pow_sub_one_eq_mod _ 16, Nat.shiftLeft_eq]
    omega
  rw [Rockusb.rkCrcStep, hindex, hkept, bitPoly_shifted hcrc hb (by decide), bitPoly_zero, add_zero]

/-! ## A byte string -/

/-- What is fed after a remainder may as well be fed after the number itself. -/
lemma bitPoly_foldl_crcStep (data : List UInt8) :
    bitPoly (data.foldl crcStep 0 % 2 ^ 16) = bitPoly (message data) %ₘ ccitt.poly := by
  induction data using List.reverseRecOn with
  | nil => simp [message]
  | append_singleton data b ih =>
      rw [List.foldl_append, List.foldl_cons, List.foldl_nil, bitPoly_crcStep, ih,
        bitPoly_message_append, message_singleton, List.length_singleton, mul_one, add_modByMonic,
        ccitt.mul_mod, ← add_modByMonic]

lemma bitPoly_calcCrc (data : List UInt8) :
    bitPoly (calcCrc data) = (bitPoly (message data) * X ^ 16) %ₘ ccitt.poly := by
  have hfed : calcCrc data = (data ++ [0, 0]).foldl crcStep 0 % 2 ^ 16 := by
    rw [calcCrc, List.foldl_append, Nat.and_two_pow_sub_one_eq_mod _ 16]
  have hzeros : message [0, 0] = 0 := rfl
  rw [hfed, bitPoly_foldl_crcStep, bitPoly_message_append, hzeros, bitPoly_zero, add_zero]
  rfl

lemma rkCrcStep_lt (crc : ℕ) (b : UInt8) : Rockusb.rkCrcStep crc b < 2 ^ 16 := by
  have hindex : ((crc >>> 8) ^^^ b.toNat) &&& 0xFF < 256 := by
    rw [Nat.and_two_pow_sub_one_eq_mod _ 8]
    exact Nat.mod_lt _ (by decide)
  have hkept : (crc <<< 8) &&& 0xFFFF < 2 ^ 16 := by
    rw [Nat.and_two_pow_sub_one_eq_mod _ 16]
    exact Nat.mod_lt _ (by decide)
  exact Nat.xor_lt_two_pow hkept (crcTable_lt _ hindex)

lemma foldl_rkCrcStep_lt (data : List UInt8) : data.foldl Rockusb.rkCrcStep 0 < 2 ^ 16 := by
  induction data using List.reverseRecOn with
  | nil => exact Nat.two_pow_pos 16
  | append_singleton data b ih =>
      rw [List.foldl_append, List.foldl_cons, List.foldl_nil]
      exact rkCrcStep_lt _ b

lemma bitPoly_foldl_rkCrcStep (data : List UInt8) :
    bitPoly (data.foldl Rockusb.rkCrcStep 0) =
      (bitPoly (message data) * X ^ 16) %ₘ ccitt.poly := by
  induction data using List.reverseRecOn with
  | nil => simp [message]
  | append_singleton data b ih =>
      have hmove : (bitPoly (message data) * X ^ 16) * X ^ 8 + bitPoly b.toNat * X ^ 16 =
          (bitPoly (message data) * X ^ 8 + bitPoly b.toNat) * X ^ 16 := by ring
      rw [List.foldl_append, List.foldl_cons, List.foldl_nil,
        bitPoly_rkCrcStep (foldl_rkCrcStep_lt data), ih, add_modByMonic, ccitt.mul_mod,
        ← add_modByMonic, hmove, bitPoly_message_append, message_singleton, List.length_singleton,
        mul_one]

lemma bitPoly_rkCrc16 (data : List UInt8) :
    bitPoly (Rockusb.rkCrc16 data 0) = (bitPoly (message data) * X ^ 16) %ₘ ccitt.poly := by
  rw [Rockusb.rkCrc16, Nat.and_two_pow_sub_one_eq_mod _ 16,
    Nat.mod_eq_of_lt (foldl_rkCrcStep_lt data), bitPoly_foldl_rkCrcStep]

/-- The division by hand of the data with 16 zero bits behind them. -/
lemma bitPoly_remainder_zeros (data : List UInt8) :
    bitPoly (ccitt.remainder (data.flatMap byteBits ++ List.replicate 16 false)) =
      (bitPoly (message data) * X ^ 16) %ₘ ccitt.poly := by
  rw [ccitt.bitPoly_remainder, ofBits_append, ofBits_replicate_false, add_zero,
    List.length_replicate, ofBits_flatMap_byteBits, bitPoly_two_pow_mul]

/-! ## Frames -/

/-- A byte string with one bit flipped, counted from the low end of its first byte. -/
def flipBit (data : List UInt8) (i : ℕ) : List UInt8 :=
  data.modify (i / 8) fun b => b ^^^ UInt8.ofNat (2 ^ (i % 8))

@[simp] lemma length_flipBit (data : List UInt8) (i : ℕ) : (flipBit data i).length = data.length :=
  List.length_modify _ _ _

/-- A flipped bit adds a power of `X`. -/
lemma exists_message_flipBit {data : List UInt8} {i : ℕ} (h : i < 8 * data.length) :
    ∃ n, bitPoly (message (flipBit data i)) = bitPoly (message data) + X ^ n := by
  obtain ⟨front, b, rest, hdata, -, hflip⟩ :=
    List.exists_of_modify (fun b => b ^^^ UInt8.ofNat (2 ^ (i % 8)))
      (by omega : i / 8 < data.length)
  have hpow : (UInt8.ofNat (2 ^ (i % 8))).toNat = 2 ^ (i % 8) := by
    have hlt : 2 ^ (i % 8) < 2 ^ 8 :=
      Nat.pow_lt_pow_right (by decide) (Nat.mod_lt i (by decide))
    rw [UInt8.toNat_ofNat', Nat.mod_eq_of_lt hlt]
  have hsplit : ∀ a : UInt8, bitPoly (message (front ++ a :: rest)) =
      bitPoly (message front) * X ^ (8 * (rest.length + 1)) +
        (bitPoly a.toNat * X ^ (8 * rest.length) + bitPoly (message rest)) := by
    intro a
    rw [bitPoly_message_append, ← List.singleton_append, bitPoly_message_append, message_singleton,
      List.length_append, List.length_singleton, Nat.add_comm 1]
  refine ⟨i % 8 + 8 * rest.length, ?_⟩
  rw [flipBit, hflip, hdata, hsplit, hsplit, UInt8.toNat_xor, hpow, bitPoly_xor, bitPoly_two_pow]
  ring

/-- A frame is what is in front of its last two bytes, and these. -/
lemma frame_eq {frame : List UInt8} (h : 2 ≤ frame.length) :
    frame = frame.take (frame.length - 2) ++
      [frame.getD (frame.length - 2) 0, frame.getD (frame.length - 1) 0] := by
  have hlast : frame.length - 1 < frame.length := by omega
  have hbefore : frame.length - 2 < frame.length := by omega
  have hdrop : frame.drop (frame.length - 2) =
      [frame.getD (frame.length - 2) 0, frame.getD (frame.length - 1) 0] := by
    have hnext : frame.length - 2 + 1 = frame.length - 1 := by omega
    have hend : frame.length - 1 + 1 = frame.length := by omega
    rw [List.drop_eq_getElem_cons hbefore, hnext, List.drop_eq_getElem_cons hlast, hend,
      List.drop_length, List.getD_eq_getElem _ _ hbefore, List.getD_eq_getElem _ _ hlast]
  rw [← hdrop, List.take_append_drop]

/-- The last two bytes of a frame are those of the CRC in front of them exactly when the frame is a
multiple of the generator. -/
lemma verifyCrc_iff {frame : List UInt8} (h : 3 ≤ frame.length) :
    verifyCrc frame = true ↔ ccitt.poly ∣ bitPoly (message frame) := by
  have hexpected : ∀ hi lo : UInt8, (hi.toNat <<< 8) ||| lo.toNat = message [hi, lo] := by
    intro hi lo
    rw [← Nat.shiftLeft_add_eq_or_of_lt lo.toNat_lt, Nat.shiftLeft_eq, message, List.foldl_cons,
      List.foldl_cons, List.foldl_nil, mul_zero, zero_add, Nat.mul_comm]
  rw [verifyCrc, if_neg (by omega)]
  dsimp only
  rw [decide_eq_true_eq, hexpected]
  conv_rhs => rw [frame_eq (by omega : 2 ≤ frame.length)]
  generalize frame.take (frame.length - 2) = payload
  generalize frame.getD (frame.length - 2) 0 = hi
  generalize frame.getD (frame.length - 1) 0 = lo
  have hcrc : message [hi, lo] < 2 ^ 16 := message_lt [hi, lo]
  calc calcCrc payload = message [hi, lo]
      ↔ bitPoly (calcCrc payload) = bitPoly (message [hi, lo]) := bitPoly_injective.eq_iff.symm
    _ ↔ (bitPoly (message payload) * X ^ 16) %ₘ ccitt.poly =
          bitPoly (message [hi, lo]) %ₘ ccitt.poly := by
        rw [bitPoly_calcCrc, ccitt.bitPoly_modByMonic hcrc]
    _ ↔ (bitPoly (message payload) * X ^ 16 + bitPoly (message [hi, lo])) %ₘ ccitt.poly = 0 := by
        rw [← CharTwo.add_eq_zero, ← add_modByMonic]
    _ ↔ ccitt.poly ∣ bitPoly (message (payload ++ [hi, lo])) := by
        rw [modByMonic_eq_zero_iff_dvd ccitt.poly_monic, bitPoly_message_append]
        rfl

lemma dvd_message_appendCrc (data : List UInt8) :
    ccitt.poly ∣ bitPoly (message (appendCrc data)) := by
  have htwo : message [UInt8.ofNat (calcCrc data >>> 8), UInt8.ofNat (calcCrc data)] =
      calcCrc data := by
    have hlt := calcCrc_lt data
    rw [message, List.foldl_cons, List.foldl_cons, List.foldl_nil, UInt8.toNat_ofNat',
      UInt8.toNat_ofNat', Nat.shiftRight_eq_div_pow]
    omega
  rw [← modByMonic_eq_zero_iff_dvd ccitt.poly_monic, appendCrc, bitPoly_message_append, htwo,
    add_modByMonic, bitPoly_calcCrc, List.length_cons, List.length_singleton]
  have hself := ccitt.bitPoly_modByMonic (calcCrc_lt data)
  rw [bitPoly_calcCrc] at hself
  rw [hself, CharTwo.add_self_eq_zero]

/-- **The CRC is the remainder**, in all three implementations, and catches every flipped bit of a
frame. -/
theorem crc_is_remainder (data : List UInt8) :
    (Web.calcCrc data).toNat = calcCrc data ∧
    Rockusb.rkCrc16 data 0 = calcCrc data ∧
    calcCrc data = ccitt.remainder (data.flatMap byteBits ++ List.replicate 16 false) ∧
    bitPoly (calcCrc data) =
      (bitPoly (message data) * X ^ 16) %ₘ (X ^ 16 + X ^ 12 + X ^ 5 + 1) ∧
    calcCrc (appendCrc data) = 0 ∧
    (data ≠ [] → verifyCrc (appendCrc data) = true ∧
      ∀ i < 8 * (appendCrc data).length, verifyCrc (flipBit (appendCrc data) i) = false) := by
  refine ⟨?_, ?_, ?_, ?_, ?_, fun hdata => ⟨verifyCrc_appendCrc hdata, fun i hi => ?_⟩⟩
  · have hlt := calcCrc_lt data
    rw [Web.calcCrc_eq, Web.toInt32, BitVec.toNat_ofNat, Nat.mod_eq_of_lt (by omega)]
  · apply bitPoly_injective
    rw [bitPoly_rkCrc16, bitPoly_calcCrc]
  · apply bitPoly_injective
    rw [bitPoly_calcCrc, bitPoly_remainder_zeros]
  · rw [bitPoly_calcCrc, ccitt_poly]
  · apply bitPoly_injective
    rw [bitPoly_calcCrc, bitPoly_zero, modByMonic_eq_zero_iff_dvd ccitt.poly_monic]
    exact (dvd_message_appendCrc data).mul_right _
  · have hlen : 3 ≤ (flipBit (appendCrc data) i).length := by
      have := List.length_pos_iff.mpr hdata
      rw [length_flipBit, length_appendCrc]
      omega
    obtain ⟨n, hflip⟩ := exists_message_flipBit hi
    refine Bool.eq_false_iff.mpr fun hverify => ?_
    rw [verifyCrc_iff hlen, hflip] at hverify
    exact ccitt.not_dvd_X_pow n ((dvd_add_right (dvd_message_appendCrc data)).mp hverify)

/-- The frame of one byte verifies, and does not with its lowest bit flipped. -/
theorem crc_is_remainder_frame :
    verifyCrc (appendCrc [0xAA]) = true ∧ verifyCrc (flipBit (appendCrc [0xAA]) 0) = false := by
  have h := (crc_is_remainder [0xAA]).2.2.2.2.2 (by decide)
  exact ⟨h.1, h.2 0 (by decide)⟩

end Defib
