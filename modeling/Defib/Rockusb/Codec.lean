import Mathlib.Data.Vector.Basic
import Defib.Boot.Frames

/-!
# The MaskROM codecs

`rockusb/codec.py`: the CRC-16 that the boot ROM computes, from the same table as `calc_crc` but
with a register of 16 bits that takes each byte at its top, and RC4.  What RC4 combines with the
data depends on the key and the position alone, so that it undoes itself (`rc4_rc4`).
-/

namespace Defib

namespace Rockusb

/-- `RK_RC4_KEY`. -/
def rkRc4Key : List UInt8 :=
  [124, 78, 3, 4, 85, 5, 9, 7, 45, 44, 123, 56, 23, 13, 23, 17]

/-- `CRC16_INIT`. -/
def crc16Init : ℕ := 0xFFFF

/-! ## CRC-16 -/

/-- The loop body of `rk_crc16`. -/
def rkCrcStep (crc : ℕ) (byte : UInt8) : ℕ :=
  ((crc <<< 8) &&& 0xFFFF) ^^^ crcTable.getD (((crc >>> 8) ^^^ byte.toNat) &&& 0xFF) 0

/-- `rk_crc16`. -/
def rkCrc16 (data : List UInt8) (crc : ℕ) : ℕ := data.foldl rkCrcStep crc &&& 0xFFFF

/-! ## RC4 -/

/-- The list `s`, which any byte indexes. -/
abbrev SBox := Vector UInt8 256

namespace SBox

variable (s : SBox) (i j : UInt8)

/-- `s[i]`. -/
def entry : UInt8 := s.get i.toFin

/-- `s[i], s[j] = s[j], s[i]`. -/
def exchange : SBox := (s.set i.toNat (s.entry j) i.toNat_lt).set j.toNat (s.entry i) j.toNat_lt

end SBox

/-- The state between two bytes of the loop over `data`. -/
structure Rc4State where
  s : SBox
  i : UInt8
  j : UInt8

namespace Rc4State

/-- The loop over `range(256)`, which mixes the key into `s`. -/
def keyed (key : List UInt8) : SBox :=
  ((List.range 256).foldl (fun (p : SBox × UInt8) i =>
    let j := p.2 + p.1.entry (UInt8.ofNat i) + key.getD (i % key.length) 0
    (p.1.exchange (UInt8.ofNat i) j, j)) (Vector.ofFn fun k => UInt8.ofNat k, 0)).1

def init (key : List UInt8) : Rc4State := ⟨keyed key, 0, 0⟩

/-- The two indices move and their entries are exchanged. -/
def next (t : Rc4State) : Rc4State :=
  let i := t.i + 1
  let j := t.j + t.s.entry i
  ⟨t.s.exchange i j, i, j⟩

/-- What is combined with a byte. -/
def mask (t : Rc4State) : UInt8 := t.s.entry (t.s.entry t.i + t.s.entry t.j)

/-- The loop over `data`. -/
def combine : Rc4State → List UInt8 → List UInt8
  | _, [] => []
  | t, byte :: data => (byte ^^^ t.next.mask) :: t.next.combine data

@[simp] lemma length_combine (t : Rc4State) (data : List UInt8) :
    (t.combine data).length = data.length := by
  induction data generalizing t with
  | nil => rfl
  | cons byte data ih => rw [combine, List.length_cons, List.length_cons, ih]

/-- The state moves on alike whatever the data, so that the same masks are combined twice. -/
lemma combine_combine (t : Rc4State) (data : List UInt8) : t.combine (t.combine data) = data := by
  induction data generalizing t with
  | nil => rfl
  | cons byte data ih => rw [combine, combine, ih, UInt8.xor_assoc, UInt8.xor_self, UInt8.xor_zero]

end Rc4State

/-- `rc4`, with a key that is not empty. -/
def rc4 (data : List UInt8) (key : List UInt8) : List UInt8 := (Rc4State.init key).combine data

lemma length_rc4 (data key : List UInt8) : (rc4 data key).length = data.length :=
  Rc4State.length_combine _ data

lemma rc4_rc4 (data key : List UInt8) : rc4 (rc4 data key) key = data :=
  Rc4State.combine_combine _ data

end Rockusb

end Defib
