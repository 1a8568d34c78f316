import Defib.Framework.PyText

/-!
# UTF-8

`decodeUtf8Replace` is `bytes.decode("utf-8", errors="replace")`, as a machine that takes one byte
at a time: between characters it looks at a first byte, which says how many bytes the character
still needs and in which range the next one is.  A byte outside that range ends the character with
a replacement character and is looked at again as a first byte.

`decodeUtf8Replace_encodeUtf8` says that encoded texts are read back.
-/

namespace Defib

/-- The replacement character. -/
def replacementChar : Char := Char.ofNat 0xFFFD

/-- Where the decoder stands: the number of bytes the character still needs, the range of the next
one, and the bits so far. -/
structure Utf8State where
  owed : ℕ
  low : ℕ
  high : ℕ
  bits : ℕ
  deriving DecidableEq, Repr

namespace Utf8State

/-- Between two characters. -/
def idle : Utf8State := ⟨0, 0, 0, 0⟩

/-- The first byte of a character: what it yields by itself, and where the decoder stands then. -/
def start (b : ℕ) : Text × Utf8State :=
  if b < 0x80 then ([Char.ofNat b], idle)
  else if 0xC2 ≤ b ∧ b ≤ 0xDF then ([], ⟨1, 0x80, 0xBF, b - 0xC0⟩)
  else if 0xE0 ≤ b ∧ b ≤ 0xEF then
    ([], ⟨2, if b = 0xE0 then 0xA0 else 0x80, if b = 0xED then 0x9F else 0xBF, b - 0xE0⟩)
  else if 0xF0 ≤ b ∧ b ≤ 0xF4 then
    ([], ⟨3, if b = 0xF0 then 0x90 else 0x80, if b = 0xF4 then 0x8F else 0xBF, b - 0xF0⟩)
  else ([replacementChar], idle)

end Utf8State

/-- The text of the bytes, from where the decoder stands. -/
def decodeUtf8From : Utf8State → List UInt8 → Text
  | s, [] => if s.owed = 0 then [] else [replacementChar]
  | s, b :: bs =>
      if s.owed = 0 then
        (Utf8State.start b.toNat).1 ++ decodeUtf8From (Utf8State.start b.toNat).2 bs
      else if s.low ≤ b.toNat ∧ b.toNat ≤ s.high then
        if s.owed = 1 then
          Char.ofNat (s.bits * 64 + (b.toNat - 0x80)) :: decodeUtf8From .idle bs
        else decodeUtf8From ⟨s.owed - 1, 0x80, 0xBF, s.bits * 64 + (b.toNat - 0x80)⟩ bs
      else
        replacementChar ::
          ((Utf8State.start b.toNat).1 ++ decodeUtf8From (Utf8State.start b.toNat).2 bs)

/-- `bytes.decode("utf-8", errors="replace")`. -/
def decodeUtf8Replace (bytes : List UInt8) : Text := decodeUtf8From .idle bytes

/-- The bytes of a character. -/
def encodeUtf8Char (c : Char) : List UInt8 :=
  let n := c.toNat
  if n < 0x80 then [.ofNat n]
  else if n < 0x800 then [.ofNat (0xC0 + n / 64), .ofNat (0x80 + n % 64)]
  else if n < 0x10000 then
    [.ofNat (0xE0 + n / 4096), .ofNat (0x80 + n / 64 % 64), .ofNat (0x80 + n % 64)]
  else
    [.ofNat (0xF0 + n / 262144), .ofNat (0x80 + n / 4096 % 64), .ofNat (0x80 + n / 64 % 64),
      .ofNat (0x80 + n % 64)]

/-- `text.encode("utf-8")`. -/
def encodeUtf8 (text : Text) : List UInt8 := text.flatMap encodeUtf8Char

/-! ## Round trip -/

lemma toNat_ofNat_byte {n : ℕ} (h : n < 256) : (UInt8.ofNat n).toNat = n := by
  rw [UInt8.toNat_ofNat']
  omega

lemma decodeUtf8From_start (b : UInt8) (bs : List UInt8) :
    decodeUtf8From .idle (b :: bs) =
      (Utf8State.start b.toNat).1 ++ decodeUtf8From (Utf8State.start b.toNat).2 bs := by
  rw [decodeUtf8From]
  exact if_pos rfl

lemma decodeUtf8From_more {owed low high bits n : ℕ} (bs : List UInt8) (hn : n < 256)
    (hlow : low ≤ n) (hhigh : n ≤ high) :
    decodeUtf8From ⟨owed + 2, low, high, bits⟩ (UInt8.ofNat n :: bs) =
      decodeUtf8From ⟨owed + 1, 0x80, 0xBF, bits * 64 + (n - 0x80)⟩ bs := by
  rw [decodeUtf8From, toNat_ofNat_byte hn, if_neg (by simp), if_pos ⟨hlow, hhigh⟩,
    if_neg (by simp)]
  rfl

lemma decodeUtf8From_last {low high bits n : ℕ} (bs : List UInt8) (hn : n < 256)
    (hlow : low ≤ n) (hhigh : n ≤ high) :
    decodeUtf8From ⟨1, low, high, bits⟩ (UInt8.ofNat n :: bs) =
      Char.ofNat (bits * 64 + (n - 0x80)) :: decodeUtf8From .idle bs := by
  rw [decodeUtf8From, toNat_ofNat_byte hn, if_neg (by simp), if_pos ⟨hlow, hhigh⟩, if_pos rfl]

lemma toNat_char_cases (c : Char) :
    c.toNat < 0xD800 ∨ (0xDFFF < c.toNat ∧ c.toNat < 0x110000) := c.valid

/-- A character is read back. -/
lemma decodeUtf8From_encodeUtf8Char (c : Char) (bs : List UInt8) :
    decodeUtf8From .idle (encodeUtf8Char c ++ bs) = c :: decodeUtf8From .idle bs := by
  have hvalid := toNat_char_cases c
  have hc : ∀ n, n = c.toNat → Char.ofNat n = c := fun n hn => hn ▸ Char.ofNat_toNat c
  generalize hn : c.toNat = n at hvalid hc
  rw [encodeUtf8Char, hn]
  by_cases h1 : n < 0x80
  · rw [if_pos h1, List.singleton_append, decodeUtf8From_start, toNat_ofNat_byte (by omega),
      Utf8State.start, if_pos h1, hc n rfl]
    rfl
  rw [if_neg h1]
  by_cases h2 : n < 0x800
  · rw [if_pos h2, List.cons_append, decodeUtf8From_start, toNat_ofNat_byte (by omega),
      Utf8State.start, if_neg (by omega), if_pos (by omega), List.singleton_append,
      List.nil_append, decodeUtf8From_last _ (by omega) (by omega) (by omega), hc _ (by omega)]
  rw [if_neg h2]
  by_cases h3 : n < 0x10000
  · rw [if_pos h3, List.cons_append, decodeUtf8From_start, toNat_ofNat_byte (by omega),
      Utf8State.start, if_neg (by omega), if_neg (by omega), if_pos (by omega), List.nil_append,
      List.cons_append, decodeUtf8From_more _ (by omega) (by split <;> omega) (by split <;> omega),
      List.singleton_append, decodeUtf8From_last _ (by omega) (by omega) (by omega),
      hc _ (by omega)]
  · rw [if_neg h3, List.cons_append, decodeUtf8From_start, toNat_ofNat_byte (by omega),
      Utf8State.start, if_neg (by omega), if_neg (by omega), if_neg (by omega),
      if_pos (by omega), List.nil_append, List.cons_append,
      decodeUtf8From_more _ (by omega) (by split <;> omega) (by split <;> omega),
      List.cons_append, decodeUtf8From_more _ (by omega) (by omega) (by omega),
      List.singleton_append, decodeUtf8From_last _ (by omega) (by omega) (by omega),
      hc _ (by omega)]

/-- **Texts are read back.** -/
lemma decodeUtf8Replace_encodeUtf8 (text : Text) :
    decodeUtf8Replace (encodeUtf8 text) = text := by
  rw [decodeUtf8Replace]
  induction text with
  | nil => rfl
  | cons c cs ih =>
      rw [encodeUtf8, List.flatMap_cons, decodeUtf8From_encodeUtf8Char, ← encodeUtf8, ih]

/-- Only NUL has a zero byte. -/
lemma zero_notMem_encodeUtf8 {text : Text} (h : ∀ c ∈ text, c.toNat ≠ 0) :
    (0 : UInt8) ∉ encodeUtf8 text := by
  intro hmem
  obtain ⟨c, hc, hzero⟩ := List.mem_flatMap.mp hmem
  have hvalid := toNat_char_cases c
  have hne := h c hc
  have hbyte : ∀ n, n < 256 → 0 < n → (0 : UInt8) ≠ UInt8.ofNat n := by
    intro n hn hpos heq
    have := congrArg UInt8.toNat heq
    rw [toNat_ofNat_byte hn] at this
    exact absurd this.symm (Nat.ne_of_gt hpos)
  rw [encodeUtf8Char] at hzero
  generalize c.toNat = n at hvalid hne hzero
  split at hzero
  · rw [List.mem_singleton] at hzero
    exact hbyte _ (by omega) (by omega) hzero
  split at hzero
  · simp only [List.mem_cons, List.not_mem_nil, or_false] at hzero
    rcases hzero with h | h
    · exact hbyte _ (by omega) (by omega) h
    · exact hbyte _ (by omega) (by omega) h
  split at hzero
  · simp only [List.mem_cons, List.not_mem_nil, or_false] at hzero
    rcases hzero with h | h | h
    · exact hbyte _ (by omega) (by omega) h
    · exact hbyte _ (by omega) (by omega) h
    · exact hbyte _ (by omega) (by omega) h
  · simp only [List.mem_cons, List.not_mem_nil, or_false] at hzero
    rcases hzero with h | h | h | h
    · exact hbyte _ (by omega) (by omega) h
    · exact hbyte _ (by omega) (by omega) h
    · exact hbyte _ (by omega) (by omega) h
    · exact hbyte _ (by omega) (by omega) h

end Defib
