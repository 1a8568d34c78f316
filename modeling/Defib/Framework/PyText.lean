import Mathlib.Algebra.Order.Ring.Int
import Mathlib.Data.List.Basic
import Mathlib.Tactic.Common

/-!
# Texts

Texts as Python programs handle them: `bytes` decoded to characters, numbers written and read in
decimal.  `parseInt_decimal` says that a number that is written is read back.
-/

namespace Defib

/-- A text. -/
abbrev Text := List Char

/-- What holds of every entry of a list, checked one by one. -/
lemma forall_mem_of_all {α : Type} {p : α → Prop} [DecidablePred p] {xs : List α}
    (h : (xs.all fun x => decide (p x)) = true) : ∀ x ∈ xs, p x :=
  fun x hx => of_decide_eq_true (List.all_eq_true.mp h x hx)

/-- `bytes.decode("ascii")`; `none` is the `UnicodeDecodeError`. -/
def decodeAscii (bytes : List UInt8) : Option Text :=
  if bytes.all (·.toNat < 128) then some (bytes.map fun b => Char.ofNat b.toNat) else none

/-- `bytes.decode("ascii", errors="replace")`. -/
def decodeAsciiReplace (bytes : List UInt8) : Text :=
  bytes.map fun b => if b.toNat < 128 then Char.ofNat b.toNat else Char.ofNat 0xFFFD

/-- `text.encode("ascii")`, of an ASCII text. -/
def encodeAscii (text : Text) : List UInt8 := text.map fun c => UInt8.ofNat c.toNat

/-- `str(n)`. -/
def decimal (n : ℕ) : Text := Nat.toDigits 10 n

/-- The digits of a number, in which single underscores may stand between digits. -/
def intDigits : Text → Option Text
  | [] => none
  | [c] => if c.isDigit then some [c] else none
  | c :: '_' :: cs => if c.isDigit then (intDigits cs).map (c :: ·) else none
  | c :: cs => if c.isDigit then (intDigits cs).map (c :: ·) else none

/-- The characters that `int` skips around a number. -/
def isIntSpace (c : Char) : Bool :=
  c = ' ' || c = '\t' || c = '\n' || c = '\r' || c = Char.ofNat 0x0B || c = Char.ofNat 0x0C

/-- A number of at most 4300 digits, which is what `int` reads. -/
def parseUnsigned (text : Text) : Option ℕ :=
  (intDigits text).bind fun digits =>
    if digits.length ≤ 4300 then some (Nat.ofDigitChars 10 digits 0) else none

/-- `int(text)`; `none` is the `ValueError`. -/
def parseInt (text : Text) : Option ℤ :=
  match (((text.dropWhile isIntSpace).reverse.dropWhile isIntSpace).reverse) with
  | '-' :: cs => (parseUnsigned cs).map fun n => -(n : ℤ)
  | '+' :: cs => (parseUnsigned cs).map fun n => (n : ℤ)
  | cs => (parseUnsigned cs).map fun n => (n : ℤ)

/-! ## Decimal numbers -/

lemma isDigit_of_mem_decimal {n : ℕ} {c : Char} (h : c ∈ decimal n) : c.isDigit = true :=
  Nat.isDigit_of_mem_toDigits (by omega) (by omega) h

lemma decimal_ne_nil (n : ℕ) : decimal n ≠ [] := Nat.toDigits_ne_nil

lemma length_decimal_le {n k : ℕ} (hk : 0 < k) (h : n < 10 ^ k) : (decimal n).length ≤ k :=
  (Nat.length_toDigits_le_iff (by omega) hk).mpr h

lemma not_isIntSpace_of_isDigit {c : Char} (h : c.isDigit = true) : isIntSpace c = false := by
  rw [Char.isDigit, Bool.and_eq_true, decide_eq_true_eq, decide_eq_true_eq] at h
  rw [Bool.eq_false_iff]
  intro hspace
  simp only [isIntSpace, Bool.or_eq_true, decide_eq_true_eq] at hspace
  rcases hspace with ((((rfl | rfl) | rfl) | rfl) | rfl) | rfl <;> exact absurd h (by decide)

/-- A text of digits is all digits. -/
lemma intDigits_of_isDigit {text : Text} (hne : text ≠ [])
    (h : ∀ c ∈ text, c.isDigit = true) : intDigits text = some text := by
  induction text with
  | nil => exact absurd rfl hne
  | cons c cs ih =>
      have hc : c.isDigit = true := h c List.mem_cons_self
      cases cs with
      | nil => rw [intDigits, if_pos hc]
      | cons c' cs =>
          have hc' : c'.isDigit = true := h c' (by simp)
          have hunderscore : c' ≠ '_' := by
            rintro rfl
            exact absurd hc' (by decide)
          rw [intDigits, if_pos hc, ih (by simp) fun d hd => h d (List.mem_cons_of_mem _ hd)]
          · rfl
          · exact List.cons_ne_nil _ _
          · intro ds hds
            exact hunderscore (List.cons.inj hds).1

lemma dropWhile_isIntSpace_of_isDigit {text : Text} (h : ∀ c ∈ text, c.isDigit = true) :
    text.dropWhile isIntSpace = text := by
  cases text with
  | nil => rfl
  | cons c cs =>
      rw [List.dropWhile_cons, not_isIntSpace_of_isDigit (h c List.mem_cons_self)]
      rfl

/-- **Numbers are read back.** -/
lemma parseInt_decimal {n : ℕ} (h : (decimal n).length ≤ 4300) :
    parseInt (decimal n) = some (n : ℤ) := by
  have hdigits : ∀ c ∈ decimal n, c.isDigit = true := fun c hc => isDigit_of_mem_decimal hc
  have hstrip : ((decimal n).dropWhile isIntSpace).reverse.dropWhile isIntSpace =
      (decimal n).reverse := by
    rw [dropWhile_isIntSpace_of_isDigit hdigits]
    exact dropWhile_isIntSpace_of_isDigit fun c hc => hdigits c (List.mem_reverse.mp hc)
  have hparse : parseUnsigned (decimal n) = some n := by
    rw [parseUnsigned, intDigits_of_isDigit (decimal_ne_nil n) hdigits]
    change (if _ then _ else _) = _
    rw [if_pos h, decimal, Nat.ofDigitChars_ten_toDigits]
  rw [parseInt, hstrip, List.reverse_reverse]
  split
  · rename_i cs hcs
    exact absurd (hdigits '-' (by rw [hcs]; simp)) (by decide)
  · rename_i cs hcs
    exact absurd (hdigits '+' (by rw [hcs]; simp)) (by decide)
  · rw [hparse]
    rfl

/-! ## ASCII -/

lemma toNat_lt_of_isDigit {c : Char} (h : c.isDigit = true) : 48 ≤ c.toNat ∧ c.toNat ≤ 57 := by
  rw [Char.isDigit, Bool.and_eq_true, decide_eq_true_eq, decide_eq_true_eq] at h
  exact h

lemma toNat_ofNat_of_ascii {c : Char} (h : c.toNat < 128) :
    (UInt8.ofNat c.toNat).toNat = c.toNat := by
  rw [UInt8.toNat_ofNat']
  omega

/-- ASCII texts are decoded again. -/
lemma decodeAscii_encodeAscii {text : Text} (h : ∀ c ∈ text, c.toNat < 128) :
    decodeAscii (encodeAscii text) = some text := by
  have hall : (encodeAscii text).all (·.toNat < 128) = true := by
    rw [List.all_eq_true]
    intro b hb
    obtain ⟨c, hc, rfl⟩ := List.mem_map.mp hb
    rw [toNat_ofNat_of_ascii (h c hc)]
    exact decide_eq_true (h c hc)
  rw [decodeAscii, if_pos hall, encodeAscii, List.map_map]
  refine congrArg some ((List.map_congr_left fun c hc => ?_).trans (List.map_id _))
  simp only [Function.comp_apply, toNat_ofNat_of_ascii (h c hc), Char.ofNat_toNat, id_eq]

lemma decodeAsciiReplace_encodeAscii {text : Text} (h : ∀ c ∈ text, c.toNat < 128) :
    decodeAsciiReplace (encodeAscii text) = text := by
  rw [decodeAsciiReplace, encodeAscii, List.map_map]
  refine (List.map_congr_left fun c hc => ?_).trans (List.map_id _)
  simp only [Function.comp_apply, toNat_ofNat_of_ascii (h c hc), if_pos (h c hc),
    Char.ofNat_toNat, id_eq]

/-- A text without NUL has no zero byte. -/
lemma zero_notMem_encodeAscii {text : Text} (h : ∀ c ∈ text, 0 < c.toNat ∧ c.toNat < 128) :
    (0 : UInt8) ∉ encodeAscii text := by
  intro hmem
  obtain ⟨c, hc, hzero⟩ := List.mem_map.mp hmem
  have hbyte := congrArg UInt8.toNat hzero
  rw [toNat_ofNat_of_ascii (h c hc).2] at hbyte
  exact absurd hbyte (Nat.ne_of_gt (h c hc).1)

/-- Numbers are ASCII. -/
lemma ascii_decimal (n : ℕ) : ∀ c ∈ decimal n, 0 < c.toNat ∧ c.toNat < 128 := by
  intro c hc
  have h := toNat_lt_of_isDigit (isDigit_of_mem_decimal hc)
  omega

end Defib
