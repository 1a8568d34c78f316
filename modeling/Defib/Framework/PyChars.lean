import Mathlib.Data.List.DropRight
import Defib.Framework.PyText

/-!
# Character classes

Which characters are white space, digits or parts of a word is a table that comes with Python's
`str` and `re`.  A `PyChars` is such a table: what it says of ASCII is fixed, what it says of other
characters is not.

`takeWhile_append_stop` and `dropWhile_append_stop` are how a greedy class of a pattern is matched:
up to the first character that is not in it.
-/

namespace Defib

/-- Do `str.isspace` and `\s` hold of this ASCII character? -/
def isAsciiSpace (c : Char) : Bool :=
  (9 ≤ c.toNat && c.toNat ≤ 13) || (28 ≤ c.toNat && c.toNat ≤ 32)

/-- Does `\w` hold of this ASCII character? -/
def isAsciiWord (c : Char) : Bool := c.isAlphanum || c = '_'

/-- The character classes `\s`, `\w` and `\d`, and the values of the digits. -/
structure PyChars where
  isSpace : Char → Bool
  isWord : Char → Bool
  isDigit : Char → Bool
  digit : Char → ℕ
  isSpace_ascii : ∀ c : Char, c.toNat < 128 → isSpace c = isAsciiSpace c
  isWord_ascii : ∀ c : Char, c.toNat < 128 → isWord c = isAsciiWord c
  isDigit_ascii : ∀ c : Char, c.toNat < 128 → isDigit c = c.isDigit
  digit_ascii : ∀ c : Char, c.isDigit = true → digit c = c.toNat - 48

/-- The classes that hold of ASCII characters only. -/
def PyChars.ascii : PyChars where
  isSpace := isAsciiSpace
  isWord := isAsciiWord
  isDigit := Char.isDigit
  digit c := c.toNat - 48
  isSpace_ascii _ _ := rfl
  isWord_ascii _ _ := rfl
  isDigit_ascii _ _ := rfl
  digit_ascii _ _ := rfl

namespace PyChars

variable (py : PyChars)

/-- `text.strip()`. -/
def strip (text : Text) : Text :=
  ((text.dropWhile py.isSpace).reverse.dropWhile py.isSpace).reverse

/-- `int(digits)`, of a text that `\d+` matches; `none` is the `ValueError` of a number with more
than 4300 digits. -/
def int (digits : Text) : Option ℕ :=
  if digits.length ≤ 4300 then some (digits.foldl (fun n c => 10 * n + py.digit c) 0) else none

/-- A text with no white space at its ends is stripped of nothing. -/
lemma strip_eq_self {text : Text} {c d : Char} (hc : text.head? = some c)
    (hd : text.getLast? = some d) (hcspace : py.isSpace c = false)
    (hdspace : py.isSpace d = false) : py.strip text = text := by
  have hfront : text.dropWhile py.isSpace = text := by
    cases text with
    | nil => rfl
    | cons c' cs =>
        obtain rfl : c' = c := Option.some.inj hc
        rw [List.dropWhile_cons, hcspace]
        rfl
  have hback : text.reverse.dropWhile py.isSpace = text.reverse := by
    rw [← List.head?_reverse] at hd
    cases hrev : text.reverse with
    | nil => rfl
    | cons d' ds =>
        rw [hrev] at hd
        obtain rfl : d' = d := Option.some.inj hd
        rw [List.dropWhile_cons, hdspace]
        rfl
  rw [strip, hfront, hback, List.reverse_reverse]

lemma strip_append_spaces {xs ys : Text} (h : ∀ c ∈ ys, py.isSpace c = true) :
    py.strip (xs ++ ys) = py.strip xs := by
  have hys : ys.dropWhile py.isSpace = [] := List.dropWhile_eq_nil_iff.mpr h
  have hrev : ∀ c ∈ ys.reverse, py.isSpace c = true := fun c hc => h c (List.mem_reverse.mp hc)
  rw [strip, strip, List.dropWhile_append]
  cases hxs : xs.dropWhile py.isSpace with
  | nil => simp [hys]
  | cons x rest =>
      rw [if_neg (by simp), List.reverse_append, List.dropWhile_append_of_pos hrev]

lemma strip_strip (text : Text) : py.strip (py.strip text) = py.strip text := by
  have hfront : (py.strip text).dropWhile py.isSpace = py.strip text := by
    have hprefix : py.strip text <+: text.dropWhile py.isSpace := List.rdropWhile_prefix _ _
    rw [List.dropWhile_eq_self_iff]
    intro hpos hspace
    have hget := List.IsPrefix.getElem hprefix hpos
    rw [hget] at hspace
    exact List.dropWhile_get_zero_not py.isSpace text (hpos.trans_le hprefix.length_le) hspace
  rw [strip, hfront]
  exact List.rdropWhile_idempotent _ _

lemma isDigit_of_ascii {c : Char} (h : c.isDigit = true) : py.isDigit c = true := by
  rw [py.isDigit_ascii c (by have := toNat_lt_of_isDigit h; omega), h]

lemma isSpace_of_isDigit {c : Char} (h : c.isDigit = true) : py.isSpace c = false := by
  have hrange := toNat_lt_of_isDigit h
  rw [py.isSpace_ascii c (by omega), isAsciiSpace, Bool.or_eq_false_iff,
    Bool.and_eq_false_iff, Bool.and_eq_false_iff]
  simp only [decide_eq_false_iff_not]
  omega

/-- Numbers have their decimal values. -/
lemma int_eq {digits : Text} (h : ∀ c ∈ digits, c.isDigit = true) :
    py.int digits = if digits.length ≤ 4300 then some (Nat.ofDigitChars 10 digits 0) else none := by
  have hfold : ∀ n : ℕ, digits.foldl (fun n c => 10 * n + py.digit c) n =
      Nat.ofDigitChars 10 digits n := by
    induction digits with
    | nil => exact fun _ => rfl
    | cons c cs ih =>
        intro n
        rw [List.foldl_cons, ih fun d hd => h d (List.mem_cons_of_mem _ hd),
          py.digit_ascii c (h c List.mem_cons_self)]
        rfl
  rw [int, hfold]

end PyChars

variable {α : Type*} {p : α → Bool}

lemma takeWhile_append_stop {xs ys : List α} (hxs : ∀ x ∈ xs, p x = true)
    (hys : ∀ y ∈ ys.head?, p y = false) : (xs ++ ys).takeWhile p = xs := by
  rw [List.takeWhile_append_of_pos hxs]
  cases ys with
  | nil => simp
  | cons y ys => rw [List.takeWhile_cons_of_neg (by simp [hys y rfl]), List.append_nil]

lemma dropWhile_append_stop {xs ys : List α} (hxs : ∀ x ∈ xs, p x = true)
    (hys : ∀ y ∈ ys.head?, p y = false) : (xs ++ ys).dropWhile p = ys := by
  rw [List.dropWhile_append_of_pos hxs]
  cases ys with
  | nil => rfl
  | cons y ys => rw [List.dropWhile_cons_of_neg (by simp [hys y rfl])]

end Defib
