import Mathlib.Data.List.DropRight
import Defib.Framework.Assembly
import Defib.Framework.PyChars
import Defib.Framework.Pattern
import Defib.Restore.Backup

/-!
# Reading `md.b`

`parse_md_line` and `parse_md_output` of `src/defib/flashdump.py`, on texts that were decoded from
ASCII, and the lines that they are meant for: `MdLine` is what U-Boot prints for up to sixteen bytes
of its RAM, an address, the bytes, and the bytes again as text.

A full line is read back for what it shows (`parseMdLine_text`).  In a line of fewer bytes the text
may be taken for more of them, if it looks like two hexadecimal digits.
-/

namespace Defib

/-! ## Parsing -/

/-- The ASCII characters at which `str.splitlines` ends a line. -/
def isLineBreak (c : Char) : Bool :=
  (10 ≤ c.toNat && c.toNat ≤ 13) || (28 ≤ c.toNat && c.toNat ≤ 30)

/-- The lines of a text, given the line begun so far, last character first.  A line feed right
behind a carriage return ends no line of its own. -/
def splitlinesFrom (afterCr : Bool) (cur : Text) : Text → List Text
  | [] => if cur = [] then [] else [cur.reverse]
  | c :: cs =>
      if afterCr && c = '\n' then splitlinesFrom false cur cs
      else if isLineBreak c then cur.reverse :: splitlinesFrom (c = '\r') [] cs
      else splitlinesFrom false (c :: cur) cs

/-- `text.splitlines()`. -/
def splitlines (text : Text) : List Text := splitlinesFrom false [] text

/-- The pattern `[0-9a-fA-F]{2}`. -/
def hexPair : Text → Option (UInt8 × Text)
  | a :: b :: rest =>
      if isHexDigit a && isHexDigit b then some (UInt8.ofNat (hexNumber [a, b]), rest) else none
  | _ => none

/-- The pattern `(?:[0-9a-fA-F]{2}[\s]+){0,n}[0-9a-fA-F]{2}`: it goes on as long as white space and
another pair follow.  Where they do not, it goes back to the pair before. -/
def hexRun : ℕ → Text → Option (List UInt8)
  | 0, text => (hexPair text).map fun p => [p.1]
  | n + 1, text =>
      (hexPair text).map fun p =>
        p.1 :: ((many1 isAsciiSpace p.2).bind fun q => hexRun n q.2).getD []

/-- `parse_md_line`. -/
def parseMdLine (line : Text) : Option (ℕ × List UInt8) :=
  let text := PyChars.ascii.strip line
  let digits := text.take 8
  if digits.length = 8 ∧ digits.all isHexDigit then do
    let rest ← lit [':'] (text.drop 8)
    let (_, rest) ← many1 isAsciiSpace rest
    let data ← hexRun 15 rest
    return (hexNumber digits, data)
  else none

/-- `entries`, in the order in which they came. -/
def mdEntries (text : Text) : List (ℕ × List UInt8) := (splitlines text).filterMap parseMdLine

/-- `parse_md_output`. -/
def parseMdOutput (text : Text) : List UInt8 :=
  assemble 0 ((mdEntries text).insertionSort fun p q => p.1 ≤ q.1)

/-! ## The lines of U-Boot -/

/-- `{n:0wx}`, of a number that fits. -/
def hexDigits : ℕ → ℕ → Text
  | 0, _ => []
  | w + 1, n => hexDigits w (n / 16) ++ [Nat.digitChar (n % 16)]

/-- A byte in the text column. -/
def columnChar (b : UInt8) : Char :=
  if 32 ≤ b.toNat ∧ b.toNat < 127 then Char.ofNat b.toNat else '.'

/-- A line of `md.b`: its address, how many bytes it shows, and the blanks before the text
column. -/
structure MdLine where
  label : ℕ
  count : ℕ
  pad : ℕ
  label_lt : label < 16 ^ 8
  count_pos : 1 ≤ count
  count_le : count ≤ 16

namespace MdLine

variable (ram : Store UInt8) (l : MdLine)

def bytes : List UInt8 := ram.load l.label l.count

def column : Text := (l.bytes ram).map columnChar

/-- `82000010: 48 69 53 69 6c 69 63 6f 6e 00 00 00 00 00 00 00    HiSilico........` -/
def text : Text :=
  hexDigits 8 l.label ++ (':' :: ((l.bytes ram).flatMap fun b => ' ' :: hexDigits 2 b.toNat)) ++
    (List.replicate l.pad ' ' ++ l.column ram)

/-- The line is full, or its text column does not begin with two hexadecimal digits. -/
def Plain : Prop := l.count = 16 ∨ hexPair ((l.column ram).dropWhile isAsciiSpace) = none

end MdLine

/-! ## Hexadecimal digits -/

lemma isHexDigit_digitChar : ∀ d < 16, isHexDigit (Nat.digitChar d) = true := by decide

lemma hexDigitValue_digitChar : ∀ d < 16, hexDigitValue (Nat.digitChar d) = d := by decide

lemma isAsciiSpace_digitChar : ∀ d < 16, isAsciiSpace (Nat.digitChar d) = false := by decide

lemma length_hexDigits (w n : ℕ) : (hexDigits w n).length = w := by
  induction w generalizing n with
  | zero => rfl
  | succ w ih => rw [hexDigits, List.length_append, ih, List.length_singleton]

lemma forall_mem_hexDigits {p : Char → Prop} (hp : ∀ d < 16, p (Nat.digitChar d)) (w n : ℕ) :
    ∀ c ∈ hexDigits w n, p c := by
  induction w generalizing n with
  | zero => exact fun c hc => absurd hc List.not_mem_nil
  | succ w ih =>
      intro c hc
      rcases List.mem_append.mp hc with hc | hc
      · exact ih (n / 16) c hc
      · rw [List.mem_singleton.mp hc]
        exact hp _ (Nat.mod_lt n (by decide))

lemma dropWhile_hexDigits (w n : ℕ) (rest : Text) :
    (hexDigits (w + 1) n ++ rest).dropWhile isAsciiSpace = hexDigits (w + 1) n ++ rest := by
  obtain ⟨d, ds, hcons⟩ := List.exists_cons_of_length_pos (l := hexDigits (w + 1) n)
    (by rw [length_hexDigits]; exact Nat.succ_pos w)
  have hmem : d ∈ hexDigits (w + 1) n := hcons ▸ List.mem_cons_self
  have hd := forall_mem_hexDigits (p := fun c => isAsciiSpace c = false) isAsciiSpace_digitChar
    (w + 1) n d hmem
  rw [hcons, List.cons_append, List.dropWhile_cons, hd]
  rfl

/-- Digits are read back. -/
lemma hexNumber_hexDigits {w n : ℕ} (h : n < 16 ^ w) : hexNumber (hexDigits w n) = n := by
  induction w generalizing n with
  | zero =>
      rw [pow_zero, Nat.lt_one_iff] at h
      rw [h]
      rfl
  | succ w ih =>
      have hhigh : n / 16 < 16 ^ w := by
        rw [Nat.div_lt_iff_lt_mul (by decide)]
        rwa [pow_succ] at h
      have hvalue := ih hhigh
      rw [hexNumber] at hvalue
      rw [hexDigits, hexNumber, List.foldl_append, hvalue, List.foldl_cons, List.foldl_nil,
        hexDigitValue_digitChar _ (Nat.mod_lt n (by decide)), Nat.div_add_mod]

lemma hexPair_hexDigits (b : UInt8) (rest : Text) :
    hexPair (hexDigits 2 b.toNat ++ rest) = some (b, rest) := by
  have hvalue : hexNumber (hexDigits 2 b.toNat) = b.toNat :=
    hexNumber_hexDigits (by have := b.toNat_lt; omega)
  have hhigh := isHexDigit_digitChar _ (Nat.mod_lt (b.toNat / 16) (by decide))
  have hlow := isHexDigit_digitChar _ (Nat.mod_lt b.toNat (by decide))
  change (if isHexDigit (Nat.digitChar (b.toNat / 16 % 16)) &&
    isHexDigit (Nat.digitChar (b.toNat % 16)) then
      some (UInt8.ofNat (hexNumber (hexDigits 2 b.toNat)), rest) else none) = _
  rw [hhigh, hlow, hvalue, UInt8.ofNat_toNat]
  rfl

lemma hexPair_eq_none_iff {a b : Char} {rest : Text} :
    hexPair (a :: b :: rest) = none ↔ (isHexDigit a && isHexDigit b) = false := by
  rw [hexPair]
  split <;> simp_all

/-! ## Labels -/

lemma take_label (n : ℕ) (rest : Text) : (hexDigits 8 n ++ rest).take 8 = hexDigits 8 n :=
  List.take_left' (length_hexDigits 8 n)

lemma drop_label (n : ℕ) (rest : Text) : (hexDigits 8 n ++ rest).drop 8 = rest :=
  List.drop_left' (length_hexDigits 8 n)

lemma label_digits (n : ℕ) :
    (hexDigits 8 n).length = 8 ∧ (hexDigits 8 n).all isHexDigit = true :=
  ⟨length_hexDigits 8 n, List.all_eq_true.mpr (forall_mem_hexDigits isHexDigit_digitChar 8 n)⟩

lemma lit_colon (rest : Text) : lit [':'] (':' :: rest) = some rest := lit_append [':'] rest

/-! ## Lines are read back -/

/-- No further pair of digits follows the white space. -/
def Stops (text : Text) : Prop :=
  ∀ q, many1 isAsciiSpace text = some q → hexPair q.2 = none

lemma many1_blank_hexDigits (n : ℕ) (rest : Text) :
    many1 isAsciiSpace (' ' :: (hexDigits 2 n ++ rest)) = some ([' '], hexDigits 2 n ++ rest) := by
  change many1 isAsciiSpace ([' '] ++ (hexDigits 2 n ++ rest)) = _
  refine many1_append (by simp) (forall_mem_of_all (by decide)) fun y hy => ?_
  obtain rfl : Nat.digitChar (n / 16 % 16) = y := Option.some.inj hy
  exact isAsciiSpace_digitChar _ (Nat.mod_lt _ (by decide))

/-- What `parse_md_line` takes for bytes behind the ones of the line, up to so many. -/
def absorbed : ℕ → Text → List UInt8
  | 0, _ => []
  | n + 1, text => ((many1 isAsciiSpace text).bind fun q => hexRun n q.2).getD []

lemma hexRun_eq (n : ℕ) (text : Text) :
    hexRun n text = (hexPair text).map fun p => p.1 :: absorbed n p.2 := by
  cases n with
  | zero => rfl
  | succ n => rfl

lemma hexRun_append (b : UInt8) (bs : List UInt8) {n : ℕ} (rest : Text) (h : bs.length ≤ n) :
    hexRun n (hexDigits 2 b.toNat ++ ((bs.flatMap fun b => ' ' :: hexDigits 2 b.toNat) ++ rest)) =
      some (b :: bs ++ absorbed (n - bs.length) rest) := by
  induction bs generalizing b n with
  | nil =>
      rw [hexRun_eq, hexPair_hexDigits]
      rfl
  | cons b' bs ih =>
      obtain ⟨n, rfl⟩ := Nat.exists_eq_add_of_le' (Nat.le_trans (Nat.le_add_left 1 _) h)
      rw [hexRun_eq, hexPair_hexDigits, Option.map_some, absorbed, List.flatMap_cons,
        List.cons_append, List.cons_append, List.append_assoc, many1_blank_hexDigits,
        Option.bind_some, ih b' (Nat.le_of_succ_le_succ h), Option.getD_some, List.length_cons,
        Nat.add_sub_add_right]
      rfl

/-- Something is absorbed if there is room for it and a pair of digits follows the white space. -/
lemma absorbed_eq_nil_iff {n : ℕ} {text : Text} : absorbed n text = [] ↔ n = 0 ∨ Stops text := by
  cases n with
  | zero => exact iff_of_true rfl (.inl rfl)
  | succ n =>
      rw [absorbed, or_iff_right (Nat.succ_ne_zero n)]
      constructor
      · intro h q hq
        rw [hq, Option.bind_some, hexRun_eq] at h
        cases hpair : hexPair q.2 with
        | none => rfl
        | some p =>
            rw [hpair] at h
            cases h
      · intro h
        cases hspace : many1 isAsciiSpace text with
        | none => rfl
        | some q => rw [Option.bind_some, hexRun_eq, h q hspace]; rfl

lemma rdropWhile_append_concat {p : Char → Bool} {c : Char} (hc : p c = false) (xs tail : Text) :
    (xs ++ [c] ++ tail).rdropWhile p = xs ++ [c] ++ tail.rdropWhile p := by
  induction tail using List.reverseRecOn with
  | nil =>
      rw [List.append_nil, List.rdropWhile_concat_neg _ _ _ (by simp [hc]), List.rdropWhile_nil,
        List.append_nil]
  | append_singleton tail d ih =>
      rw [← List.append_assoc, List.rdropWhile_concat, List.rdropWhile_concat, ih]
      split
      · rfl
      · rw [← List.append_assoc]

/-- Stripping blanks at the end makes no digits out of a text. -/
lemma stops_rdropWhile {tail : Text} (h : hexPair (tail.dropWhile isAsciiSpace) = none) :
    Stops (tail.rdropWhile isAsciiSpace) := by
  intro q hq
  obtain ⟨blanks, hblanks⟩ := List.rdropWhile_prefix isAsciiSpace (l := tail)
  obtain ⟨hsplit, -, hspace, hhead⟩ := many1_eq_some_iff.mp hq
  by_contra hsome
  have hdrop : tail.dropWhile isAsciiSpace = q.2 ++ blanks := by
    rw [← hblanks, hsplit, List.append_assoc, List.dropWhile_append_of_pos hspace]
    obtain ⟨c, cs, hcons⟩ := List.exists_cons_of_ne_nil (l := q.2) (by
      rintro hnil
      rw [hnil] at hsome
      exact hsome rfl)
    rw [hcons] at hhead ⊢
    rw [List.cons_append, List.dropWhile_cons, hhead c rfl]
    rfl
  rw [hdrop] at h
  apply hsome
  rcases hq2 : q.2 with _ | ⟨a, _ | ⟨b, rest⟩⟩
  · rfl
  · rfl
  · rw [hq2] at h
    exact hexPair_eq_none_iff.mpr (hexPair_eq_none_iff.mp h)

namespace MdLine

variable {ram : Store UInt8} {l : MdLine}

lemma exists_bytes (ram : Store UInt8) (l : MdLine) :
    ∃ b bs, l.bytes ram = b :: bs ∧ bs.length + 1 = l.count := by
  have hlen : (l.bytes ram).length = l.count := Store.length_load ..
  have := l.count_pos
  obtain ⟨b, bs, hcons⟩ := List.exists_cons_of_length_pos (l := l.bytes ram) (by omega)
  exact ⟨b, bs, hcons, by rw [← hlen, hcons, List.length_cons]⟩

/-- Up to the text column a line ends with a digit. -/
lemma exists_concat (ram : Store UInt8) (l : MdLine) :
    ∃ xs c, hexDigits 8 l.label ++
        (':' :: ((l.bytes ram).flatMap fun b => ' ' :: hexDigits 2 b.toNat)) = xs ++ [c] ∧
      isAsciiSpace c = false := by
  obtain ⟨b, bs, hbytes, -⟩ := exists_bytes ram l
  obtain ⟨bs', b', hlast⟩ : ∃ bs' b', l.bytes ram = bs' ++ [b'] := by
    rw [hbytes]
    exact ⟨(b :: bs).dropLast, (b :: bs).getLast (List.cons_ne_nil b bs),
      (List.dropLast_concat_getLast _).symm⟩
  refine ⟨hexDigits 8 l.label ++ (':' :: ((bs'.flatMap fun b => ' ' :: hexDigits 2 b.toNat) ++
    (' ' :: hexDigits 1 (b'.toNat / 16)))), Nat.digitChar (b'.toNat % 16), ?_,
    isAsciiSpace_digitChar _ (Nat.mod_lt _ (by decide))⟩
  rw [hlast, List.flatMap_append]
  simp [hexDigits]

/-- What is behind the bytes of a line when its end is stripped. -/
def tail (ram : Store UInt8) (l : MdLine) : Text :=
  (List.replicate l.pad ' ' ++ l.column ram).rdropWhile isAsciiSpace

/-- What is left of the line when the blanks at its end are stripped. -/
lemma strip_text (ram : Store UInt8) (l : MdLine) :
    PyChars.ascii.strip (l.text ram) =
      hexDigits 8 l.label ++ (':' :: ((l.bytes ram).flatMap fun b => ' ' :: hexDigits 2 b.toNat)) ++
        l.tail ram := by
  obtain ⟨xs, c, hconcat, hc⟩ := exists_concat ram l
  have hfront : (l.text ram).dropWhile isAsciiSpace = l.text ram := by
    rw [text, List.append_assoc, dropWhile_hexDigits]
  change ((l.text ram).dropWhile isAsciiSpace).rdropWhile isAsciiSpace = _
  rw [hfront, text, hconcat]
  exact rdropWhile_append_concat hc xs _

/-- **What `parse_md_line` reads** from a line: its bytes, and what it takes for more. -/
lemma parseMdLine_text_eq (ram : Store UInt8) (l : MdLine) :
    parseMdLine (l.text ram) =
      some (l.label, l.bytes ram ++ absorbed (16 - l.count) (l.tail ram)) := by
  obtain ⟨b, bs, hbytes, hcount⟩ := exists_bytes ram l
  have hle := l.count_le
  have hrun := hexRun_append b bs (n := 15) (l.tail ram) (by omega)
  have hroom : 15 - bs.length = 16 - l.count := by omega
  rw [hroom] at hrun
  rw [parseMdLine, strip_text, hbytes]
  dsimp only
  rw [List.append_assoc, take_label, drop_label, if_pos (label_digits l.label),
    hexNumber_hexDigits l.label_lt, List.cons_append, List.flatMap_cons, List.cons_append,
    List.cons_append, List.append_assoc]
  simp only [lit_colon, many1_blank_hexDigits, hrun, Option.bind_eq_bind, Option.bind_some]
  rfl

/-- **A line is read back**, for the bytes it shows, unless its text column is taken for more. -/
lemma parseMdLine_text (h : l.Plain ram) :
    parseMdLine (l.text ram) = some (l.label, l.bytes ram) := by
  have hblanks : ∀ c ∈ List.replicate l.pad ' ', isAsciiSpace c = true := by
    intro c hc
    rw [List.eq_of_mem_replicate hc]
    rfl
  have hnone : absorbed (16 - l.count) (l.tail ram) = [] := by
    apply absorbed_eq_nil_iff.mpr
    refine h.imp (fun hfull => by omega) fun hcolumn => stops_rdropWhile ?_
    rwa [List.dropWhile_append_of_pos hblanks]
  rw [parseMdLine_text_eq, hnone, List.append_nil]

lemma take_text (ram : Store UInt8) (l : MdLine) : (l.text ram).take 8 = hexDigits 8 l.label := by
  rw [text, List.append_assoc, take_label]

/-- A text column that begins with no digit is not taken for bytes. -/
lemma plain_of_head (hspace : isAsciiSpace (columnChar (ram l.label)) = false)
    (hdigit : isHexDigit (columnChar (ram l.label)) = false) : l.Plain ram := by
  obtain ⟨n, hn⟩ := Nat.exists_eq_add_of_le' l.count_pos
  right
  rw [column, bytes, hn, Store.load_succ, List.map_cons, List.dropWhile_cons, hspace]
  cases hrest : (ram.load (l.label + 1) n).map columnChar with
  | nil => rfl
  | cons c cs => exact hexPair_eq_none_iff.mpr (by rw [hdigit]; rfl)

end MdLine

end Defib
