import Defib.Dump.MdOutput

/-!
# Replies to `md.b`

What U-Boot prints for a window of its RAM, between the echo of the command and the prompt, and the
second parser of its lines, `parseMdLine` of `web/index.html`.

The two parsers differ in where a pair of digits may end: the browser's wants white space behind
each, and a line is trimmed first.
-/

namespace Defib

/-! ## What U-Boot prints -/

/-- What `md.b` was asked for: the bytes from an address on.  The address of the last line has eight
digits. -/
structure MdDump where
  address : ℕ
  data : List UInt8
  data_ne : data ≠ []
  fits : address + 16 * ((data.length - 1) / 16) < 16 ^ 8

/-- How a console ends its lines. -/
def lineEnd (crlf : Bool) : Text := if crlf then ['\r', '\n'] else ['\n']

namespace MdDump

variable (d : MdDump)

/-- A RAM with the bytes in place. -/
def ram : Store UInt8 := Store.write (fun _ => 0) d.address d.data

/-- The line of the bytes from `16 * k` on.  The text column begins where it does in a full line. -/
def line (k : ℕ) (h : 16 * k < d.data.length) : MdLine where
  label := d.address + 16 * k
  count := min 16 (d.data.length - 16 * k)
  pad := 3 * (16 - min 16 (d.data.length - 16 * k)) + 4
  label_lt := by
    have := d.fits
    omega
  count_pos := by omega
  count_le := Nat.min_le_left _ _

def lines : List MdLine :=
  List.ofFn fun k : Fin ((d.data.length + 15) / 16) => d.line k (by omega)

/-- The echo of the command, the lines, and the prompt. -/
def replyLines (echo prompt : Text) : List Text :=
  echo :: (d.lines.map fun l => l.text d.ram) ++ [prompt]

/-- What is read from the console. -/
def reply (crlf : Bool) (echo prompt : Text) : Text :=
  echo ++ lineEnd crlf ++ (d.lines.flatMap fun l => l.text d.ram ++ lineEnd crlf) ++ prompt

lemma mem_lines {l : MdLine} : l ∈ d.lines ↔ ∃ k h, l = d.line k h := by
  rw [lines, List.mem_ofFn]
  constructor
  · rintro ⟨k, rfl⟩
    exact ⟨k, by omega, rfl⟩
  · rintro ⟨k, h, rfl⟩
    exact ⟨⟨k, by omega⟩, rfl⟩

lemma load_ram : d.ram.load d.address d.data.length = d.data :=
  Store.load_write_self _ _ _

end MdDump

/-- A line of its own without eight hexadecimal digits and a colon behind them, such as a command or
a prompt. -/
structure OtherLine (line : Text) : Prop where
  unbroken : ∀ c ∈ line, isLineBreak c = false
  noLabel : ∀ digits : Text, digits.length = 8 → digits.all isHexDigit = true →
    ¬ digits ++ [':'] <:+: line

/-! ## The parser of the browser -/

/-- Does `\s` hold of this character of `String.fromCharCode(byte)`? -/
def isJsSpace (c : Char) : Bool :=
  (9 ≤ c.toNat && c.toNat ≤ 13) || c.toNat = 32 || c.toNat = 160

namespace Web

/-- `text.trim()`. -/
def trim (text : Text) : Text :=
  ((text.dropWhile isJsSpace).reverse.dropWhile isJsSpace).reverse

/-- The pattern `(?:[0-9a-fA-F]{2}\s+){0,n}`. -/
def hexPairs : ℕ → Text → List UInt8
  | 0, _ => []
  | n + 1, text =>
      ((hexPair text).bind fun p =>
        (many1 isJsSpace p.2).map fun q => p.1 :: hexPairs n q.2).getD []

/-- `parseMdLine`. -/
def parseMdLine (line : Text) : Option (ℕ × List UInt8) :=
  let text := trim line
  let digits := text.take 8
  if digits.length = 8 ∧ digits.all isHexDigit then do
    let rest ← lit [':'] (text.drop 8)
    let (_, rest) ← many1 isJsSpace rest
    let data := hexPairs 16 rest
    if data = [] then none else return (hexNumber digits, data)
  else none

end Web

/-! ## Characters of a line -/

/-- From the blank to the tilde. -/
def Printable (text : Text) : Prop := ∀ c ∈ text, 32 ≤ c.toNat ∧ c.toNat < 127

lemma Printable.append {xs ys : Text} (hx : Printable xs) (hy : Printable ys) :
    Printable (xs ++ ys) :=
  fun c hc => (List.mem_append.mp hc).elim (hx c) (hy c)

lemma printable_hexDigits (w n : ℕ) : Printable (hexDigits w n) := by
  refine forall_mem_hexDigits (p := fun c => 32 ≤ c.toNat ∧ c.toNat < 127) ?_ w n
  decide

lemma printable_columnChar (b : UInt8) :
    32 ≤ (columnChar b).toNat ∧ (columnChar b).toNat < 127 := by
  rw [columnChar]
  split_ifs with h
  · have hvalid : b.toNat.isValidChar := .inl (by omega)
    rw [Char.ofNat, dif_pos hvalid]
    exact h
  · decide

lemma printable_blanks (n : ℕ) : Printable (List.replicate n ' ') := by
  intro c hc
  rw [List.eq_of_mem_replicate hc]
  decide

namespace MdLine

variable (ram : Store UInt8) (l : MdLine)

lemma printable_column : Printable (l.column ram) := by
  intro c hc
  obtain ⟨b, -, rfl⟩ := List.mem_map.mp hc
  exact printable_columnChar b

lemma printable_text : Printable (l.text ram) := by
  refine ((printable_hexDigits 8 l.label).append ?_).append
    ((printable_blanks l.pad).append (l.printable_column ram))
  intro c hc
  rcases List.mem_cons.mp hc with rfl | hc
  · decide
  · obtain ⟨b, -, hb⟩ := List.mem_flatMap.mp hc
    rcases List.mem_cons.mp hb with rfl | hb
    · decide
    · exact printable_hexDigits 2 b.toNat c hb

end MdLine

/-- On printable characters the two notions of white space agree. -/
lemma isJsSpace_eq {c : Char} (h : 32 ≤ c.toNat ∧ c.toNat < 127) :
    isJsSpace c = isAsciiSpace c := by
  rw [Bool.eq_iff_iff]
  simp only [isJsSpace, isAsciiSpace, Bool.or_eq_true, Bool.and_eq_true, decide_eq_true_eq]
  omega

lemma isAsciiSpace_iff {c : Char} (h : 32 ≤ c.toNat ∧ c.toNat < 127) :
    isAsciiSpace c = true ↔ c = ' ' := by
  constructor
  · intro hspace
    have hvalue : c.toNat = 32 := by
      simp only [isAsciiSpace, Bool.or_eq_true, Bool.and_eq_true, decide_eq_true_eq] at hspace
      omega
    exact Char.toNat_inj.mp hvalue
  · rintro rfl
    rfl

lemma isLineBreak_of_printable {c : Char} (h : 32 ≤ c.toNat ∧ c.toNat < 127) :
    isLineBreak c = false := by
  rw [Bool.eq_false_iff]
  simp only [isLineBreak, ne_eq, Bool.or_eq_true, Bool.and_eq_true, decide_eq_true_eq]
  omega

lemma dropWhile_congr_mem {p q : Char → Bool} {text : Text} (h : ∀ c ∈ text, p c = q c) :
    text.dropWhile p = text.dropWhile q := by
  induction text with
  | nil => rfl
  | cons c cs ih =>
      obtain ⟨hc, hcs⟩ := List.forall_mem_cons.mp h
      rw [List.dropWhile_cons, List.dropWhile_cons, hc, ih hcs]

lemma takeWhile_congr_mem {p q : Char → Bool} {text : Text} (h : ∀ c ∈ text, p c = q c) :
    text.takeWhile p = text.takeWhile q := by
  induction text with
  | nil => rfl
  | cons c cs ih =>
      obtain ⟨hc, hcs⟩ := List.forall_mem_cons.mp h
      rw [List.takeWhile_cons, List.takeWhile_cons, hc, ih hcs]

/-- The two parsers trim a printable line alike. -/
lemma trim_eq_strip {text : Text} (h : Printable text) :
    Web.trim text = PyChars.ascii.strip text := by
  have hall : ∀ c ∈ text, isJsSpace c = isAsciiSpace c := fun c hc => isJsSpace_eq (h c hc)
  have hback : ∀ c ∈ (text.dropWhile isAsciiSpace).reverse, isJsSpace c = isAsciiSpace c :=
    fun c hc => hall c ((List.dropWhile_sublist _).mem (List.mem_reverse.mp hc))
  change ((text.dropWhile isJsSpace).reverse.dropWhile isJsSpace).reverse =
    ((text.dropWhile isAsciiSpace).reverse.dropWhile isAsciiSpace).reverse
  rw [dropWhile_congr_mem hall, dropWhile_congr_mem hback]

lemma many1_congr_mem {p q : Char → Bool} {text : Text} (h : ∀ c ∈ text, p c = q c) :
    many1 p text = many1 q text := by
  rw [many1, many1, takeWhile_congr_mem h, dropWhile_congr_mem h]

/-! ## Bytes behind the bytes -/

lemma isAsciiSpace_of_isHexDigit {c : Char} (h : isHexDigit c = true) : isAsciiSpace c = false := by
  have hge : 48 ≤ c.toNat := by
    simp only [isHexDigit, Char.isDigit, Bool.or_eq_true, Bool.and_eq_true, decide_eq_true_eq,
      ge_iff_le, Char.le_def, UInt32.le_iff_toNat_le] at h
    rcases h with (h | h) | h
    · exact h.1
    · exact Nat.le_trans (by decide) h.1
    · exact Nat.le_trans (by decide) h.1
  rw [Bool.eq_false_iff]
  simp only [isAsciiSpace, ne_eq, Bool.or_eq_true, Bool.and_eq_true, decide_eq_true_eq]
  omega

/-- Blanks in front of two digits are where a line goes on, also when its end is stripped. -/
lemma stops_rdropWhile_iff {blanks column : Text} (hne : blanks ≠ [])
    (hblanks : ∀ c ∈ blanks, isAsciiSpace c = true) :
    Stops ((blanks ++ column).rdropWhile isAsciiSpace) ↔
      hexPair (column.dropWhile isAsciiSpace) = none := by
  rw [← List.dropWhile_append_of_pos hblanks]
  refine ⟨fun hstops => ?_, stops_rdropWhile⟩
  by_contra hpair
  set tail := blanks ++ column
  rcases hdrop : tail.dropWhile isAsciiSpace with _ | ⟨a, _ | ⟨b, rest⟩⟩
  · rw [hdrop] at hpair
    exact hpair rfl
  · rw [hdrop] at hpair
    exact hpair rfl
  · rw [hdrop, hexPair_eq_none_iff, Bool.not_eq_false, Bool.and_eq_true] at hpair
    have ha := isAsciiSpace_of_isHexDigit hpair.1
    have hb := isAsciiSpace_of_isHexDigit hpair.2
    have hstrip : tail.rdropWhile isAsciiSpace =
        tail.takeWhile isAsciiSpace ++ (a :: b :: rest.rdropWhile isAsciiSpace) := by
      have hsplit : tail = tail.takeWhile isAsciiSpace ++ [a] ++ [b] ++ rest := by
        rw [List.append_assoc, List.append_assoc, List.singleton_append, List.singleton_append,
          ← hdrop, List.takeWhile_append_dropWhile]
      conv_lhs => rw [hsplit]
      rw [rdropWhile_append_concat hb, List.append_assoc, List.append_assoc]
      rfl
    have hspace : many1 isAsciiSpace (tail.rdropWhile isAsciiSpace) =
        some (tail.takeWhile isAsciiSpace, a :: b :: rest.rdropWhile isAsciiSpace) := by
      rw [hstrip]
      apply many1_append
      · obtain ⟨c, cs, rfl⟩ := List.exists_cons_of_ne_nil hne
        change (c :: (cs ++ column)).takeWhile isAsciiSpace ≠ []
        rw [List.takeWhile_cons, hblanks c List.mem_cons_self]
        exact List.cons_ne_nil _ _
      · exact fun x hx => List.all_eq_true.mp List.all_takeWhile x hx
      · intro y hy
        obtain rfl := Option.some.inj hy
        exact ha
    have hnone := hexPair_eq_none_iff.mp (hstops _ hspace)
    rw [hpair.1, hpair.2] at hnone
    cases hnone

namespace MdLine

variable {ram : Store UInt8} {l : MdLine}

/-- Nothing is taken for more exactly when the line is plain. -/
lemma absorbed_eq_nil_iff_plain (hpad : 0 < l.pad) :
    absorbed (16 - l.count) (l.tail ram) = [] ↔ l.Plain ram := by
  have hle := l.count_le
  rw [absorbed_eq_nil_iff, tail, stops_rdropWhile_iff, Plain]
  · exact or_congr_left (by omega)
  · exact List.length_pos_iff.mp (by rwa [List.length_replicate])
  · intro c hc
    rw [List.eq_of_mem_replicate hc]
    rfl

end MdLine

namespace Web

lemma hexPairs_succ (n : ℕ) (text : Text) :
    hexPairs (n + 1) text =
      ((hexPair text).bind fun p =>
        (many1 isJsSpace p.2).map fun q => p.1 :: hexPairs n q.2).getD [] := rfl

lemma hexPairs_of_hexPair {text : Text} (h : hexPair text = none) (n : ℕ) :
    hexPairs n text = [] := by
  cases n with
  | zero => rfl
  | succ n => rw [hexPairs_succ, h]; rfl

lemma many1_blank_hexDigits (n : ℕ) (rest : Text) :
    many1 isJsSpace (' ' :: (hexDigits 2 n ++ rest)) = some ([' '], hexDigits 2 n ++ rest) := by
  change many1 isJsSpace ([' '] ++ (hexDigits 2 n ++ rest)) = _
  refine many1_append (List.cons_ne_nil _ _) (forall_mem_of_all (by decide)) fun y hy => ?_
  have hmem : y ∈ hexDigits 2 n := by
    obtain rfl : Nat.digitChar (n / 16 % 16) = y := Option.some.inj hy
    exact List.mem_cons_self
  rw [isJsSpace_eq (printable_hexDigits 2 n y hmem)]
  exact forall_mem_hexDigits (p := fun c => isAsciiSpace c = false) isAsciiSpace_digitChar 2 n y
    hmem

/-- All bytes but the last have a blank behind them. -/
lemma hexPairs_bytes (b : UInt8) (bs : List UInt8) {n : ℕ} (rest : Text) (h : bs.length < n) :
    hexPairs n (hexDigits 2 b.toNat ++ ((bs.flatMap fun b => ' ' :: hexDigits 2 b.toNat) ++ rest)) =
      (b :: bs).dropLast ++ hexPairs (n - bs.length)
        (hexDigits 2 ((b :: bs).getLast (List.cons_ne_nil b bs)).toNat ++ rest) := by
  induction bs generalizing b n with
  | nil => rfl
  | cons b' bs ih =>
      obtain ⟨n, rfl⟩ := Nat.exists_eq_add_of_le' (Nat.le_trans (Nat.le_add_left 1 _) h)
      rw [hexPairs_succ, hexPair_hexDigits, Option.bind_some]
      dsimp only
      rw [List.flatMap_cons, List.cons_append, List.cons_append, List.append_assoc,
        many1_blank_hexDigits, Option.map_some, ih b' (Nat.lt_of_succ_lt_succ h), Option.getD_some,
        List.length_cons, Nat.add_sub_add_right]
      rfl

/-- The bytes of a line that goes on behind them with white space. -/
lemma hexPairs_append (b : UInt8) (bs : List UInt8) {n : ℕ} {rest : Text} (h : bs.length < n)
    {q : Text × Text} (hspace : many1 isJsSpace rest = some q) :
    hexPairs n (hexDigits 2 b.toNat ++ ((bs.flatMap fun b => ' ' :: hexDigits 2 b.toNat) ++ rest)) =
      b :: bs ++ hexPairs (n - (bs.length + 1)) q.2 := by
  obtain ⟨m, hm⟩ := Nat.exists_eq_add_one_of_ne_zero (Nat.sub_ne_zero_of_lt h)
  have hroom : n - (bs.length + 1) = m := by omega
  rw [hexPairs_bytes b bs rest h, hm, hexPairs_succ, hexPair_hexDigits, Option.bind_some]
  dsimp only
  rw [hspace, Option.map_some, Option.getD_some, hroom, List.append_cons,
    List.dropLast_concat_getLast]

/-- The bytes of a line that ends behind them: the last one is missing. -/
lemma hexPairs_end (b : UInt8) (bs : List UInt8) {n : ℕ} (h : bs.length < n) :
    hexPairs n (hexDigits 2 b.toNat ++ ((bs.flatMap fun b => ' ' :: hexDigits 2 b.toNat) ++ [])) =
      (b :: bs).dropLast := by
  obtain ⟨m, hm⟩ := Nat.exists_eq_add_one_of_ne_zero (Nat.sub_ne_zero_of_lt h)
  have hend : many1 isJsSpace [] = none := rfl
  rw [hexPairs_bytes b bs [] h, hm, hexPairs_succ, hexPair_hexDigits, Option.bind_some]
  dsimp only
  rw [hend, Option.map_none, Option.getD_none, List.append_nil]

end Web

namespace MdLine

variable {ram : Store UInt8} {l : MdLine}

/-- The text column is not blank. -/
def Visible (ram : Store UInt8) (l : MdLine) : Prop := ∃ b ∈ l.bytes ram, columnChar b ≠ ' '

lemma tail_eq_nil_iff : l.tail ram = [] ↔ ¬ l.Visible ram := by
  rw [tail, List.rdropWhile_eq_nil_iff, Visible]
  push Not
  constructor
  · intro h b hb
    have hmem := List.mem_map_of_mem (f := columnChar) hb
    exact (isAsciiSpace_iff (printable_columnChar b)).mp (h _ (List.mem_append_right _ hmem))
  · intro h c hc
    rcases List.mem_append.mp hc with hc | hc
    · rw [List.eq_of_mem_replicate hc]
      rfl
    · obtain ⟨b, hb, rfl⟩ := List.mem_map.mp hc
      rw [h b hb]
      rfl

lemma tail_start (ram : Store UInt8) (l : MdLine) :
    l.tail ram <+: List.replicate l.pad ' ' ++ l.column ram :=
  List.rdropWhile_prefix isAsciiSpace _

lemma printable_tail (ram : Store UInt8) (l : MdLine) : Printable (l.tail ram) := fun c hc =>
  ((printable_blanks l.pad).append (l.printable_column ram)) c ((tail_start ram l).subset hc)

/-- What the browser reads is what it reads from the pairs of digits and what is behind them. -/
lemma web_parseMdLine_text_eq {b : UInt8} {bs : List UInt8} (hbytes : l.bytes ram = b :: bs) :
    Web.parseMdLine (l.text ram) =
      let data := Web.hexPairs 16 (hexDigits 2 b.toNat ++
        ((bs.flatMap fun b => ' ' :: hexDigits 2 b.toNat) ++ l.tail ram))
      if data = [] then none else some (l.label, data) := by
  rw [Web.parseMdLine, trim_eq_strip (l.printable_text ram), strip_text, hbytes]
  dsimp only
  rw [List.append_assoc, take_label, drop_label, if_pos (label_digits l.label),
    hexNumber_hexDigits l.label_lt, List.cons_append, List.flatMap_cons, List.cons_append,
    List.cons_append, List.append_assoc]
  simp only [lit_colon, Web.many1_blank_hexDigits, Option.bind_eq_bind, Option.bind_some]
  rfl

/-- With something in the text column, there are blanks behind the bytes. -/
lemma many1_tail (hpad : 0 < l.pad) (h : l.Visible ram) :
    many1 isAsciiSpace (l.tail ram) =
      some ((l.tail ram).takeWhile isAsciiSpace, (l.tail ram).dropWhile isAsciiSpace) := by
  have hne : l.tail ram ≠ [] := mt tail_eq_nil_iff.mp (not_not.mpr h)
  obtain ⟨c, cs, hcons⟩ := List.exists_cons_of_ne_nil hne
  obtain ⟨n, hn⟩ := Nat.exists_eq_add_one_of_ne_zero (Nat.ne_of_gt hpad)
  have hblank : c = ' ' := by
    have hprefix := tail_start ram l
    rw [hcons, hn, List.replicate_succ, List.cons_append, List.cons_prefix_cons] at hprefix
    exact hprefix.1
  rw [many1, if_neg]
  rw [hcons, hblank, List.isEmpty_iff]
  exact List.cons_ne_nil _ _

/-- **What the browser reads** from a line with something in its text column. -/
lemma web_parseMdLine_of_visible (hpad : 0 < l.pad) (h : l.Visible ram) :
    Web.parseMdLine (l.text ram) = some (l.label,
      l.bytes ram ++ Web.hexPairs (16 - l.count) ((l.tail ram).dropWhile isAsciiSpace)) := by
  obtain ⟨b, bs, hbytes, hcount⟩ := exists_bytes ram l
  have hle := l.count_le
  have hspace := many1_tail hpad h
  rw [← many1_congr_mem fun c hc => isJsSpace_eq (printable_tail ram l c hc)] at hspace
  have hroom : 16 - (bs.length + 1) = 16 - l.count := by rw [hcount]
  rw [web_parseMdLine_text_eq hbytes, Web.hexPairs_append b bs (by omega) hspace, hroom, hbytes]
  rfl

/-- From a line with a blank text column the browser reads all but its last byte. -/
lemma web_parseMdLine_of_not_visible (h : ¬ l.Visible ram) :
    Web.parseMdLine (l.text ram) =
      if (l.bytes ram).dropLast = [] then none else some (l.label, (l.bytes ram).dropLast) := by
  obtain ⟨b, bs, hbytes, hcount⟩ := exists_bytes ram l
  have hle := l.count_le
  rw [web_parseMdLine_text_eq hbytes, tail_eq_nil_iff.mpr h, Web.hexPairs_end b bs (by omega),
    hbytes]

/-- **The two parsers agree** on a plain line exactly when its text column is not blank. -/
lemma web_parseMdLine_eq_iff (hpad : 0 < l.pad) (h : l.Plain ram) :
    Web.parseMdLine (l.text ram) = parseMdLine (l.text ram) ↔ l.Visible ram := by
  obtain ⟨b, bs, hbytes, hcount⟩ := exists_bytes ram l
  rw [parseMdLine_text h]
  constructor
  · intro heq
    by_contra hblank
    rw [web_parseMdLine_of_not_visible hblank] at heq
    split_ifs at heq
    have hlen := congrArg List.length (congrArg Prod.snd (Option.some.inj heq))
    rw [List.length_dropLast, hbytes, List.length_cons] at hlen
    omega
  · intro hvisible
    have hrest : Web.hexPairs (16 - l.count) ((l.tail ram).dropWhile isAsciiSpace) = [] := by
      rcases absorbed_eq_nil_iff.mp ((absorbed_eq_nil_iff_plain hpad).mpr h) with hfull | hstops
      · rw [hfull]
        rfl
      · exact Web.hexPairs_of_hexPair (hstops _ (many1_tail hpad hvisible)) _
    rw [web_parseMdLine_of_visible hpad hvisible, hrest, List.append_nil]

end MdLine

/-! ## The lines of a reply -/

lemma splitlinesFrom_unbroken {xs : Text} (h : ∀ c ∈ xs, isLineBreak c = false) (cur rest : Text) :
    splitlinesFrom false cur (xs ++ rest) = splitlinesFrom false (xs.reverse ++ cur) rest := by
  induction xs generalizing cur with
  | nil => rfl
  | cons x xs ih =>
      obtain ⟨hx, hxs⟩ := List.forall_mem_cons.mp h
      rw [List.cons_append, splitlinesFrom, Bool.false_and, if_neg Bool.false_ne_true, hx,
        if_neg Bool.false_ne_true, ih hxs, List.reverse_cons, List.append_assoc]
      rfl

/-- **A line ends at its end**, and the others follow. -/
lemma splitlines_append {line : Text} (h : ∀ c ∈ line, isLineBreak c = false) (crlf : Bool)
    (rest : Text) : splitlines (line ++ (lineEnd crlf ++ rest)) = line :: splitlines rest := by
  rw [splitlines, splitlinesFrom_unbroken h, List.append_nil]
  have hline : line.reverse.reverse = line := List.reverse_reverse line
  cases crlf with
  | false => exact congrArg (· :: splitlines rest) hline
  | true => exact congrArg (· :: splitlines rest) hline

lemma splitlines_unbroken {line : Text} (h : ∀ c ∈ line, isLineBreak c = false) :
    splitlines line = if line = [] then [] else [line] := by
  have hend := splitlinesFrom_unbroken h [] []
  rw [List.append_nil, List.append_nil] at hend
  rw [splitlines, hend, splitlinesFrom, List.reverse_reverse]
  exact if_congr (by rw [List.reverse_eq_nil_iff]) rfl rfl

namespace OtherLine

variable {line : Text}

lemma lit_eq_none (h : OtherLine line) {text : Text} (hpart : text <:+: line)
    (hdigits : (text.take 8).length = 8 ∧ (text.take 8).all isHexDigit = true) :
    lit [':'] (text.drop 8) = none := by
  rw [Option.eq_none_iff_forall_ne_some]
  intro rest hrest
  refine h.noLabel _ hdigits.1 hdigits.2 (List.IsInfix.trans ⟨[], rest, ?_⟩ hpart)
  rw [List.nil_append, List.append_assoc, ← lit_eq_some_iff.mp hrest, List.take_append_drop]

lemma trimmed_part (p : Char → Bool) (line : Text) :
    ((line.dropWhile p).reverse.dropWhile p).reverse <:+: line := by
  have hback : (line.dropWhile p).rdropWhile p <:+: line.dropWhile p :=
    (List.rdropWhile_prefix p _).isInfix
  exact hback.trans (List.dropWhile_suffix p).isInfix

lemma of_no_colon (hbreak : ∀ c ∈ line, isLineBreak c = false) (hcolon : ':' ∉ line) :
    OtherLine line where
  unbroken := hbreak
  noLabel digits _ _ hpart :=
    hcolon (hpart.subset (List.mem_append_right digits List.mem_cons_self))

/-- Neither parser takes it for data. -/
lemma parseMdLine_eq_none (h : OtherLine line) : parseMdLine line = none := by
  rw [parseMdLine]
  dsimp only
  split_ifs with hdigits
  · have hpart : PyChars.ascii.strip line <:+: line := trimmed_part isAsciiSpace line
    rw [h.lit_eq_none hpart hdigits]
    rfl
  · rfl

lemma web_parseMdLine_eq_none (h : OtherLine line) : Web.parseMdLine line = none := by
  rw [Web.parseMdLine]
  dsimp only
  split_ifs with hdigits
  · have hpart : Web.trim line <:+: line := trimmed_part isJsSpace line
    rw [h.lit_eq_none hpart hdigits]
    rfl
  · rfl

end OtherLine

namespace MdDump

variable (d : MdDump) {crlf : Bool} {echo prompt : Text}

lemma splitlines_lines (crlf : Bool) (ls : List MdLine) (rest : Text) :
    splitlines ((ls.flatMap fun l => l.text d.ram ++ lineEnd crlf) ++ rest) =
      (ls.map fun l => l.text d.ram) ++ splitlines rest := by
  induction ls with
  | nil => rfl
  | cons l ls ih =>
      have hl : ∀ c ∈ l.text d.ram, isLineBreak c = false :=
        fun c hc => isLineBreak_of_printable (l.printable_text d.ram c hc)
      rw [List.flatMap_cons, List.append_assoc, List.append_assoc, splitlines_append hl, ih]
      rfl

/-- What is read from the lines of the dump. -/
def pieces : List (ℕ × List UInt8) :=
  d.lines.map fun l => (l.label, l.bytes d.ram ++ absorbed (16 - l.count) (l.tail d.ram))

/-- Only the lines of the dump are taken for data. -/
lemma mdEntries_reply (hecho : OtherLine echo) (hprompt : OtherLine prompt) :
    mdEntries (d.reply crlf echo prompt) = d.pieces := by
  have hend : (splitlines prompt).filterMap parseMdLine = [] := by
    rw [splitlines_unbroken hprompt.unbroken]
    split_ifs
    · rfl
    · rw [List.filterMap_cons_none hprompt.parseMdLine_eq_none]
      rfl
  have hlines : (d.lines.map fun l => l.text d.ram).filterMap parseMdLine = d.pieces := by
    rw [List.filterMap_map, pieces, ← List.filterMap_eq_map]
    refine List.filterMap_congr fun l _ => ?_
    rw [Function.comp_apply, Function.comp_apply, MdLine.parseMdLine_text_eq]
  rw [mdEntries, reply, List.append_assoc, List.append_assoc, splitlines_append hecho.unbroken,
    List.filterMap_cons_none hecho.parseMdLine_eq_none, splitlines_lines, List.filterMap_append,
    hend, hlines, List.append_nil]

end MdDump

end Defib
