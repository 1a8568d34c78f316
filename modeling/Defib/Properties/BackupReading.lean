import Defib.Properties.MtdpartsReading
import Defib.Restore.Backup

/-!
# What is read back of a backup

A `Backup` is a list of partitions as ipctool writes it: a YAML header that lists names and sizes,
a zero byte, and the partitions, each behind its length.  The names have any characters but a
newline and NUL, and there may be other lines before and behind an entry.

`findall_header` says which entries the reader finds in the header: those whose line ends in
`name: ` and a word.  `readBlocks_take` says what it makes of a file that is cut off: it takes the
partitions that are there in full, and `backup_read_iff` puts together what holds of the whole
reader.
-/

namespace Defib

/-! ## Backups -/

/-- Lines without an entry. -/
structure IsOtherLines (text : Text) : Prop where
  no_name : ¬ "name: ".toList <:+: text
  no_nul : ∀ c ∈ text, c.toNat ≠ 0
  endsLine : ∀ c ∈ text.getLast?, c = '\n'

/-- An entry of the header with its partition. -/
structure BackupEntry where
  lead : Text
  name : Text
  indent : Text
  hex : Text
  extra : Text
  data : List UInt8
  isLead : ∀ c ∈ lead, c = ' ' ∨ c = '-'
  oneLine : ∀ c ∈ name, c ≠ '\n' ∧ c.toNat ≠ 0
  indent_ne_nil : indent ≠ []
  isIndent : ∀ c ∈ indent, isAsciiSpace c = true
  hex_ne_nil : hex ≠ []
  isHex : ∀ c ∈ hex, isHexDigit c = true
  isOtherLines : IsOtherLines extra
  size_eq : hexNumber hex = data.length
  length_lt : data.length < 2 ^ 32

namespace BackupEntry

/-- The line of the name, without its lead. -/
def line (e : BackupEntry) : Text := "name: ".toList ++ e.name

lemma line_eq (e : BackupEntry) : e.line = "name: ".toList ++ e.name := rfl

/-- The line of the size, from the newline before it. -/
def sizeLine (e : BackupEntry) : Text := '\n' :: (e.indent ++ ("size: 0x".toList ++ e.hex))

/-- The entry as it is written. -/
def text (e : BackupEntry) : Text := e.lead ++ (e.line ++ (e.sizeLine ++ '\n' :: e.extra))

/-- The partition behind its length. -/
def block (e : BackupEntry) : List UInt8 := packU32 e.data.length ++ e.data

end BackupEntry

/-- A backup. -/
structure Backup where
  before : Text
  entries : List BackupEntry
  isOtherLines : IsOtherLines before

namespace Backup

/-- The header. -/
def header (b : Backup) : Text := "---\n".toList ++ (b.before ++ b.entries.flatMap BackupEntry.text)

lemma header_eq (b : Backup) :
    b.header = "---\n".toList ++ (b.before ++ b.entries.flatMap BackupEntry.text) := rfl

/-- The file. -/
def raw (b : Backup) : List UInt8 :=
  encodeUtf8 b.header ++ 0 :: b.entries.flatMap BackupEntry.block

/-- The sizes of the partitions. -/
def sizes (b : Backup) : List ℕ := b.entries.map fun e => e.data.length

end Backup

/-! ## The entries that are found -/

section Header

variable (py : PyChars)

/-- The word at the end of a line, if `name: ` stands before it. -/
def listedName : Text → Option Text
  | [] => none
  | c :: cs =>
      match lit "name: ".toList (c :: cs) with
      | some word => if !word.isEmpty && word.all py.isWord then some word else listedName cs
      | none => listedName cs

/-- What the reader finds of an entry. -/
def BackupEntry.listed (e : BackupEntry) : Option (Text × Text) :=
  (listedName py e.line).map fun name => (name, e.hex)

variable {py}

lemma matchYamlPart_eq_none_of_ne {c : Char} (text : Text) (h : c ≠ 'n') :
    matchYamlPart py (c :: text) = none := by
  have hlit : lit "name: ".toList (c :: text) = none := by
    change (if 'n' = c then _ else none) = none
    rw [if_neg h.symm]
  rw [matchYamlPart, hlit]
  rfl

lemma isSpace_of_isAsciiSpace {c : Char} (h : isAsciiSpace c = true) : py.isSpace c = true := by
  rw [py.isSpace_ascii, h]
  simp only [isAsciiSpace, Bool.or_eq_true, Bool.and_eq_true, decide_eq_true_eq] at h
  omega

lemma isWord_newline : py.isWord '\n' = false := by
  rw [py.isWord_ascii _ (by decide)]
  decide

/-- Two texts that agree up to their first newline. -/
lemma eq_of_append_newline {a a' b b' : Text} (ha : '\n' ∉ a) (ha' : '\n' ∉ a')
    (h : a ++ '\n' :: b = a' ++ '\n' :: b') : a = a' ∧ b = b' := by
  have htake : ∀ {t : Text} (u : Text), '\n' ∉ t → (t ++ '\n' :: u).takeWhile (· ≠ '\n') = t := by
    intro t u ht
    refine takeWhile_append_stop (fun c hc => decide_eq_true ?_) fun c hc => ?_
    · rintro rfl
      exact ht hc
    · obtain rfl : '\n' = c := Option.some.inj hc
      decide
  have haa : a = a' := by rw [← htake b ha, h, htake b' ha']
  subst haa
  exact ⟨rfl, (List.cons.inj (List.append_cancel_left h)).2⟩

namespace BackupEntry

variable (e : BackupEntry)

lemma matchYamlPart_line {word : Text} (hne : word ≠ []) (hword : ∀ c ∈ word, py.isWord c = true)
    (rest : Text) :
    matchYamlPart py ("name: ".toList ++ word ++ (e.sizeLine ++ '\n' :: rest)) =
      some ((word, e.hex), '\n' :: rest) := by
  have hnewline : ∀ c ∈ (e.sizeLine ++ '\n' :: rest).head?, py.isWord c = false := by
    intro c hc
    obtain rfl : '\n' = c := Option.some.inj hc
    exact isWord_newline
  have hs : ∀ c ∈ ("size: 0x".toList ++ (e.hex ++ '\n' :: rest)).head?, py.isSpace c = false := by
    intro c hc
    obtain rfl : 's' = c := Option.some.inj hc
    rw [py.isSpace_ascii _ (by decide)]
    decide
  have hend : ∀ c ∈ ('\n' :: rest).head?, isHexDigit c = false := by
    intro c hc
    obtain rfl : '\n' = c := Option.some.inj hc
    decide
  have hsize : lit ['\n'] (e.sizeLine ++ '\n' :: rest) =
      some (e.indent ++ ("size: 0x".toList ++ (e.hex ++ '\n' :: rest))) := by
    rw [lit_eq_some_iff]
    simp only [sizeLine, List.cons_append, List.append_assoc, List.nil_append]
  have hindent : ∀ c ∈ e.indent, py.isSpace c = true :=
    fun c hc => isSpace_of_isAsciiSpace (e.isIndent c hc)
  simp only [matchYamlPart, List.append_assoc, lit_append, many1_append hne hword hnewline,
    hsize, many1_append e.indent_ne_nil hindent hs, many1_append e.hex_ne_nil e.isHex hend,
    Option.bind_eq_bind, Option.bind_some, Option.pure_def]

/-- A match that starts in a line takes the line to its end. -/
lemma lit_of_matchYamlPart (line rest : Text) (hline : '\n' ∉ line) {r : (Text × Text) × Text}
    (h : matchYamlPart py (line ++ '\n' :: rest) = some r) :
    ∃ word, line = "name: ".toList ++ word ∧ word ≠ [] ∧ ∀ c ∈ word, py.isWord c = true := by
  simp only [matchYamlPart, Option.bind_eq_bind, Option.bind_eq_some_iff] at h
  obtain ⟨text, hname, ⟨word, text'⟩, hword, text'', hnewline, -⟩ := h
  obtain ⟨rfl, hne, hall, -⟩ := many1_eq_some_iff.mp hword
  obtain rfl : text' = ['\n'] ++ text'' := lit_eq_some_iff.mp hnewline
  have hnot : '\n' ∉ "name: ".toList ++ word := by
    intro hmem
    rcases List.mem_append.mp hmem with hmem | hmem
    · exact absurd hmem (by decide)
    · exact absurd (hall _ hmem) (by simp [isWord_newline])
  have heq := lit_eq_some_iff.mp hname
  rw [← List.append_assoc] at heq
  exact ⟨word, (eq_of_append_newline hline hnot heq).1, hne, hall⟩

lemma ne_n_of_mem_sizeLine {c : Char} (h : c ∈ e.sizeLine) : c ≠ 'n' := by
  rintro rfl
  simp only [sizeLine, List.mem_cons, List.mem_append] at h
  rcases h with h | h | h | h
  · exact absurd h (by decide)
  · exact absurd (e.isIndent _ h) (by decide)
  · exact absurd h (by decide)
  · exact absurd (e.isHex _ h) (by decide)

/-- No match starts in a stretch without an `n`. -/
lemma findall_skip_ne_n {us : Text} (text : Text) (h : ∀ c ∈ us, c ≠ 'n') :
    findall (matchYamlPart py) (us ++ text) = findall (matchYamlPart py) text :=
  findall_skip fun u _ hvs =>
    matchYamlPart_eq_none_of_ne _ (h u (hvs.subset List.mem_cons_self))

/-- The line of a name with the line of its size: one match or none. -/
lemma findall_line {line : Text} (hline : '\n' ∉ line) (rest : Text) :
    findall (matchYamlPart py) (line ++ (e.sizeLine ++ '\n' :: rest)) =
      ((listedName py line).map fun name => (name, e.hex)).toList ++
        findall (matchYamlPart py) ('\n' :: rest) := by
  induction line with
  | nil =>
      rw [List.nil_append, findall_skip_ne_n _ fun c hc => e.ne_n_of_mem_sizeLine hc]
      rfl
  | cons c cs ih =>
      have hcs : '\n' ∉ cs := fun h => hline (List.mem_cons_of_mem _ h)
      by_cases hmatch : ∃ word, c :: cs = "name: ".toList ++ word ∧ word ≠ [] ∧
          ∀ c ∈ word, py.isWord c = true
      · obtain ⟨word, heq, hne, hword⟩ := hmatch
        have hlisted : listedName py (c :: cs) = some word := by
          rw [listedName, heq, lit_append]
          simp only [List.isEmpty_eq_false_iff.mpr hne, List.all_eq_true.mpr hword, Bool.not_false,
            Bool.and_self, if_true]
        have hhit : findall (matchYamlPart py) ("name: ".toList ++ word ++ e.sizeLine ++
            '\n' :: rest) = (word, e.hex) :: findall (matchYamlPart py) ('\n' :: rest) := by
          refine findall_hit ?_ ?_
          · rw [← heq]
            exact List.cons_ne_nil _ _
          · rw [List.append_assoc]
            exact e.matchYamlPart_line hne hword rest
        rw [hlisted, ← List.append_assoc, heq, hhit]
        rfl
      · have hnone : matchYamlPart py (c :: (cs ++ (e.sizeLine ++ '\n' :: rest))) = none := by
          rw [Option.eq_none_iff_forall_ne_some]
          intro r hr
          exact hmatch (lit_of_matchYamlPart (c :: cs)
            (e.indent ++ ("size: 0x".toList ++ e.hex) ++ '\n' :: rest) hline hr)
        have hlisted : listedName py (c :: cs) = listedName py cs := by
          rw [listedName]
          split
          · rename_i word hword
            rw [if_neg]
            simp only [Bool.and_eq_true, Bool.not_eq_true', List.isEmpty_eq_false_iff,
              List.all_eq_true]
            exact fun hall => hmatch ⟨word, lit_eq_some_iff.mp hword, hall⟩
          · rfl
        rw [hlisted, List.cons_append, findall_cons_of_none hnone]
        exact ih hcs

end BackupEntry

/-- Lines without an entry have no match. -/
lemma findall_otherLines {us : Text} (h : IsOtherLines us) (text : Text) :
    findall (matchYamlPart py) (us ++ text) = findall (matchYamlPart py) text := by
  refine findall_skip fun u vs hvs => ?_
  rw [Option.eq_none_iff_forall_ne_some]
  intro r hr
  simp only [matchYamlPart, Option.bind_eq_bind, Option.bind_eq_some_iff] at hr
  obtain ⟨behind, hname, -⟩ := hr
  rcases List.append_eq_append_iff.mp (lit_eq_some_iff.mp hname) with
    ⟨cs, hcs, -⟩ | ⟨cs, hcs, -⟩
  · -- the lines end inside `name: `, which has no newline
    obtain ⟨front, rfl⟩ := hvs
    have hlast : (front ++ u :: vs).getLast? = some ((u :: vs).getLast (by simp)) := by
      rw [List.getLast?_append_of_ne_nil _ (by simp), List.getLast?_eq_getLast_of_ne_nil]
    have hnewline := h.endsLine _ hlast
    have hmem : '\n' ∈ "name: ".toList := by
      rw [hcs, ← hnewline]
      exact List.mem_append_left _ (List.getLast_mem _)
    exact absurd hmem (by decide)
  · refine h.no_name (List.IsInfix.trans ⟨[], cs, ?_⟩ hvs.isInfix)
    rw [hcs, List.nil_append]

/-- **The entries found in the header.** -/
lemma findall_header (b : Backup) :
    findall (matchYamlPart py) b.header = b.entries.filterMap (BackupEntry.listed py) := by
  have hdashes : ∀ c ∈ "---\n".toList, c ≠ 'n' := forall_mem_of_all (by decide)
  rw [b.header_eq, BackupEntry.findall_skip_ne_n _ hdashes, findall_otherLines b.isOtherLines]
  induction b.entries with
  | nil => rfl
  | cons e es ih =>
      have hlead : ∀ c ∈ e.lead, c ≠ 'n' := by
        intro c hc
        rcases e.isLead c hc with rfl | rfl <;> decide
      have hline : '\n' ∉ e.line := by
        intro hmem
        rcases List.mem_append.mp hmem with hmem | hmem
        · exact absurd hmem (by decide)
        · exact (e.oneLine _ hmem).1 rfl
      have htext : e.text ++ es.flatMap BackupEntry.text = e.lead ++ (e.line ++
          (e.sizeLine ++ '\n' :: (e.extra ++ es.flatMap BackupEntry.text))) := by
        simp only [BackupEntry.text, List.append_assoc, List.cons_append]
      rw [List.flatMap_cons, htext, BackupEntry.findall_skip_ne_n _ hlead, e.findall_line hline,
        findall_cons_of_none (matchYamlPart_eq_none_of_ne _ (by decide)),
        findall_otherLines e.isOtherLines, ih, List.filterMap_cons]
      cases hlisted : e.listed py with
      | none =>
          rw [BackupEntry.listed] at hlisted
          rw [hlisted]
          rfl
      | some part =>
          rw [BackupEntry.listed] at hlisted
          rw [hlisted]
          rfl

end Header

/-! ## Blocks -/

namespace BackupEntry

variable (e : BackupEntry)

lemma length_block : e.block.length = 4 + e.data.length := by
  rw [block, List.length_append, length_packU32]

lemma readLe32_block (rest : List UInt8) :
    readLe32 ((e.block ++ rest).take 4) = e.data.length := by
  have htake : (e.block ++ rest).take 4 = packU32 e.data.length := by
    rw [block, List.append_assoc]
    rfl
  rw [htake, readLe32_packU32, Nat.mod_eq_of_lt e.length_lt]

/-- A block that is there in full is read. -/
lemma readBlocks_append (rest : List UInt8) :
    readBlocks (e.block ++ rest) = e.data :: readBlocks rest := by
  have hlen : (e.block ++ rest).length = 4 + e.data.length + rest.length := by
    rw [List.length_append, e.length_block]
  have hdata : ((e.block ++ rest).drop 4).take e.data.length = e.data := by
    rw [block, List.append_assoc]
    exact List.take_left
  have hrest : (e.block ++ rest).drop (4 + e.data.length) = rest := by
    rw [← e.length_block, List.drop_left]
  rw [readBlocks, if_pos (by omega)]
  simp only [e.readLe32_block, hdata, hrest]
  rw [if_neg (by omega)]

/-- A block that is cut off ends the reading. -/
lemma readBlocks_take {k : ℕ} (h : k < e.block.length) : readBlocks (e.block.take k) = [] := by
  have hlen : (e.block.take k).length = k := by
    rw [List.length_take]
    omega
  rw [readBlocks]
  split
  · rename_i h4
    have hle : readLe32 ((e.block.take k).take 4) = e.data.length := by
      have := e.readLe32_block []
      rw [List.append_nil] at this
      rw [List.take_take, Nat.min_eq_left (by omega), this]
    dsimp only
    rw [hle, if_pos (by rw [hlen]; rw [e.length_block] at h; omega)]
  · rfl

end BackupEntry

lemma readBlocks_nil : readBlocks [] = [] := by
  rw [readBlocks]
  rfl

/-- All blocks are read. -/
lemma readBlocks_blocks (es : List BackupEntry) :
    readBlocks (es.flatMap BackupEntry.block) = es.map BackupEntry.data := by
  induction es with
  | nil => exact readBlocks_nil
  | cons e es ih => rw [List.flatMap_cons, e.readBlocks_append, ih, List.map_cons]

/-- Of blocks that are cut off somewhere, those before the cut are read. -/
lemma readBlocks_take_blocks (es : List BackupEntry) {k : ℕ}
    (hk : k < (es.flatMap BackupEntry.block).length) :
    ∃ q < es.length, ((es.take q).flatMap BackupEntry.block).length ≤ k ∧
      k < ((es.take (q + 1)).flatMap BackupEntry.block).length ∧
      readBlocks ((es.flatMap BackupEntry.block).take k) = (es.take q).map BackupEntry.data := by
  induction es generalizing k with
  | nil => exact absurd hk (Nat.not_lt_zero k)
  | cons e es ih =>
      rw [List.flatMap_cons] at hk ⊢
      by_cases hcut : k < e.block.length
      · refine ⟨0, Nat.succ_pos _, Nat.zero_le _, ?_, ?_⟩
        · simpa using hcut
        · rw [List.take_append_of_le_length hcut.le, e.readBlocks_take hcut]
          rfl
      · rw [List.length_append] at hk
        obtain ⟨q, hq, hle, hlt, hread⟩ := ih (k := k - e.block.length) (by omega)
        refine ⟨q + 1, Nat.succ_lt_succ hq, ?_, ?_, ?_⟩
        · rw [List.take_succ_cons, List.flatMap_cons, List.length_append]
          omega
        · rw [List.take_succ_cons, List.flatMap_cons, List.length_append]
          omega
        · rw [List.take_append, List.take_of_length_le (not_lt.mp hcut), e.readBlocks_append,
            hread]
          rfl

/-! ## The file -/

namespace Backup

variable (b : Backup) {py : PyChars}

lemma toNat_ne_zero_of_mem_header {c : Char} (h : c ∈ b.header) : c.toNat ≠ 0 := by
  have hliteral : ∀ {s : Text}, c ∈ s → (∀ c ∈ s, c.toNat ≠ 0) → c.toNat ≠ 0 :=
    fun hc hs => hs c hc
  rcases List.mem_append.mp h with h | h
  · exact hliteral h (forall_mem_of_all (by decide))
  rcases List.mem_append.mp h with h | h
  · exact b.isOtherLines.no_nul c h
  obtain ⟨e, -, h⟩ := List.mem_flatMap.mp h
  simp only [BackupEntry.text, BackupEntry.line_eq, BackupEntry.sizeLine, List.mem_append,
    List.mem_cons] at h
  rcases h with h | (h | h) | (rfl | h | h | h) | rfl | h
  · rcases e.isLead c h with rfl | rfl <;> decide
  · exact hliteral h (forall_mem_of_all (by decide))
  · exact (e.oneLine c h).2
  · decide
  · have hspace := e.isIndent c h
    simp only [isAsciiSpace, Bool.or_eq_true, Bool.and_eq_true, decide_eq_true_eq] at hspace
    omega
  · exact hliteral h (forall_mem_of_all (by decide))
  · intro hzero
    have hhex := e.isHex c h
    rw [← Char.ofNat_toNat c, hzero] at hhex
    exact absurd hhex (by decide)
  · decide
  · exact e.isOtherLines.no_nul c h

lemma take_raw (rest : List UInt8) :
    (encodeUtf8 b.header ++ 0 :: rest).take 4 = yamlMagic := by
  rw [b.header_eq, encodeUtf8, List.flatMap_append]
  rfl

/-- The header is read whole, whatever stands behind the zero byte. -/
lemma readDump_header (rest : List UInt8) :
    readDump py [] (encodeUtf8 b.header ++ 0 :: rest) =
      .ok (yamlMtdparts py b.header,
        (readBlocks rest).mapIdx fun blockNum data => (blockName blockNum, data)) := by
  have hnonzero : ∀ x ∈ encodeUtf8 b.header, decide (x ≠ 0) = true := by
    intro x hx
    refine decide_eq_true ?_
    rintro rfl
    exact zero_notMem_encodeUtf8 (fun c hc => b.toNat_ne_zero_of_mem_header hc) hx
  have hzero : ∀ x ∈ ((0 : UInt8) :: rest).head?, decide (x ≠ 0) = false := by
    intro x hx
    obtain rfl : 0 = x := Option.some.inj hx
    decide
  rw [readDump, if_pos (b.take_raw rest), takeWhile_append_stop hnonzero hzero,
    dropWhile_append_stop hnonzero hzero]
  dsimp only
  rw [decodeUtf8Replace_encodeUtf8]
  rfl

end Backup

/-! ## Offsets -/

/-- What is left of a size that is written in kilobytes or megabytes. -/
def roundKiB (sz : ℕ) : ℕ := sz / 1024 * 1024

lemma isPartName_of_isWordText {py : PyChars} {name : Text} (h : IsWordText py name) :
    IsPartName name := by
  intro c hc
  have hword := h.2 c hc
  refine ⟨?_, ?_, ?_⟩ <;>
    · rintro rfl
      rw [py.isWord_ascii _ (by decide)] at hword
      exact absurd hword (by decide)

/-- The definition that is written for a partition. -/
lemma exists_sizedDef {name : Text} (hname : IsPartName name) {sz : ℕ} (hsz : sz < 2 ^ 32) :
    ∃ d : SizedDef, d.text = mtdDef name sz ∧ d.size = roundKiB sz ∧ d.digits.length ≤ 4300 := by
  have hshort : ∀ n, n < 2 ^ 32 → (decimal n).length ≤ 4300 := by
    intro n hn
    have hlen : (decimal n).length ≤ 10 := length_decimal_le (by omega) (hn.trans (by decide))
    omega
  by_cases hM : sz % (1024 * 1024) = 0
  · refine ⟨⟨decimal (sz / (1024 * 1024)), some 'M', name, decimal_ne_nil _,
      fun c hc => isDigit_of_mem_decimal hc, ?_, hname⟩, ?_, ?_, ?_⟩
    · intro c hc
      obtain rfl : 'M' = c := Option.some.inj hc
      decide
    · rw [mtdDef, if_pos hM]
      rfl
    · have hfactor : unitFactor (some 'M') = 1024 * 1024 := by decide
      simp only [SizedDef.size, decimal, Nat.ofDigitChars_ten_toDigits, hfactor, roundKiB]
      omega
    · exact hshort _ (by omega)
  · refine ⟨⟨decimal (sz / 1024), some 'k', name, decimal_ne_nil _,
      fun c hc => isDigit_of_mem_decimal hc, ?_, hname⟩, ?_, ?_, ?_⟩
    · intro c hc
      obtain rfl : 'k' = c := Option.some.inj hc
      decide
    · rw [mtdDef, if_neg hM]
      rfl
    · have hfactor : unitFactor (some 'k') = 1024 := by decide
      simp only [SizedDef.size, decimal, Nat.ofDigitChars_ten_toDigits, hfactor, roundKiB]
    · exact hshort _ (by omega)

lemma exists_sizedDefs (parts : List (Text × Text)) (hname : ∀ part ∈ parts, IsPartName part.1)
    (hsz : ∀ part ∈ parts, hexNumber part.2 < 2 ^ 32) :
    ∃ sized : List SizedDef,
      sized.map SizedDef.text = parts.map (fun part => mtdDef part.1 (hexNumber part.2)) ∧
      sized.map SizedDef.size = parts.map (fun part => roundKiB (hexNumber part.2)) ∧
      ∀ d ∈ sized, d.digits.length ≤ 4300 := by
  induction parts with
  | nil => exact ⟨[], rfl, rfl, fun d hd => absurd hd List.not_mem_nil⟩
  | cons part parts ih =>
      obtain ⟨sized, htext, hsize, hshort⟩ :=
        ih (fun part' h => hname part' (List.mem_cons_of_mem _ h))
          fun part' h => hsz part' (List.mem_cons_of_mem _ h)
      obtain ⟨d, hdtext, hdsize, hdshort⟩ :=
        exists_sizedDef (hname part List.mem_cons_self) (hsz part List.mem_cons_self)
      refine ⟨d :: sized, ?_, ?_, ?_⟩
      · rw [List.map_cons, List.map_cons, hdtext, htext]
      · rw [List.map_cons, List.map_cons, hdsize, hsize]
      · intro d' hd'
        rcases List.mem_cons.mp hd' with rfl | hd'
        · exact hdshort
        · exact hshort d' hd'

/-- **The offsets that a layout made from a header gives.**  Every definition but the last counts
with its size in whole kilobytes. -/
lemma partOffsets_mtdDefs (py : PyChars) {dev : Text} (hdev : ':' ∉ dev)
    {parts : List (Text × Text)} (hne : parts ≠ []) (hname : ∀ part ∈ parts, IsPartName part.1)
    (hsz : ∀ part ∈ parts, hexNumber part.2 < 2 ^ 32) (count : ℕ) :
    ∃ offsets, partOffsets py (dev ++ ':' :: [','].intercalate (mtdDefs parts)) count =
        .ok offsets ∧
      ∀ i < count, offsets.get? i = some
        (((parts.dropLast.map fun part => roundKiB (hexNumber part.2)).take i).sum) := by
  obtain ⟨sized, htext, hsize, hshort⟩ :=
    exists_sizedDefs parts.dropLast (fun part h => hname part (List.dropLast_subset _ h))
      fun part h => hsz part (List.dropLast_subset _ h)
  let l : MtdLayout :=
    ⟨dev, sized, some ⟨(parts.getLast hne).1, hname _ (List.getLast_mem hne)⟩, hdev⟩
  have hdefs : l.defs = mtdDefs parts := by
    rw [MtdLayout.defs, mtdDefs, List.getLast?_eq_getLast_of_ne_nil hne, ← List.map_dropLast,
      ← htext]
    rfl
  have hl : l.text = dev ++ ':' :: [','].intercalate (mtdDefs parts) := by
    rw [MtdLayout.text, hdefs]
  have hdefs_ne : l.defs ≠ [] := by
    intro hnil
    have := congrArg List.length hnil
    rw [l.length_defs] at this
    exact absurd this (Nat.succ_ne_zero _)
  obtain ⟨offsets, hloop, hframe, hget⟩ := partOffsetsLoop_ok py l.fill hshort 0 0 []
  refine ⟨fillOffsets (0 + (sized.map SizedDef.size).sum) count offsets, ?_, ?_⟩
  · rw [← hl, l.partOffsets_text hdefs_ne, MtdLayout.defs, hloop]
    rfl
  · intro i hi
    have hsum : ((sized.take i).map SizedDef.size).sum =
        ((parts.dropLast.map fun part => roundKiB (hexNumber part.2)).take i).sum := by
      rw [← hsize, List.map_take]
    by_cases hi' : i < sized.length + l.fill.toList.length
    · have hoffset := hget i hi'
      rw [Nat.zero_add, Nat.zero_add] at hoffset
      rw [get?_fillOffsets hoffset, hsum]
    · have hnone : offsets.get? i = none := by
        rw [hframe i (by omega)]
        exact Dict.get?_nil i
      rw [get?_fillOffsets_of_none hi hnone, ← hsum, List.take_of_length_le (by omega),
        Nat.zero_add]

/-- Partial sums agree when the terms do. -/
lemma sum_take_eq_iff {as bs : List ℕ} {n : ℕ} :
    (∀ i < n, (as.take i).sum = (bs.take i).sum) ↔
      ∀ i, i + 1 < n → as.getD i 0 = bs.getD i 0 := by
  have hsucc : ∀ (cs : List ℕ) (i : ℕ), (cs.take (i + 1)).sum = (cs.take i).sum + cs.getD i 0 := by
    intro cs i
    rw [List.take_add_one, List.sum_append, List.getD_eq_getElem?_getD]
    cases cs[i]? with
    | none => rfl
    | some c => simp
  constructor
  · intro h i hi
    have hi₁ := h (i + 1) hi
    have hi₀ := h i (by omega)
    rw [hsucc, hsucc] at hi₁
    omega
  · intro h i hi
    induction i with
    | zero => rfl
    | succ i ih => rw [hsucc, hsucc, ih (by omega), h i hi]

/-! ## The reader as a whole -/

namespace Backup

/-- The sizes of the entries that the reader finds. -/
def listedSizes (py : PyChars) (b : Backup) : List ℕ :=
  (b.entries.filterMap (BackupEntry.listed py)).map fun part => hexNumber part.2

/-- The reader yields the partitions in order. -/
def BlocksExact (py : PyChars) (b : Backup) : Prop :=
  ∃ mtdparts parts, readDump py [] b.raw = .ok (mtdparts, parts) ∧
    parts.map Prod.snd = b.entries.map BackupEntry.data

/-- On NAND, partition `i` will be written at the sum of the sizes before it. -/
def OffsetsRight (py : PyChars) (b : Backup) : Prop :=
  ∃ mtdparts parts offsets, readDump py [] b.raw = .ok (mtdparts, parts) ∧
    restoreOffsets py .nand mtdparts (parts.map fun part => part.2.length) = .ok offsets ∧
    ∀ i < b.entries.length, offsets.get? i = some ((b.sizes.take i).sum)

/-- A file that has lost bytes of its partitions is refused. -/
def RefusesTruncations (py : PyChars) (b : Backup) : Prop :=
  ∀ k < b.raw.length, b.entries ≠ [] → ∃ err, readDump py [] (b.raw.take k) = .error err

/-- The layout in whole kilobytes and with the last entry open gives the partitions their places. -/
def LayoutFits (py : PyChars) (b : Backup) : Prop :=
  b.listedSizes py = [] ∨
    ∀ i, i + 1 < b.entries.length →
      b.sizes.getD i 0 = ((b.listedSizes py).dropLast.map roundKiB).getD i 0

variable (b : Backup) {py : PyChars}

lemma readDump_raw : readDump py [] b.raw =
    .ok (yamlMtdparts py b.header,
      (b.entries.map BackupEntry.data).mapIdx fun blockNum data => (blockName blockNum, data)) := by
  rw [raw, b.readDump_header, readBlocks_blocks]

lemma map_snd_mapIdx {α β : Type} (f : ℕ → α) (xs : List β) :
    (xs.mapIdx fun i x => (f i, x)).map Prod.snd = xs := by
  refine List.ext_getElem? fun i => ?_
  rw [List.getElem?_map, List.getElem?_mapIdx, Option.map_map]
  exact Option.map_id'

lemma blocksExact : b.BlocksExact py := ⟨_, _, b.readDump_raw, map_snd_mapIdx _ _⟩

lemma map_length_parts : ((b.entries.map BackupEntry.data).mapIdx fun blockNum data =>
    (blockName blockNum, data)).map (fun part => part.2.length) = b.sizes := by
  have hsnd := congrArg (List.map List.length)
    (map_snd_mapIdx blockName (b.entries.map BackupEntry.data))
  rw [List.map_map, List.map_map] at hsnd
  exact hsnd

lemma hexNumber_lt {part : Text × Text}
    (h : part ∈ b.entries.filterMap (BackupEntry.listed py)) : hexNumber part.2 < 2 ^ 32 := by
  obtain ⟨e, -, he⟩ := List.mem_filterMap.mp h
  obtain ⟨name, -, rfl⟩ := Option.map_eq_some_iff.mp he
  exact e.size_eq ▸ e.length_lt

lemma isWordText_of_listedName {line name : Text} (h : listedName py line = some name) :
    IsWordText py name := by
  induction line with
  | nil => cases h
  | cons c cs ih =>
      rw [listedName] at h
      split at h
      · split at h
        · rename_i hword
          obtain rfl := Option.some.inj h
          simp only [Bool.and_eq_true, Bool.not_eq_true', List.isEmpty_eq_false_iff,
            List.all_eq_true] at hword
          exact hword
        · exact ih h
      · exact ih h

lemma isPartName_of_listed {part : Text × Text}
    (h : part ∈ b.entries.filterMap (BackupEntry.listed py)) : IsPartName part.1 := by
  obtain ⟨e, -, he⟩ := List.mem_filterMap.mp h
  obtain ⟨name, hname, rfl⟩ := Option.map_eq_some_iff.mp he
  exact isPartName_of_isWordText (isWordText_of_listedName hname)

lemma colon_notMem_nandName (text : Text) : ':' ∉ nandName text := by
  rw [nandName]
  split
  · decide
  · decide

/-- The offsets of the partitions. -/
lemma restoreOffsets_raw (py : PyChars) : ∃ offsets,
    restoreOffsets py .nand (yamlMtdparts py b.header) b.sizes = .ok offsets ∧
      ∀ i < b.entries.length, offsets.get? i = some (if b.listedSizes py = [] then
        (b.sizes.take i).sum else (((b.listedSizes py).dropLast.map roundKiB).take i).sum) := by
  have hlen : b.sizes.length = b.entries.length := List.length_map _
  rw [yamlMtdparts, findall_header]
  by_cases hnil : b.entries.filterMap (BackupEntry.listed py) = []
  · have hlisted : b.listedSizes py = [] := by rw [listedSizes, hnil]; rfl
    refine ⟨cumulativeOffsets 0 0 b.sizes, ?_, fun i hi => ?_⟩
    · simp only [hnil, List.isEmpty_nil, if_true]
      rfl
    · have hget := get?_cumulativeOffsets b.sizes 0 0 (hlen ▸ hi)
      rw [Nat.zero_add, Nat.zero_add] at hget
      rw [hget, if_pos hlisted]
  · have hlisted : b.listedSizes py ≠ [] := fun h => hnil (List.map_eq_nil_iff.mp h)
    obtain ⟨offsets, hoffsets, hget⟩ := partOffsets_mtdDefs py
      (colon_notMem_nandName b.header) hnil (fun _ h => b.isPartName_of_listed h)
      (fun _ h => b.hexNumber_lt h) b.sizes.length
    have htext : ∀ dev rest : Text, (dev ++ ':' :: rest).isEmpty = false := by
      intro dev rest
      simp
    refine ⟨offsets, ?_, fun i hi => ?_⟩
    · simp only [List.isEmpty_iff, if_neg hnil, restoreOffsets, htext, Bool.not_false,
        decide_true, Bool.and_self, if_true]
      exact hoffsets
    · rw [hget i (hlen ▸ hi), if_neg hlisted, listedSizes, ← List.map_dropLast, List.map_map]
      rfl

lemma offsetsRight_iff : b.OffsetsRight py ↔ b.LayoutFits py := by
  obtain ⟨offsets, hoffsets, hget⟩ := b.restoreOffsets_raw py
  have hright : b.OffsetsRight py ↔
      ∀ i < b.entries.length, offsets.get? i = some ((b.sizes.take i).sum) := by
    constructor
    · rintro ⟨mtdparts, parts, offsets', hread, hoffsets', h⟩
      obtain ⟨rfl, rfl⟩ := Prod.mk.inj (Except.ok.inj (b.readDump_raw.symm.trans hread))
      rw [b.map_length_parts] at hoffsets'
      obtain rfl := Except.ok.inj (hoffsets.symm.trans hoffsets')
      exact h
    · intro h
      refine ⟨_, _, offsets, b.readDump_raw, ?_, h⟩
      rw [b.map_length_parts]
      exact hoffsets
  rw [hright, LayoutFits]
  by_cases hlisted : b.listedSizes py = []
  · refine ⟨fun _ => .inl hlisted, fun _ i hi => ?_⟩
    rw [hget i hi, if_pos hlisted]
  · rw [or_iff_right hlisted, ← sum_take_eq_iff]
    refine forall₂_congr fun i hi => ?_
    rw [hget i hi, if_neg hlisted, Option.some.injEq]
    exact eq_comm

/-- A file that is cut behind its header is taken with the partitions before the cut. -/
lemma readDump_take (py : PyChars) {k : ℕ} (hheader : (encodeUtf8 b.header).length < k)
    (hk : k < b.raw.length) :
    ∃ q < b.entries.length, ∃ mtdparts parts,
      readDump py [] (b.raw.take k) = .ok (mtdparts, parts) ∧
      parts.map Prod.snd = (b.entries.take q).map BackupEntry.data := by
  obtain ⟨k', rfl⟩ := Nat.exists_eq_add_of_lt hheader
  rw [raw, List.length_append, List.length_cons] at hk
  obtain ⟨q, hq, -, -, hread⟩ := readBlocks_take_blocks b.entries (k := k') (by omega)
  have htake : b.raw.take ((encodeUtf8 b.header).length + k' + 1) =
      encodeUtf8 b.header ++ 0 :: (b.entries.flatMap BackupEntry.block).take k' := by
    rw [raw, Nat.add_assoc, List.take_length_add_append, List.take_succ_cons]
  refine ⟨q, hq, yamlMtdparts py b.header, _, ?_, map_snd_mapIdx blockName _⟩
  rw [htake, b.readDump_header, hread]

lemma refusesTruncations_iff : b.RefusesTruncations py ↔ b.entries = [] := by
  constructor
  · intro h
    by_contra hne
    have hraw : (encodeUtf8 b.header).length + 1 < b.raw.length := by
      obtain ⟨e, es, hes⟩ := List.exists_cons_of_ne_nil hne
      rw [raw, List.length_append, List.length_cons, hes, List.flatMap_cons, List.length_append,
        e.length_block]
      omega
    obtain ⟨q, -, mtdparts, parts, hread, -⟩ :=
      b.readDump_take py (Nat.lt_succ_self _) hraw
    obtain ⟨err, herr⟩ := h _ hraw hne
    rw [hread] at herr
    cases herr
  · intro hnil k _ hne
    exact absurd hnil hne

end Backup

/-- **What the reader makes of a backup.**  It yields the partitions in order.  It gives them their
places when the layout that it rounds to kilobytes fits.  A file that is cut behind its header is
taken with the partitions before the cut, so that the reader does all that is asked of it for no
backup with partitions. -/
theorem backup_read_iff (py : PyChars) (b : Backup) :
    b.BlocksExact py ∧ (b.OffsetsRight py ↔ b.LayoutFits py) ∧
    (∀ k, (encodeUtf8 b.header).length < k → k < b.raw.length → ∃ q < b.entries.length,
      ∃ mtdparts parts, readDump py [] (b.raw.take k) = .ok (mtdparts, parts) ∧
        parts.map Prod.snd = (b.entries.take q).map BackupEntry.data) ∧
    (b.BlocksExact py ∧ b.OffsetsRight py ∧ b.RefusesTruncations py ↔ b.entries = []) := by
  refine ⟨b.blocksExact, b.offsetsRight_iff, fun k => b.readDump_take py, ?_, ?_⟩
  · rintro ⟨-, -, hrefuses⟩
    exact b.refusesTruncations_iff.mp hrefuses
  · intro hnil
    refine ⟨b.blocksExact, b.offsetsRight_iff.mpr (.inr fun i hi => ?_),
      b.refusesTruncations_iff.mpr hnil⟩
    rw [hnil] at hi
    exact absurd hi (Nat.not_lt_zero _)

/-- Lines that are not there. -/
lemma isOtherLines_nil : IsOtherLines [] :=
  ⟨by decide, fun _ hc => absurd hc List.not_mem_nil, fun _ hc => absurd hc (Option.not_mem_none _)⟩

lemma isLead_dash : ∀ c ∈ "- ".toList, c = ' ' ∨ c = '-' :=
  forall_mem_of_all (by decide)

lemma isIndent_spaces : ∀ c ∈ "  ".toList, isAsciiSpace c = true :=
  forall_mem_of_all (by decide)

/-- `- name: boot`, of three bytes. -/
def bootEntry : BackupEntry where
  lead := "- ".toList
  name := "boot".toList
  indent := "  ".toList
  hex := ['3']
  extra := []
  data := [1, 2, 3]
  isLead := isLead_dash
  oneLine := forall_mem_of_all (by decide)
  indent_ne_nil := by decide
  isIndent := isIndent_spaces
  hex_ne_nil := List.cons_ne_nil _ _
  isHex := forall_mem_of_all (by decide)
  isOtherLines := isOtherLines_nil
  size_eq := by decide
  length_lt := by decide

/-- `- name: kernel`, of one byte. -/
def kernelEntry : BackupEntry where
  lead := "- ".toList
  name := "kernel".toList
  indent := "  ".toList
  hex := ['1']
  extra := []
  data := [4]
  isLead := isLead_dash
  oneLine := forall_mem_of_all (by decide)
  indent_ne_nil := by decide
  isIndent := isIndent_spaces
  hex_ne_nil := List.cons_ne_nil _ _
  isHex := forall_mem_of_all (by decide)
  isOtherLines := isOtherLines_nil
  size_eq := by decide
  length_lt := by decide

/-- Two partitions of three bytes and one. -/
def smallBackup : Backup := ⟨[], [bootEntry, kernelEntry], isOtherLines_nil⟩

/-- Of the small backup, the kernel will be written at 0, and without its last byte the file is
taken with the boot partition alone. -/
theorem smallBackup_misread :
    ¬ (smallBackup.BlocksExact .ascii ∧ smallBackup.OffsetsRight .ascii ∧
        smallBackup.RefusesTruncations .ascii) ∧
      ¬ smallBackup.OffsetsRight .ascii ∧ ¬ smallBackup.RefusesTruncations .ascii := by
  have hoffsets : ¬ smallBackup.OffsetsRight .ascii := by
    rw [Backup.offsetsRight_iff]
    rintro (hnil | h)
    · exact absurd hnil (by decide)
    · exact absurd (h 0 (by decide)) (by decide)
  have hrefuses : ¬ smallBackup.RefusesTruncations .ascii := by
    rw [Backup.refusesTruncations_iff]
    exact List.cons_ne_nil _ _
  exact ⟨fun h => hoffsets h.2.1, hoffsets, hrefuses⟩

end Defib
