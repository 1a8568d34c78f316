import Defib.Restore.Mtdparts

/-!
# The two readers of `mtdparts` agree on layouts with plain names

A `MtdLayout` is what the string `dev:def,def,...` says: sizes, names, and possibly a last
definition that takes the remainder.  Its names may have any characters but a comma and parentheses.

`mtdparts_agree_iff` says when the two readers give every definition the sum of the sizes before
it: when every name is a word (`\w+`) and every size has at most 4300 digits.
-/

namespace Defib

/-- A name between parentheses in a list that commas separate. -/
def IsPartName (name : Text) : Prop := ∀ c ∈ name, c ≠ ',' ∧ c ≠ '(' ∧ c ≠ ')'

/-- A definition with a size: `512k(boot)`. -/
structure SizedDef where
  digits : Text
  unit : Option Char
  name : Text
  digits_ne_nil : digits ≠ []
  isDigit : ∀ c ∈ digits, c.isDigit = true
  isUnit : ∀ c ∈ unit, isUnit c = true
  isPartName : IsPartName name

namespace SizedDef

/-- The definition as it is written. -/
def text (d : SizedDef) : Text := d.digits ++ (d.unit.toList ++ ('(' :: (d.name ++ [')'])))

/-- The number of bytes it stands for. -/
def size (d : SizedDef) : ℕ := Nat.ofDigitChars 10 d.digits 0 * unitFactor d.unit

end SizedDef

/-- A layout `dev:def,def,...`, with or without a last definition `-(name)`. -/
structure MtdLayout where
  dev : Text
  sized : List SizedDef
  fill : Option {name : Text // IsPartName name}
  colon_notMem_dev : ':' ∉ dev

namespace MtdLayout

/-- The definition that takes the remainder, as it is written. -/
def fillText (name : Text) : Text := '-' :: '(' :: (name ++ [')'])

/-- The definitions as they are written. -/
def defs (l : MtdLayout) : List Text :=
  l.sized.map SizedDef.text ++ l.fill.toList.map fun name => fillText name.1

/-- The layout as it is written. -/
def text (l : MtdLayout) : Text := l.dev ++ ':' :: [','].intercalate l.defs

/-- The names of the definitions. -/
def names (l : MtdLayout) : List Text :=
  l.sized.map SizedDef.name ++ l.fill.toList.map Subtype.val

/-- The sum of the sizes before definition `i`. -/
def offset (l : MtdLayout) (i : ℕ) : ℕ := ((l.sized.take i).map SizedDef.size).sum

end MtdLayout

/-- Both readers give each definition of the layout the sum of the sizes before it. -/
def ReadersAgree (py : PyChars) (l : MtdLayout) (count : ℕ) : Prop :=
  ∃ offsets partmap,
    partOffsets py l.text count = .ok offsets ∧ ubiPartmap py l.text = .ok partmap ∧
      ∀ i < l.defs.length, offsets.get? i = some (l.offset i) ∧
        ∃ name sz, partmap.get? i = some (name, l.offset i, sz)

/-- The name matches `\w+`. -/
def IsWordText (py : PyChars) (name : Text) : Prop :=
  name ≠ [] ∧ ∀ c ∈ name, py.isWord c = true

variable {py : PyChars}

/-! ## What the patterns match -/

lemma isWord_rparen : py.isWord ')' = false := by
  rw [py.isWord_ascii _ (by decide)]
  decide

lemma isUnit_ascii {c : Char} (h : isUnit c = true) :
    c = 'k' ∨ c = 'K' ∨ c = 'm' ∨ c = 'M' := by
  simpa [isUnit, or_assoc] using h

lemma isDigit_of_isUnit {c : Char} (h : isUnit c = true) : py.isDigit c = false := by
  rcases isUnit_ascii h with rfl | rfl | rfl | rfl <;>
    · rw [py.isDigit_ascii _ (by decide)]
      decide

/-- The pattern for a name matches the names that are words. -/
lemma matchName_of_isWordText {name : Text} (h : IsWordText py name) :
    matchName py ('(' :: (name ++ [')'])) = some name := by
  have hparen : ∀ c ∈ ([')'] : Text).head?, py.isWord c = false := by
    intro c hc
    obtain rfl : ')' = c := Option.some.inj hc
    exact isWord_rparen
  have hopen : lit ['('] ('(' :: (name ++ [')'])) = some (name ++ [')']) := lit_append ['('] _
  have hclose : lit [')'] [')'] = some [] := lit_append [')'] []
  simp only [matchName, hopen, many1_append h.1 h.2 hparen, hclose, Option.bind_eq_bind,
    Option.bind_some, Option.pure_def]

/-- It matches no other names: a word that ends at the parenthesis is the whole name. -/
lemma matchName_of_not_isWordText {name : Text} (hname : IsPartName name)
    (h : ¬ IsWordText py name) : matchName py ('(' :: (name ++ [')'])) = none := by
  rw [Option.eq_none_iff_forall_ne_some]
  intro word hmatch
  simp only [matchName, Option.bind_eq_bind, Option.bind_eq_some_iff, Option.pure_def,
    Option.some.injEq] at hmatch
  obtain ⟨text, hopen, ⟨word', rest⟩, hword, rest', hclose, rfl⟩ := hmatch
  obtain rfl := (List.cons.inj (lit_eq_some_iff.mp hopen)).2
  obtain ⟨hsplit, hne, hall, -⟩ := many1_eq_some_iff.mp hword
  obtain rfl : rest = [')'] ++ rest' := lit_eq_some_iff.mp hclose
  have hlast : rest' = [] := by
    by_contra hrest
    obtain ⟨rest'', c, rfl⟩ := (List.eq_nil_or_concat rest').resolve_left hrest
    have hfront : name = word' ++ ([')'] ++ rest'') := by
      have := hsplit
      rw [List.concat_eq_append, ← List.append_assoc, ← List.append_assoc] at this
      rw [← List.append_assoc]
      exact (List.append_inj' this rfl).1
    exact (hname ')' (by rw [hfront]; simp)).2.2 rfl
  subst hlast
  rw [(List.append_inj' hsplit rfl).1] at h
  exact h ⟨hne, hall⟩

namespace SizedDef

variable (d : SizedDef)

lemma head?_rest : ∀ c ∈ (d.unit.toList ++ ('(' :: (d.name ++ [')']))).head?,
    py.isDigit c = false := by
  intro c hc
  cases hunit : d.unit with
  | none =>
      rw [hunit] at hc
      obtain rfl : '(' = c := Option.some.inj hc
      rw [py.isDigit_ascii _ (by decide)]
      decide
  | some u =>
      rw [hunit] at hc
      obtain rfl : u = c := Option.some.inj hc
      exact isDigit_of_isUnit (d.isUnit u hunit)

lemma matchUnit_rest : matchUnit (d.unit.toList ++ ('(' :: (d.name ++ [')']))) =
    (d.unit, '(' :: (d.name ++ [')'])) := by
  cases hunit : d.unit with
  | none => rfl
  | some u =>
      change matchUnit (u :: '(' :: (d.name ++ [')'])) = _
      rw [matchUnit, if_pos (d.isUnit u hunit)]

/-- The size of a definition is matched whole. -/
lemma matchSize_text :
    matchSize py d.text = some (d.digits, d.unit, '(' :: (d.name ++ [')'])) := by
  have hdigits : ∀ c ∈ d.digits, py.isDigit c = true :=
    fun c hc => py.isDigit_of_ascii (d.isDigit c hc)
  simp only [matchSize, text, many1_append d.digits_ne_nil hdigits d.head?_rest, matchUnit_rest,
    Option.bind_eq_bind, Option.bind_some, Option.pure_def]

lemma exists_text_eq_cons : ∃ c cs, d.text = c :: cs ∧ c.isDigit = true := by
  obtain ⟨c, cs, hcs⟩ := List.exists_cons_of_ne_nil d.digits_ne_nil
  refine ⟨c, cs ++ (d.unit.toList ++ ('(' :: (d.name ++ [')']))), ?_,
    d.isDigit c (hcs ▸ List.mem_cons_self)⟩
  rw [text, hcs, List.cons_append]

lemma ne_dash_of_isDigit {c : Char} (h : c.isDigit = true) : c ≠ '-' := by
  rintro rfl
  exact absurd h (by decide)

lemma lit_dash_text (cs : Text) : lit ('-' :: cs) d.text = none := by
  obtain ⟨c, cs', htext, hc⟩ := d.exists_text_eq_cons
  rw [htext, lit, if_neg (ne_dash_of_isDigit hc).symm]

lemma isFill_text : isFill d.text = false := by
  rw [isFill, d.lit_dash_text]
  rfl

lemma matchFill_text : matchFill py d.text = none := by
  rw [matchFill, d.lit_dash_text]
  rfl

lemma strip_text : py.strip d.text = d.text := by
  obtain ⟨c, cs, htext, hc⟩ := d.exists_text_eq_cons
  refine py.strip_eq_self (by rw [htext]; rfl) (d := ')') ?_ (py.isSpace_of_isDigit hc) ?_
  · rw [text, ← List.cons_append, ← List.append_assoc, ← List.append_assoc,
      List.getLast?_concat]
  · rw [py.isSpace_ascii _ (by decide)]
    decide

lemma int_digits (h : d.digits.length ≤ 4300) :
    py.int d.digits = some (Nat.ofDigitChars 10 d.digits 0) := by
  rw [py.int_eq d.isDigit, if_pos h]

lemma int_digits_eq_none (h : ¬ d.digits.length ≤ 4300) : py.int d.digits = none := by
  rw [py.int_eq d.isDigit, if_neg h]

lemma comma_notMem_text : ',' ∉ d.text := by
  intro hmem
  rw [text] at hmem
  simp only [List.mem_append, List.mem_cons, Option.mem_toList, List.not_mem_nil, or_false] at hmem
  rcases hmem with h | h | h | h | h
  · exact absurd (d.isDigit _ h) (by decide)
  · exact absurd (d.isUnit _ h) (by decide)
  · exact absurd h (by decide)
  · exact (d.isPartName _ h).1 rfl
  · exact absurd h (by decide)

end SizedDef

lemma strip_fillText (name : Text) :
    py.strip (MtdLayout.fillText name) = MtdLayout.fillText name := by
  refine py.strip_eq_self (c := '-') (d := ')') rfl ?_ ?_ ?_
  · rw [MtdLayout.fillText, ← List.cons_append, ← List.cons_append, List.getLast?_concat]
  · rw [py.isSpace_ascii _ (by decide)]
    decide
  · rw [py.isSpace_ascii _ (by decide)]
    decide

lemma matchSize_fillText (name : Text) : matchSize py (MtdLayout.fillText name) = none := by
  have hdash : ∀ c ∈ (MtdLayout.fillText name).head?, py.isDigit c = false := by
    intro c hc
    obtain rfl : '-' = c := Option.some.inj hc
    rw [py.isDigit_ascii _ (by decide)]
    decide
  rw [matchSize, many1_eq_none hdash]
  rfl

lemma comma_notMem_fillText {name : Text} (h : IsPartName name) :
    ',' ∉ MtdLayout.fillText name := by
  intro hmem
  rw [MtdLayout.fillText] at hmem
  simp only [List.mem_append, List.mem_cons, List.not_mem_nil, or_false] at hmem
  rcases hmem with h' | h' | h' | h'
  · exact absurd h' (by decide)
  · exact absurd h' (by decide)
  · exact (h _ h').1 rfl
  · exact absurd h' (by decide)

namespace MtdLayout

variable (l : MtdLayout)

lemma afterColon_text : afterColon l.text = some ([','].intercalate l.defs) := by
  have hdev : ∀ c ∈ l.dev, decide (c ≠ ':') = true := by
    intro c hc
    refine decide_eq_true ?_
    rintro rfl
    exact l.colon_notMem_dev hc
  rw [afterColon, text, dropWhile_append_stop hdev]
  intro c hc
  obtain rfl : ':' = c := Option.some.inj hc
  decide

lemma comma_notMem_of_mem_defs {t : Text} (h : t ∈ l.defs) : ',' ∉ t := by
  rcases List.mem_append.mp h with h | h
  · obtain ⟨d, -, rfl⟩ := List.mem_map.mp h
    exact d.comma_notMem_text
  · obtain ⟨name, -, rfl⟩ := List.mem_map.mp h
    exact comma_notMem_fillText name.2

/-- The definitions are found between the commas. -/
lemma splitOn_intercalate_defs (hne : l.defs ≠ []) :
    ([','].intercalate l.defs).splitOn ',' = l.defs :=
  List.splitOn_intercalate ',' (fun _ ht => l.comma_notMem_of_mem_defs ht) hne

end MtdLayout

/-! ## The first reader -/

lemma partOffsetsLoop_sized (d : SizedDef) (h : d.digits.length ≤ 4300) (i cur : ℕ)
    (offsets : Dict ℕ ℕ) (pds : List Text) :
    partOffsetsLoop py i cur offsets (d.text :: pds) =
      partOffsetsLoop py (i + 1) (cur + d.size) (offsets.set i cur) pds := by
  rw [partOffsetsLoop, d.strip_text, d.isFill_text, d.matchSize_text]
  simp only [d.int_digits h, Bool.false_eq_true, if_false, SizedDef.size]

lemma partOffsetsLoop_fill (name : Text) (i cur : ℕ) (offsets : Dict ℕ ℕ) (pds : List Text) :
    partOffsetsLoop py i cur offsets (MtdLayout.fillText name :: pds) =
      .ok (offsets.set i cur, cur) := by
  rw [partOffsetsLoop, strip_fillText]
  exact if_pos rfl

variable (py) in
/-- The loop gives each definition the sum of the sizes before it, and no other index an offset. -/
lemma partOffsetsLoop_ok {sized : List SizedDef} (fill : Option {name : Text // IsPartName name})
    (hshort : ∀ d ∈ sized, d.digits.length ≤ 4300) (i cur : ℕ) (offsets : Dict ℕ ℕ) :
    ∃ offsets', partOffsetsLoop py i cur offsets (sized.map SizedDef.text ++
        fill.toList.map fun name => MtdLayout.fillText name.1) =
          .ok (offsets', cur + (sized.map SizedDef.size).sum) ∧
      (∀ j, j < i ∨ i + (sized.length + fill.toList.length) ≤ j →
        offsets'.get? j = offsets.get? j) ∧
      ∀ j < sized.length + fill.toList.length,
        offsets'.get? (i + j) = some (cur + ((sized.take j).map SizedDef.size).sum) := by
  induction sized generalizing i cur offsets with
  | nil =>
      cases fill with
      | none => exact ⟨offsets, rfl, fun _ _ => rfl, fun j hj => absurd hj (Nat.not_lt_zero j)⟩
      | some name =>
          refine ⟨offsets.set i cur, partOffsetsLoop_fill name.1 i cur offsets [], ?_, ?_⟩
          · intro j hj
            rw [Option.toList_some, List.length_singleton, List.length_nil] at hj
            rw [Dict.get?_set_of_ne _ _ (by omega)]
          · intro j hj
            obtain rfl : j = 0 := by simpa using hj
            simp [Dict.get?_set_self]
  | cons d sized ih =>
      obtain ⟨offsets', hloop, hframe, hget⟩ :=
        ih (fun d' hd' => hshort d' (List.mem_cons_of_mem _ hd')) (i + 1) (cur + d.size)
          (offsets.set i cur)
      refine ⟨offsets', ?_, ?_, ?_⟩
      · rw [List.map_cons, List.cons_append,
          partOffsetsLoop_sized d (hshort d List.mem_cons_self), hloop, List.map_cons,
          List.sum_cons, Nat.add_assoc]
      · intro j hj
        rw [List.length_cons] at hj
        rw [hframe j (by omega), Dict.get?_set_of_ne _ _ (by omega)]
      · intro j hj
        cases j with
        | zero =>
            rw [Nat.add_zero, hframe i (by omega), Dict.get?_set_self]
            rfl
        | succ j =>
            rw [List.length_cons] at hj
            have := hget j (by omega)
            rw [Nat.add_right_comm, Nat.add_assoc i] at this
            rw [this, List.take_succ_cons, List.map_cons, List.sum_cons, Nat.add_assoc]

/-- The loop raises at the first size with too many digits. -/
lemma partOffsetsLoop_error {sized : List SizedDef} {pds : List Text}
    (hlong : ∃ d ∈ sized, ¬ d.digits.length ≤ 4300) (i cur : ℕ) (offsets : Dict ℕ ℕ) :
    partOffsetsLoop py i cur offsets (sized.map SizedDef.text ++ pds) =
      .error intDigitsError := by
  induction sized generalizing i cur offsets with
  | nil =>
      obtain ⟨d, hd, -⟩ := hlong
      cases hd
  | cons d sized ih =>
      rw [List.map_cons, List.cons_append]
      by_cases h : d.digits.length ≤ 4300
      · rw [partOffsetsLoop_sized d h]
        obtain ⟨d', hd', hlong'⟩ := hlong
        rcases List.mem_cons.mp hd' with rfl | hd'
        · exact absurd h hlong'
        · exact ih ⟨d', hd', hlong'⟩ _ _ _
      · rw [partOffsetsLoop, d.strip_text, d.isFill_text, d.matchSize_text]
        simp only [d.int_digits_eq_none h, Bool.false_eq_true, if_false]

/-- Offsets that are there stay. -/
lemma get?_fillOffsets {cur count i off : ℕ} {offsets : Dict ℕ ℕ} (h : offsets.get? i = some off) :
    (fillOffsets cur count offsets).get? i = some off := by
  rw [fillOffsets]
  induction List.range count generalizing offsets with
  | nil => exact h
  | cons j js ih =>
      rw [List.foldl_cons]
      refine ih ?_
      cases hj : offsets.get? j with
      | some _ => exact h
      | none =>
          have hne : j ≠ i := by
            rintro rfl
            rw [h] at hj
            cases hj
          exact (Dict.get?_set_of_ne _ _ hne).trans h

lemma fillOffsets_succ (cur n : ℕ) (offsets : Dict ℕ ℕ) :
    fillOffsets cur (n + 1) offsets =
      match (fillOffsets cur n offsets).get? n with
      | some _ => fillOffsets cur n offsets
      | none => (fillOffsets cur n offsets).set n cur := by
  rw [fillOffsets, List.range_succ, List.foldl_append]
  rfl

/-- Indices without an offset start behind the definitions. -/
lemma get?_fillOffsets_of_none {cur count i : ℕ} {offsets : Dict ℕ ℕ} (hi : i < count)
    (h : offsets.get? i = none) : (fillOffsets cur count offsets).get? i = some cur := by
  -- the loop up to `i` does not touch `i`, the turn `i` sets it, the rest keeps it
  have hbefore : ∀ n ≤ i, (fillOffsets cur n offsets).get? i = none := by
    intro n
    induction n with
    | zero => exact fun _ => h
    | succ n ih =>
        intro hn
        rw [fillOffsets_succ]
        split
        · exact ih (by omega)
        · rw [Dict.get?_set_of_ne _ _ (by omega)]
          exact ih (by omega)
  induction count with
  | zero => exact absurd hi (Nat.not_lt_zero i)
  | succ n ih =>
      rw [fillOffsets_succ]
      rcases Nat.lt_succ_iff_lt_or_eq.mp hi with hlt | rfl
      · split
        · exact ih hlt
        · rw [Dict.get?_set_of_ne _ _ (by omega)]
          exact ih hlt
      · rw [hbefore i le_rfl]
        exact Dict.get?_set_self _ _ _

/-! ## The second reader -/

lemma ubiPartmapLoop_sized (d : SizedDef) (hword : IsWordText py d.name)
    (h : d.digits.length ≤ 4300) (i curOff : ℕ) (partmap : Dict ℕ (Text × ℕ × ℕ))
    (pds : List Text) :
    ubiPartmapLoop py i curOff partmap (d.text :: pds) =
      ubiPartmapLoop py (i + 1) (curOff + d.size) (partmap.set i (d.name, curOff, d.size)) pds := by
  rw [ubiPartmapLoop, d.strip_text, d.matchFill_text, d.matchSize_text]
  simp only [matchName_of_isWordText hword, d.int_digits h, SizedDef.size]

lemma ubiPartmapLoop_skip_sized (d : SizedDef) (hword : ¬ IsWordText py d.name) (i curOff : ℕ)
    (partmap : Dict ℕ (Text × ℕ × ℕ)) (pds : List Text) :
    ubiPartmapLoop py i curOff partmap (d.text :: pds) =
      ubiPartmapLoop py (i + 1) curOff partmap pds := by
  rw [ubiPartmapLoop, d.strip_text, d.matchFill_text, d.matchSize_text]
  simp only [matchName_of_not_isWordText d.isPartName hword]

lemma ubiPartmapLoop_fill {name : Text} (hword : IsWordText py name) (i curOff : ℕ)
    (partmap : Dict ℕ (Text × ℕ × ℕ)) :
    ubiPartmapLoop py i curOff partmap [MtdLayout.fillText name] =
      .ok (partmap.set i (name, curOff, 0)) := by
  have hfill : matchFill py (MtdLayout.fillText name) = some name := by
    rw [← matchName_of_isWordText hword]
    rfl
  rw [ubiPartmapLoop, strip_fillText, hfill]
  rfl

lemma ubiPartmapLoop_skip_fill {name : Text} (hname : IsPartName name)
    (hword : ¬ IsWordText py name) (i curOff : ℕ) (partmap : Dict ℕ (Text × ℕ × ℕ)) :
    ubiPartmapLoop py i curOff partmap [MtdLayout.fillText name] = .ok partmap := by
  have hfill : matchFill py (MtdLayout.fillText name) = none := by
    rw [← matchName_of_not_isWordText hname hword]
    rfl
  rw [ubiPartmapLoop, strip_fillText, hfill, matchSize_fillText]
  rfl

/-- The loop gives each definition its name and the sum of the sizes before it. -/
lemma ubiPartmapLoop_ok {sized : List SizedDef} {fill : Option {name : Text // IsPartName name}}
    (hshort : ∀ d ∈ sized, d.digits.length ≤ 4300) (hsized : ∀ d ∈ sized, IsWordText py d.name)
    (hfill : ∀ name ∈ fill, IsWordText py name.1) (i curOff : ℕ)
    (partmap : Dict ℕ (Text × ℕ × ℕ)) :
    ∃ partmap', ubiPartmapLoop py i curOff partmap (sized.map SizedDef.text ++
        fill.toList.map fun name => MtdLayout.fillText name.1) = .ok partmap' ∧
      (∀ j < i, partmap'.get? j = partmap.get? j) ∧
      ∀ j < sized.length + fill.toList.length, ∃ name sz,
        partmap'.get? (i + j) =
          some (name, curOff + ((sized.take j).map SizedDef.size).sum, sz) := by
  induction sized generalizing i curOff partmap with
  | nil =>
      cases fill with
      | none => exact ⟨partmap, rfl, fun _ _ => rfl, fun j hj => absurd hj (Nat.not_lt_zero j)⟩
      | some name =>
          refine ⟨_, ubiPartmapLoop_fill (hfill name rfl) i curOff partmap, ?_, ?_⟩
          · intro j hj
            rw [Dict.get?_set_of_ne _ _ (by omega)]
          · intro j hj
            obtain rfl : j = 0 := by simpa using hj
            exact ⟨name.1, 0, by simp [Dict.get?_set_self]⟩
  | cons d sized ih =>
      obtain ⟨partmap', hloop, hframe, hget⟩ :=
        ih (fun d' hd' => hshort d' (List.mem_cons_of_mem _ hd'))
          (fun d' hd' => hsized d' (List.mem_cons_of_mem _ hd')) (i + 1) (curOff + d.size)
          (partmap.set i (d.name, curOff, d.size))
      refine ⟨partmap', ?_, ?_, ?_⟩
      · rw [List.map_cons, List.cons_append,
          ubiPartmapLoop_sized d (hsized d List.mem_cons_self) (hshort d List.mem_cons_self), hloop]
      · intro j hj
        rw [hframe j (by omega), Dict.get?_set_of_ne _ _ (by omega)]
      · intro j hj
        cases j with
        | zero =>
            refine ⟨d.name, d.size, ?_⟩
            rw [Nat.add_zero, hframe i (by omega), Dict.get?_set_self]
            rfl
        | succ j =>
            rw [List.length_cons] at hj
            obtain ⟨name, sz, h⟩ := hget j (by omega)
            refine ⟨name, sz, ?_⟩
            rw [Nat.add_right_comm, Nat.add_assoc i] at h
            rw [h, List.take_succ_cons, List.map_cons, List.sum_cons, Nat.add_assoc]

/-- Entries before the definitions that are read stay. -/
lemma get?_ubiPartmapLoop {pds : List Text} {i curOff : ℕ}
    {partmap partmap' : Dict ℕ (Text × ℕ × ℕ)}
    (h : ubiPartmapLoop py i curOff partmap pds = .ok partmap') {j : ℕ} (hj : j < i) :
    partmap'.get? j = partmap.get? j := by
  induction pds generalizing i curOff partmap with
  | nil =>
      obtain rfl : partmap = partmap' := Except.ok.inj h
      rfl
  | cons pd pds ih =>
      rw [ubiPartmapLoop] at h
      split at h
      · exact (ih h (by omega)).trans (Dict.get?_set_of_ne _ _ (by omega))
      split at h
      · exact ih h (by omega)
      split at h
      · exact ih h (by omega)
      split at h
      · cases h
      · exact (ih h (by omega)).trans (Dict.get?_set_of_ne _ _ (by omega))

/-- A definition whose name is not a word is given no offset. -/
lemma ubiPartmapLoop_unassigned {sized : List SizedDef}
    {fill : Option {name : Text // IsPartName name}}
    (hbad : ∃ name ∈ sized.map SizedDef.name ++ fill.toList.map Subtype.val, ¬ IsWordText py name)
    {i curOff : ℕ} {partmap partmap' : Dict ℕ (Text × ℕ × ℕ)}
    (hnone : ∀ j, i ≤ j → partmap.get? j = none)
    (h : ubiPartmapLoop py i curOff partmap (sized.map SizedDef.text ++
      fill.toList.map fun name => MtdLayout.fillText name.1) = .ok partmap') :
    ∃ j < sized.length + fill.toList.length, partmap'.get? (i + j) = none := by
  induction sized generalizing i curOff partmap with
  | nil =>
      cases fill with
      | none =>
          obtain ⟨_, hmem, -⟩ := hbad
          cases hmem
      | some name =>
          obtain ⟨_, hmem, hword⟩ := hbad
          obtain rfl := List.mem_singleton.mp hmem
          obtain rfl : partmap = partmap' :=
            Except.ok.inj ((ubiPartmapLoop_skip_fill name.2 hword i curOff partmap).symm.trans h)
          exact ⟨0, Nat.one_pos, hnone i le_rfl⟩
  | cons d sized ih =>
      rw [List.map_cons, List.cons_append] at h
      by_cases hd : IsWordText py d.name
      · by_cases hlen : d.digits.length ≤ 4300
        · rw [ubiPartmapLoop_sized d hd hlen] at h
          have hbad' : ∃ name ∈ sized.map SizedDef.name ++ fill.toList.map Subtype.val,
              ¬ IsWordText py name := by
            obtain ⟨name, hmem, hword⟩ := hbad
            rcases List.mem_cons.mp hmem with rfl | hmem
            · exact absurd hd hword
            · exact ⟨name, hmem, hword⟩
          have hnone' : ∀ j, i + 1 ≤ j →
              (partmap.set i (d.name, curOff, d.size)).get? j = none := by
            intro j hj
            rw [Dict.get?_set_of_ne _ _ (by omega)]
            exact hnone j (by omega)
          obtain ⟨j, hj, hget⟩ := ih hbad' hnone' h
          refine ⟨j + 1, ?_, ?_⟩
          · rw [List.length_cons]
            omega
          · rw [← Nat.add_assoc, Nat.add_right_comm]
            exact hget
        · rw [ubiPartmapLoop, d.strip_text, d.matchFill_text, d.matchSize_text] at h
          simp only [matchName_of_isWordText hd, d.int_digits_eq_none hlen] at h
          cases h
      · rw [ubiPartmapLoop_skip_sized d hd] at h
        refine ⟨0, by rw [List.length_cons]; omega, ?_⟩
        exact (get?_ubiPartmapLoop h (Nat.lt_succ_self i)).trans (hnone i le_rfl)

/-! ## Agreement -/

namespace MtdLayout

variable (l : MtdLayout)

lemma length_defs : l.defs.length = l.sized.length + l.fill.toList.length := by
  rw [defs, List.length_append, List.length_map, List.length_map]

lemma partOffsets_text (hne : l.defs ≠ []) (count : ℕ) :
    partOffsets py l.text count =
      (partOffsetsLoop py 0 0 [] l.defs).map fun r => fillOffsets r.2 count r.1 := by
  rw [partOffsets, l.afterColon_text]
  simp only [Option.getD_some, l.splitOn_intercalate_defs hne]
  cases partOffsetsLoop py 0 0 [] l.defs with
  | error e => rfl
  | ok r => rfl

lemma ubiPartmap_text (hne : l.defs ≠ []) :
    ubiPartmap py l.text = ubiPartmapLoop py 0 0 [] l.defs := by
  rw [ubiPartmap, l.afterColon_text]
  simp only [l.splitOn_intercalate_defs hne]

/-- Without definitions both readers see one empty text, in which there is nothing to read. -/
lemma readersAgree_of_defs_eq_nil (hnil : l.defs = []) (count : ℕ) : ReadersAgree py l count := by
  refine ⟨fillOffsets 0 count [(0, 0)], [], ?_, ?_, ?_⟩
  · rw [partOffsets, l.afterColon_text, hnil]
    rfl
  · rw [ubiPartmap, l.afterColon_text, hnil]
    rfl
  · intro i hi
    rw [hnil] at hi
    exact absurd hi (Nat.not_lt_zero i)

end MtdLayout

/-- **The two readers agree on exactly the layouts whose names are words** and whose sizes `int`
reads. -/
theorem mtdparts_agree_iff (py : PyChars) (l : MtdLayout) (count : ℕ) :
    ReadersAgree py l count ↔
      (∀ name ∈ l.names, IsWordText py name) ∧ ∀ d ∈ l.sized, d.digits.length ≤ 4300 := by
  by_cases hnil : l.defs = []
  · obtain ⟨hsized, hfill⟩ := List.append_eq_nil_iff.mp hnil
    have hsized := List.map_eq_nil_iff.mp hsized
    have hnames : l.names = [] := by rw [MtdLayout.names, hsized, List.map_eq_nil_iff.mp hfill]; rfl
    refine ⟨fun _ => ⟨?_, ?_⟩, fun _ => l.readersAgree_of_defs_eq_nil hnil count⟩
    · rw [hnames]
      exact fun name hname => absurd hname List.not_mem_nil
    · rw [hsized]
      exact fun d hd => absurd hd List.not_mem_nil
  constructor
  · rintro ⟨offsets, partmap, hoffsets, hpartmap, hget⟩
    rw [l.partOffsets_text hnil] at hoffsets
    rw [l.ubiPartmap_text hnil] at hpartmap
    constructor
    · by_contra hbad
      push Not at hbad
      obtain ⟨j, hj, hnone⟩ :=
        ubiPartmapLoop_unassigned hbad (fun _ _ => Dict.get?_nil _) hpartmap
      obtain ⟨-, name, sz, hsome⟩ := hget j (l.length_defs ▸ hj)
      rw [Nat.zero_add, hsome] at hnone
      cases hnone
    · by_contra hlong
      push Not at hlong
      obtain ⟨d, hd, hdlen⟩ := hlong
      rw [MtdLayout.defs, partOffsetsLoop_error ⟨d, hd, not_le.mpr hdlen⟩] at hoffsets
      cases hoffsets
  · rintro ⟨hwords, hshort⟩
    have hsized : ∀ d ∈ l.sized, IsWordText py d.name := fun d hd =>
      hwords d.name (List.mem_append_left _ (List.mem_map_of_mem hd))
    have hfill : ∀ name ∈ l.fill, IsWordText py name.1 := fun name hname =>
      hwords name.1 (List.mem_append_right _ (List.mem_map_of_mem (Option.mem_toList.mpr hname)))
    obtain ⟨offsets, hoffsets, -, hoffset⟩ :=
      partOffsetsLoop_ok py l.fill hshort 0 0 []
    obtain ⟨partmap, hpartmap, -, hentry⟩ := ubiPartmapLoop_ok hshort hsized hfill 0 0 []
    refine ⟨fillOffsets (0 + (l.sized.map SizedDef.size).sum) count offsets, partmap, ?_, ?_, ?_⟩
    · rw [l.partOffsets_text hnil, MtdLayout.defs, hoffsets]
      rfl
    · rw [l.ubiPartmap_text hnil, MtdLayout.defs, hpartmap]
    · intro i hi
      rw [l.length_defs] at hi
      have hoff := hoffset i hi
      obtain ⟨name, sz, hmap⟩ := hentry i hi
      rw [Nat.zero_add, Nat.zero_add] at hoff hmap
      exact ⟨get?_fillOffsets hoff, name, sz, hmap⟩

lemma isPartName_boot : IsPartName "my-boot".toList := forall_mem_of_all (by decide)

lemma isPartName_kernel : IsPartName "kernel".toList := forall_mem_of_all (by decide)

lemma isUnit_mega : ∀ c ∈ some 'M', isUnit c = true := by
  intro c hc
  obtain rfl := Option.mem_some_iff.mp hc
  decide

/-- `hinand:1M(my-boot),4M(kernel)`. -/
def dashLayout : MtdLayout where
  dev := "hinand".toList
  sized := [⟨['1'], some 'M', "my-boot".toList, by decide, forall_mem_of_all (by decide),
      isUnit_mega, isPartName_boot⟩,
    ⟨['4'], some 'M', "kernel".toList, by decide, forall_mem_of_all (by decide),
      isUnit_mega, isPartName_kernel⟩]
  fill := none
  colon_notMem_dev := by decide

/-- Behind a name with a dash the second reader loses a megabyte: it puts the kernel at 0. -/
theorem readers_drift_behind_dash :
    partOffsets .ascii dashLayout.text 2 = .ok [(0, 0), (1, 0x100000)] ∧
    ubiPartmap .ascii dashLayout.text = .ok [(1, ("kernel".toList, 0, 0x400000))] ∧
    ¬ ReadersAgree .ascii dashLayout 2 := by
  have hpartmap : ubiPartmap .ascii dashLayout.text =
      .ok [(1, ("kernel".toList, 0, 0x400000))] := by decide +kernel
  refine ⟨by decide +kernel, hpartmap, ?_⟩
  rintro ⟨offsets, partmap, -, hpartmap', hget⟩
  obtain rfl := Except.ok.inj (hpartmap.symm.trans hpartmap')
  obtain ⟨-, name, sz, hsome⟩ := hget 0 (by decide)
  cases hsome

end Defib
