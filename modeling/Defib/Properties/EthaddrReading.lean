import Defib.Restore.UbootEnv

/-!
# The address that is read and made

`printenv` shows a variable on a line of its own, between others: what `parse_printenv_value` finds
there is the value, but for white space around it.  An address that was made of random bytes is well
formed and not the default.
-/

namespace Defib

/-! ## The value that is shown -/

/-- What `printenv` answers for a variable: its line between others, or no such line. -/
def ShowsVar (var : Text) (out : Text) : Option Text → Prop
  | some value => ∃ front eol back, ¬ (var ++ ['=']) <:+: front ∧
      (front = [] ∨ front.getLast? = some '\n') ∧ (eol = ['\n'] ∨ eol = ['\r', '\n']) ∧
      out = front ++ ((var ++ ['=']) ++ (value ++ (eol ++ back)))
  | none => ¬ (var ++ ['=']) <:+: out

/-- The values that a line can show. -/
def OnLine (value : Text) : Prop := value ≠ [] ∧ '\n' ∉ value

section Parse

variable {py : PyChars} {var : Text}

lemma isSpace_newline (py : PyChars) : py.isSpace '\n' = true := by
  rw [py.isSpace_ascii _ (by decide)]
  rfl

lemma endsLine_of_spaces {text : Text} (h : ∀ c ∈ text, py.isSpace c = true) (tail : Text) :
    endsLine py (text ++ '\n' :: tail) = true := by
  rw [endsLine, List.takeWhile_append_of_pos h, List.takeWhile_cons, isSpace_newline]
  simp

lemma endsLine_of_not_space {text : Text} {x : Char} {rest : Text} (hline : '\n' ∉ text)
    (h : text.dropWhile py.isSpace = x :: rest) (tail : Text) :
    endsLine py (text ++ '\n' :: tail) = false := by
  have hx : py.isSpace x = false := by
    have hhead := List.head?_dropWhile_not py.isSpace text
    rw [h] at hhead
    simpa using hhead
  have hsplit : text ++ '\n' :: tail =
      text.takeWhile py.isSpace ++ (x :: rest ++ '\n' :: tail) := by
    rw [← List.append_assoc, ← h, List.takeWhile_append_dropWhile]
  have hspaces : ∀ c ∈ text.takeWhile py.isSpace, py.isSpace c = true :=
    fun c hc => List.mem_takeWhile_imp hc
  have hstop : ∀ c ∈ (x :: rest ++ '\n' :: tail).head?, py.isSpace c = false := by
    rintro c hc
    obtain rfl : x = c := Option.some.inj hc
    exact hx
  rw [endsLine, hsplit, takeWhile_append_stop hspaces hstop, dropWhile_append_stop hspaces hstop]
  have hno : '\n' ∉ text.takeWhile py.isSpace := fun hmem => hline (List.takeWhile_subset _ hmem)
  simp [hno]

/-- The pattern takes the value up to the white space at the end of its line. -/
lemma lazyValue_line (py : PyChars) {value : Text} (hvalue : OnLine value) (tail : Text) :
    ∃ front spaces, value = front ++ spaces ∧ (∀ c ∈ spaces, py.isSpace c = true) ∧
      lazyValue py (value ++ '\n' :: tail) = some front := by
  obtain ⟨hne, hline⟩ := hvalue
  induction value with
  | nil => exact absurd rfl hne
  | cons c cs ih =>
      have hc : c ≠ '\n' := fun h => hline (h ▸ List.mem_cons_self)
      have hcs : '\n' ∉ cs := fun h => hline (List.mem_cons_of_mem c h)
      cases hdrop : cs.dropWhile py.isSpace with
      | nil =>
          have hspaces : ∀ d ∈ cs, py.isSpace d = true := List.dropWhile_eq_nil_iff.mp hdrop
          refine ⟨[c], cs, rfl, hspaces, ?_⟩
          rw [List.cons_append, lazyValue, if_neg hc, if_pos (endsLine_of_spaces hspaces tail)]
      | cons x rest =>
          have hcsne : cs ≠ [] := by
            rintro rfl
            cases hdrop
          obtain ⟨front, spaces, hsplit, hspaces, hlazy⟩ := ih hcsne hcs
          refine ⟨c :: front, spaces, by rw [hsplit, List.cons_append], hspaces, ?_⟩
          have hends := endsLine_of_not_space hcs hdrop tail
          rw [List.cons_append, lazyValue, if_neg hc, if_neg (by rw [hends]; decide), hlazy,
            Option.map_some]

/-- What stands before the line is passed over. -/
lemma lineValue_front {front line value : Text} (hvar : '\n' ∉ var)
    (hfront : ¬ (var ++ ['=']) <:+: front)
    (hend : front.getLast? = some '\n') (hline : lineValue py var line = some value) :
    lineValue py var (front ++ line) = none ∨ lineValue py var (front ++ line) = some value := by
  cases hdrop : front.dropWhile py.isSpace with
  | nil =>
      right
      rw [← hline, lineValue, lineValue,
        List.dropWhile_append_of_pos (List.dropWhile_eq_nil_iff.mp hdrop)]
  | cons x rest =>
      left
      have hsuffix : x :: rest <:+ front := hdrop ▸ List.dropWhile_suffix _
      have hnewline : '\n' ∈ x :: rest := by
        obtain ⟨pre, hpre⟩ := hsuffix
        rw [← hpre, List.getLast?_append_of_ne_nil _ (List.cons_ne_nil x rest)] at hend
        exact List.mem_of_getLast? hend
      have hlit : lit (var ++ ['=']) (x :: rest ++ line) = none := by
        cases hlit : lit (var ++ ['=']) (x :: rest ++ line) with
        | none => rfl
        | some r =>
            exfalso
            rcases List.append_eq_append_iff.mp (lit_eq_some_iff.mp hlit) with
              ⟨mid, hmid, -⟩ | ⟨mid, hmid, -⟩
            · have hmem : '\n' ∈ var ++ ['='] := hmid ▸ List.mem_append_left mid hnewline
              rcases List.mem_append.mp hmem with hmem | hmem
              · exact hvar hmem
              · exact absurd (List.mem_singleton.mp hmem) (by decide)
            · refine hfront (List.IsInfix.trans ?_ hsuffix.isInfix)
              rw [hmid]
              exact (List.prefix_append _ _).isInfix
      have hcons : (front ++ line).dropWhile py.isSpace = x :: rest ++ line := by
        rw [List.dropWhile_append, hdrop]
        rfl
      rw [lineValue, hcons, hlit, Option.bind_none]

lemma searchValue_front {front line value : Text} (hvar : '\n' ∉ var)
    (hfront : ¬ (var ++ ['=']) <:+: front) (hend : front = [] ∨ front.getLast? = some '\n')
    (hline : lineValue py var line = some value) (start : Bool)
    (hstart : front = [] → start = true) :
    searchValue py var start (front ++ line) = some value := by
  induction front generalizing start with
  | nil =>
      rw [hstart rfl, List.nil_append]
      cases line with
      | nil => rw [searchValue, if_pos rfl, hline]
      | cons c cs => rw [searchValue, if_pos rfl, hline]
  | cons c cs ih =>
      have hlast : (c :: cs).getLast? = some '\n' := hend.resolve_left (List.cons_ne_nil c cs)
      have hcs : ¬ (var ++ ['=']) <:+: cs := fun h => hfront (h.trans (List.suffix_cons c cs).isInfix)
      have hcsend : cs = [] ∨ cs.getLast? = some '\n' := by
        cases cs with
        | nil => exact .inl rfl
        | cons d ds =>
            right
            rwa [List.getLast?_cons_cons] at hlast
      have hnext : searchValue py var (c = '\n') (cs ++ line) = some value := by
        refine ih hcs hcsend _ ?_
        rintro rfl
        simpa using hlast
      rw [List.cons_append, searchValue]
      cases start with
      | false => exact hnext
      | true =>
          rw [if_pos rfl]
          rcases lineValue_front hvar hfront hlast hline with h | h
          · rw [List.cons_append] at h
            rw [h]
            exact hnext
          · rw [List.cons_append] at h
            rw [h]

/-- A match has the name of the variable in it. -/
lemma isInfix_of_searchValue {start : Bool} {text value : Text}
    (h : searchValue py var start text = some value) : (var ++ ['=']) <:+: text := by
  have hline : ∀ text, (lineValue py var text).isSome = true → (var ++ ['=']) <:+: text := by
    intro text hsome
    rw [lineValue] at hsome
    cases hlit : lit (var ++ ['=']) (text.dropWhile py.isSpace) with
    | none =>
        rw [hlit] at hsome
        cases hsome
    | some rest =>
        refine List.IsInfix.trans ?_ (List.dropWhile_suffix py.isSpace).isInfix
        rw [lit_eq_some_iff.mp hlit]
        exact (List.prefix_append _ _).isInfix
  induction text generalizing start with
  | nil =>
      rw [searchValue] at h
      split_ifs at h
      exact hline [] (by rw [h]; rfl)
  | cons c cs ih =>
      have hcs : searchValue py var (c = '\n') cs = some value → (var ++ ['=']) <:+: c :: cs :=
        fun hnext => (ih hnext).trans (List.suffix_cons c cs).isInfix
      rw [searchValue] at h
      cases start with
      | false => exact hcs h
      | true =>
          rw [if_pos rfl] at h
          cases hhere : lineValue py var (c :: cs) with
          | none =>
              rw [hhere] at h
              exact hcs h
          | some here => exact hline (c :: cs) (by rw [hhere]; rfl)

/-- **What is shown is what is parsed**, but for the white space around it. -/
lemma parsePrintenvValue_of_shows (hvar : '\n' ∉ var)
    (hhead : ∀ c ∈ (var ++ ['=']).head?, py.isSpace c = false) {out : Text} {value : Option Text}
    (hvalue : ∀ v ∈ value, OnLine v) (h : ShowsVar var out value) :
    parsePrintenvValue py out var = value.map py.strip := by
  cases value with
  | none =>
      rw [parsePrintenvValue]
      cases hsearch : searchValue py var true out with
      | none => rfl
      | some v => exact absurd (isInfix_of_searchValue hsearch) h
  | some value =>
      obtain ⟨hne, hline⟩ := hvalue value rfl
      obtain ⟨front, eol, back, hfront, hend, heol, rfl⟩ := h
      -- the end of the line, of which a carriage return counts as white space of the value
      obtain ⟨cr, hcr, hcrline, heol⟩ : ∃ cr : Text, (∀ c ∈ cr, py.isSpace c = true) ∧
          '\n' ∉ cr ∧ eol = cr ++ ['\n'] := by
        rcases heol with rfl | rfl
        · exact ⟨[], fun _ hc => absurd hc List.not_mem_nil, List.not_mem_nil, rfl⟩
        · refine ⟨['\r'], fun c hc => ?_, by decide, rfl⟩
          rw [List.mem_singleton.mp hc, py.isSpace_ascii _ (by decide)]
          rfl
      have hfull : OnLine (value ++ cr) := by
        refine ⟨fun hnil => hne (List.append_eq_nil_iff.mp hnil).1, fun hmem => ?_⟩
        exact (List.mem_append.mp hmem).elim hline hcrline
      obtain ⟨got, spaces, hsplit, hspaces, hlazy⟩ := lazyValue_line py hfull back
      have hhere : lineValue py var ((var ++ ['=']) ++ (value ++ (eol ++ back))) = some got := by
        have hdrop : ((var ++ ['=']) ++ (value ++ (eol ++ back))).dropWhile py.isSpace =
            (var ++ ['=']) ++ (value ++ (eol ++ back)) := by
          refine @dropWhile_append_stop _ _ [] _ (fun _ hx => absurd hx List.not_mem_nil) fun c hc => ?_
          refine hhead c ?_
          have hne : var ++ ['='] ≠ [] := List.append_ne_nil_of_right_ne_nil var (List.cons_ne_nil _ _)
          rwa [← List.head?_append_of_ne_nil (var ++ ['=']) hne]
        rw [lineValue, hdrop, lit_append, Option.bind_some, ← hlazy, heol]
        simp
      rw [parsePrintenvValue, searchValue_front hvar hfront hend hhere true fun _ => rfl]
      have hstrip : py.strip got = py.strip value := by
        rw [← py.strip_append_spaces hspaces, ← hsplit, py.strip_append_spaces hcr]
      rw [Option.map_some, Option.map_some, hstrip]

end Parse

/-! ## Addresses -/

section Mac

lemma octet_hexDigits (b : UInt8) (rest : Text) :
    octet (hexDigits 2 b.toNat ++ rest) = some rest := by
  rw [octet, hexPair_hexDigits, Option.map_some]

lemma length_eq_six {raw : List UInt8} (h : raw.length = 6) :
    ∃ a b c d e f, raw = [a, b, c, d, e, f] := by
  rcases raw with _ | ⟨a, _ | ⟨b, _ | ⟨c, _ | ⟨d, _ | ⟨e, _ | ⟨f, _ | ⟨g, rest⟩⟩⟩⟩⟩⟩⟩ <;>
    simp at h
  exact ⟨a, b, c, d, e, f, rfl⟩

/-- Six octets are an address. -/
lemma matchMac_macText {raw : List UInt8} (h : raw.length = 6) : matchMac (macText raw) = true := by
  obtain ⟨a, b, c, d, e, f, rfl⟩ := length_eq_six h
  have htext : macText [a, b, c, d, e, f] = hexDigits 2 a.toNat ++ (':' ::
      (hexDigits 2 b.toNat ++ (':' :: (hexDigits 2 c.toNat ++ (':' :: (hexDigits 2 d.toNat ++ (':' ::
      (hexDigits 2 e.toNat ++ (':' :: (hexDigits 2 f.toNat ++ [])))))))))) := rfl
  rw [matchMac, htext]
  simp only [octets, octet_hexDigits, Option.bind_some, lit, if_true]
  rfl

/-- The first octet is that of an address that is for one station and given locally. -/
lemma localOctet_mod (b : UInt8) : (b &&& 0xFC ||| 0x02).toNat % 4 = 2 := by
  have hall : ∀ x : BitVec 8, (x &&& 0xFC#8 ||| 0x02#8).toNat % 4 = 2 := by decide
  exact hall b.toBitVec

variable (py : PyChars) (token : TokenBytes)

lemma forall_mem_macText {p : Char → Prop} (hp : ∀ d < 16, p (Nat.digitChar d)) (hcolon : p ':')
    (raw : List UInt8) : ∀ c ∈ macText raw, p c := by
  induction raw with
  | nil => exact fun c hc => absurd hc List.not_mem_nil
  | cons b raw ih =>
      cases raw with
      | nil =>
          intro c hc
          have hmem : c ∈ hexDigits 2 b.toNat := by simpa [macText] using hc
          exact forall_mem_hexDigits hp 2 b.toNat c hmem
      | cons b' raw =>
          have hcons : macText (b :: b' :: raw) =
              hexDigits 2 b.toNat ++ ':' :: macText (b' :: raw) := by
            simp [macText, List.intercalate]
          intro c hc
          rw [hcons] at hc
          rcases List.mem_append.mp hc with hc | hc
          · exact forall_mem_hexDigits hp 2 b.toNat c hc
          · rcases List.mem_cons.mp hc with rfl | hc
            · exact hcolon
            · exact ih c hc

/-- An address is not changed by `strip` or `lower`. -/
lemma map_toLower_strip_macText (raw : List UInt8) :
    (py.strip (macText raw)).map Char.toLower = macText raw := by
  have hchar : ∀ c ∈ macText raw, py.isSpace c = false ∧ c.toLower = c := by
    have hascii : ∀ c ∈ macText raw,
        c.toNat < 128 ∧ isAsciiSpace c = false ∧ c.toLower = c :=
      forall_mem_macText (by decide) (by decide) raw
    intro c hc
    obtain ⟨hlt, hspace, hlower⟩ := hascii c hc
    exact ⟨by rw [py.isSpace_ascii c hlt, hspace], hlower⟩
  have hfront : (macText raw).dropWhile py.isSpace = macText raw := by
    rw [List.dropWhile_eq_self_iff]
    intro hpos
    rw [(hchar _ (List.getElem_mem hpos)).1]
    decide
  have hback : (macText raw).rdropWhile py.isSpace = macText raw := by
    rw [List.rdropWhile_eq_self_iff]
    intro hne
    rw [(hchar _ (List.getLast_mem hne)).1]
    decide
  have hstrip : py.strip (macText raw) = macText raw := by
    rw [PyChars.strip, hfront]
    exact hback
  rw [hstrip, List.map_congr_left fun c hc => (hchar c hc).2, List.map_id']

/-- An address that was made of random bytes is well formed, and not the default. -/
lemma not_isUnsetOrDefault_generate :
    isUnsetOrDefaultEthaddr py (some (generateLocallyAdministeredMac token)) = false := by
  obtain ⟨raw, hraw⟩ := token
  obtain ⟨a, b, c, d, e, f, rfl⟩ := length_eq_six hraw
  have hgenerate : generateLocallyAdministeredMac ⟨[a, b, c, d, e, f], hraw⟩ =
      macText [a &&& 0xFC ||| 0x02, b, c, d, e, f] := rfl
  have hdefault : macText [a &&& 0xFC ||| 0x02, b, c, d, e, f] ≠ openipcDefaultEthaddr := by
    intro heq
    have hfront : hexDigits 2 (a &&& 0xFC ||| 0x02).toNat = ['0', '0'] :=
      congrArg (List.take 2) heq
    have hlow : Nat.digitChar ((a &&& 0xFC ||| 0x02).toNat % 16) = '0' :=
      (List.cons.inj (List.cons.inj hfront).2).1
    have hzero : ∀ d < 16, Nat.digitChar d = '0' → d = 0 := by decide
    have hmod := hzero _ (Nat.mod_lt _ (by decide)) hlow
    have htwo := localOctet_mod a
    omega
  rw [hgenerate, isUnsetOrDefaultEthaddr, map_toLower_strip_macText, matchMac_macText (by rfl),
    decide_eq_false hdefault]
  rfl

end Mac

end Defib
