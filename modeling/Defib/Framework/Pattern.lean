import Defib.Framework.PyChars

/-!
# Patterns

The regular expressions of a program that has few of them, as functions: a pattern takes a text and
gives what it captures at the front of the text, and the text behind the match.  `lit` matches a
literal and `many1` the greedy `[...]+`; patterns are put together as computations in `Option`.
There is no backtracking, so this is right for patterns in which a class is followed by something
that is not in it.

`findall` finds the matches from left to right that do not overlap.  `findall_skip` passes over a
stretch in which no match starts, and `findall_hit` records a match.
-/

namespace Defib

/-- A literal: the text behind it. -/
def lit : Text → Text → Option Text
  | [], text => some text
  | _ :: _, [] => none
  | c :: cs, d :: ds => if c = d then lit cs ds else none

/-- The greedy `[...]+` of a class: what it matches, and the text behind. -/
def many1 (p : Char → Bool) (text : Text) : Option (Text × Text) :=
  if (text.takeWhile p).isEmpty then none else some (text.takeWhile p, text.dropWhile p)

lemma lit_eq_some_iff {s text rest : Text} : lit s text = some rest ↔ text = s ++ rest := by
  induction s generalizing text with
  | nil =>
      rw [lit, List.nil_append]
      exact ⟨Option.some.inj, congrArg some⟩
  | cons c cs ih =>
      cases text with
      | nil => simp [lit]
      | cons d ds =>
          rw [lit, List.cons_append]
          by_cases h : c = d
          · subst h
            rw [if_pos rfl, ih]
            exact ⟨congrArg (c :: ·), fun heq => (List.cons.inj heq).2⟩
          · rw [if_neg h]
            refine ⟨nofun, fun heq => absurd (List.cons.inj heq).1.symm h⟩

lemma lit_append (s rest : Text) : lit s (s ++ rest) = some rest := lit_eq_some_iff.mpr rfl

lemma many1_eq_some_iff {p : Char → Bool} {text xs ys : Text} :
    many1 p text = some (xs, ys) ↔
      text = xs ++ ys ∧ xs ≠ [] ∧ (∀ x ∈ xs, p x = true) ∧ ∀ y ∈ ys.head?, p y = false := by
  rw [many1]
  constructor
  · intro h
    split at h
    · cases h
    · rename_i hne
      obtain ⟨rfl, rfl⟩ := Prod.mk.inj (Option.some.inj h)
      refine ⟨List.takeWhile_append_dropWhile.symm, by simpa using hne, ?_, ?_⟩
      · intro x hx
        exact List.all_eq_true.mp List.all_takeWhile x hx
      · intro y hy
        have hnot := List.head?_dropWhile_not p text
        rw [Option.mem_def.mp hy] at hnot
        simpa using hnot
  · rintro ⟨rfl, hne, hxs, hys⟩
    rw [takeWhile_append_stop hxs hys, dropWhile_append_stop hxs hys, if_neg (by simpa using hne)]

lemma many1_append {p : Char → Bool} {xs ys : Text} (hne : xs ≠ []) (hxs : ∀ x ∈ xs, p x = true)
    (hys : ∀ y ∈ ys.head?, p y = false) : many1 p (xs ++ ys) = some (xs, ys) :=
  many1_eq_some_iff.mpr ⟨rfl, hne, hxs, hys⟩

lemma many1_eq_none {p : Char → Bool} {text : Text} (h : ∀ c ∈ text.head?, p c = false) :
    many1 p text = none := by
  have htake : ([] ++ text).takeWhile p = [] :=
    takeWhile_append_stop (fun x hx => absurd hx List.not_mem_nil) h
  rw [List.nil_append] at htake
  rw [many1, htake]
  rfl

/-! ## Searching -/

variable {α : Type}

/-- `re.search(m, text)`: what the first match captures. -/
def search (m : Text → Option (α × Text)) : Text → Option α
  | [] => (m []).map Prod.fst
  | c :: cs =>
      match m (c :: cs) with
      | some (a, _) => some a
      | none => search m cs

/-- The matches that start behind the first `skip` characters. -/
def findallFrom (m : Text → Option (α × Text)) : ℕ → Text → List α
  | _, [] => []
  | skip + 1, _ :: cs => findallFrom m skip cs
  | 0, c :: cs =>
      match m (c :: cs) with
      | some (a, rest) => a :: findallFrom m (cs.length - rest.length) cs
      | none => findallFrom m 0 cs

/-- `re.findall(m, text)`, of a pattern that matches no empty text. -/
def findall (m : Text → Option (α × Text)) (text : Text) : List α := findallFrom m 0 text

variable {m : Text → Option (α × Text)}

/-- A match at the front is the first one. -/
lemma search_of_match {text rest : Text} {a : α} (h : m text = some (a, rest)) :
    search m text = some a := by
  cases text with
  | nil => rw [search, h, Option.map_some]
  | cons c cs => rw [search, h]

lemma findallFrom_length (us text : Text) :
    findallFrom m us.length (us ++ text) = findallFrom m 0 text := by
  induction us with
  | nil => rfl
  | cons u us ih => exact ih

/-- A match is recorded. -/
lemma findall_hit {us text : Text} {a : α} (hne : us ≠ []) (h : m (us ++ text) = some (a, text)) :
    findall m (us ++ text) = a :: findall m text := by
  obtain ⟨u, us, rfl⟩ := List.exists_cons_of_ne_nil hne
  rw [List.cons_append] at h
  have hskip : (us ++ text).length - text.length = us.length := by
    rw [List.length_append, Nat.add_sub_cancel]
  rw [findall, List.cons_append, findallFrom, h]
  dsimp only
  rw [hskip, findallFrom_length, findall]

lemma findall_cons_of_none {c : Char} {text : Text} (h : m (c :: text) = none) :
    findall m (c :: text) = findall m text := by
  rw [findall, findallFrom, h, findall]

/-- A stretch in which no match starts is passed over. -/
lemma findall_skip {us text : Text}
    (h : ∀ u vs, u :: vs <:+ us → m (u :: vs ++ text) = none) :
    findall m (us ++ text) = findall m text := by
  induction us with
  | nil => rfl
  | cons u us ih =>
      have hnone : m (u :: (us ++ text)) = none := h u us List.suffix_rfl
      rw [List.cons_append, findall_cons_of_none hnone]
      exact ih fun u' vs hvs => h u' vs (hvs.trans (List.suffix_cons u us))

end Defib
