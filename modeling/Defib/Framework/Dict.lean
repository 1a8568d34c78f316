import Mathlib.Data.List.Induction
import Mathlib.Data.List.Nodup
import Mathlib.Tactic.Common

/-!
# Dictionaries

A dictionary is the list of its entries in the order in which their keys were first set.  Setting a
key that is there replaces its value in place.

`get?_set` and `get?_del` say what the operations do to a lookup, `get?_setAll` what a sequence of
settings does: the last one counts.
-/

namespace Defib

/-- Entries in the order in which their keys were first set. -/
abbrev Dict (κ α : Type*) := List (κ × α)

namespace Dict

variable {κ α : Type*} [DecidableEq κ]

/-- `d.get(k)`. -/
def get? : Dict κ α → κ → Option α
  | [], _ => none
  | (k', v) :: d, k => if k' = k then some v else get? d k

/-- `d[k] = v`. -/
def set : Dict κ α → κ → α → Dict κ α
  | [], k, v => [(k, v)]
  | (k', v') :: d, k, v => if k' = k then (k, v) :: d else (k', v') :: set d k v

/-- Set one after the other. -/
def setAll (d : Dict κ α) (es : List (κ × α)) : Dict κ α :=
  es.foldl (fun d e => Dict.set d e.1 e.2) d

/-- `del d[k]`. -/
def del (d : Dict κ α) (k : κ) : Dict κ α := d.filter fun e => e.1 ≠ k

@[simp] lemma get?_nil (k : κ) : get? ([] : Dict κ α) k = none := rfl

lemma get?_set (d : Dict κ α) (k : κ) (v : α) (k' : κ) :
    (d.set k v).get? k' = if k = k' then some v else d.get? k' := by
  induction d with
  | nil => simp [set, get?]
  | cons e d ih =>
      obtain ⟨k₀, v₀⟩ := e
      by_cases h : k₀ = k
      · subst h
        simp only [set, if_true, get?]
        split
        · rfl
        · rfl
      · simp only [set, if_neg h, get?, ih]
        by_cases h₀ : k₀ = k'
        · rw [if_pos h₀, if_pos h₀, if_neg (by rintro rfl; exact h h₀)]
        · rw [if_neg h₀, if_neg h₀]

lemma get?_set_self (d : Dict κ α) (k : κ) (v : α) : (d.set k v).get? k = some v := by
  rw [get?_set, if_pos rfl]

lemma get?_set_of_ne (d : Dict κ α) {k k' : κ} (v : α) (h : k ≠ k') :
    (d.set k v).get? k' = d.get? k' := by
  rw [get?_set, if_neg h]

lemma get?_del (d : Dict κ α) (k k' : κ) :
    (d.del k).get? k' = if k = k' then none else d.get? k' := by
  induction d with
  | nil => simp [del]
  | cons e d ih =>
      obtain ⟨k₀, v₀⟩ := e
      simp only [del] at ih ⊢
      by_cases h : k₀ = k
      · subst h
        rw [List.filter_cons_of_neg (by simp), ih, get?]
        split
        · rfl
        · rfl
      · rw [List.filter_cons_of_pos (by simpa using h), get?, ih, get?]
        by_cases h₀ : k₀ = k'
        · rw [if_pos h₀, if_pos h₀, if_neg (by rintro rfl; exact h h₀)]
        · rw [if_neg h₀, if_neg h₀]

lemma setAll_append (d : Dict κ α) (es es' : List (κ × α)) :
    d.setAll (es ++ es') = (d.setAll es).setAll es' := List.foldl_append

/-- The first key stays first. -/
lemma exists_setAll_cons (e : κ × α) (d : Dict κ α) (es : List (κ × α)) :
    ∃ (v : α) (d' : Dict κ α), setAll (e :: d) es = (e.1, v) :: d' := by
  induction es generalizing e d with
  | nil => exact ⟨e.2, d, rfl⟩
  | cons e' es ih =>
      rw [setAll, List.foldl_cons, ← setAll, set]
      split
      · rename_i h
        obtain ⟨v, d', heq⟩ := ih (e'.1, e'.2) d
        exact ⟨v, d', by rw [heq, h]⟩
      · exact ih e _

/-- A key is found when there is an entry for it. -/
lemma exists_get?_iff (d : Dict κ α) (k : κ) :
    (∃ v, d.get? k = some v) ↔ k ∈ d.map Prod.fst := by
  induction d with
  | nil => simp
  | cons e d ih =>
      obtain ⟨k₀, v₀⟩ := e
      rw [get?]
      by_cases h : k₀ = k
      · simp [h]
      · simp only [if_neg h, ih, List.map_cons, List.mem_cons]
        exact ⟨.inr, fun h' => h'.resolve_left (Ne.symm h)⟩

/-- Entries are found when no key has two of them. -/
lemma get?_eq_some_of_mem {d : Dict κ α} (hnodup : (d.map Prod.fst).Nodup) {k : κ} {v : α}
    (h : (k, v) ∈ d) : d.get? k = some v := by
  induction d with
  | nil => cases h
  | cons e d ih =>
      obtain ⟨k₀, v₀⟩ := e
      rw [List.map_cons, List.nodup_cons] at hnodup
      rw [get?]
      rcases List.mem_cons.mp h with h | h
      · obtain ⟨rfl, rfl⟩ := Prod.mk.inj h
        exact if_pos rfl
      · have hne : k₀ ≠ k := by
          rintro rfl
          exact hnodup.1 (List.mem_map.mpr ⟨_, h, rfl⟩)
        rw [if_neg hne]
        exact ih hnodup.2 h

/-- What is found is an entry. -/
lemma mem_of_get?_eq_some {d : Dict κ α} {k : κ} {v : α} (h : d.get? k = some v) :
    (k, v) ∈ d := by
  induction d with
  | nil => cases h
  | cons e d ih =>
      obtain ⟨k₀, v₀⟩ := e
      rw [get?] at h
      split at h
      · rename_i hk
        obtain rfl := Option.some.inj h
        exact hk ▸ List.mem_cons_self
      · exact List.mem_cons_of_mem _ (ih h)

/-- **The last of a sequence of settings counts.** -/
lemma get?_setAll (d : Dict κ α) (es : List (κ × α)) (k : κ) :
    (d.setAll es).get? k =
      ((es.filter fun e => e.1 = k).getLast?.map Prod.snd).or (d.get? k) := by
  induction es generalizing d with
  | nil => rfl
  | cons e es ih =>
      rw [setAll, List.foldl_cons, ← setAll, ih, get?_set]
      by_cases h : e.1 = k
      · rw [if_pos h, List.filter_cons_of_pos (by simpa using h), List.getLast?_cons]
        cases (es.filter fun e => e.1 = k).getLast? with
        | none => rfl
        | some e' => rfl
      · rw [if_neg h, List.filter_cons_of_neg (by simpa using h)]

/-- A key is found after a sequence of settings when there is one for it, with the value of the
last. -/
lemma exists_getLast?_of_mem {es : List (κ × α)} {e : κ × α} (h : e ∈ es) :
    ∃ e' ∈ es, e'.1 = e.1 ∧ (setAll [] es).get? e.1 = some e'.2 := by
  have hmem : e ∈ es.filter fun e' => e'.1 = e.1 := List.mem_filter.mpr ⟨h, by simp⟩
  obtain ⟨e', hlast⟩ : ∃ e', (es.filter fun e' => e'.1 = e.1).getLast? = some e' :=
    Option.ne_none_iff_exists'.mp fun hnone => by
      rw [List.getLast?_eq_none_iff.mp hnone] at hmem
      cases hmem
  obtain ⟨hes, hkey⟩ := List.mem_filter.mp (List.mem_of_getLast? hlast)
  refine ⟨e', hes, by simpa using hkey, ?_⟩
  rw [get?_setAll, hlast]
  rfl

/-- What a sequence of settings puts there is one of them. -/
lemma mem_of_get?_setAll {es : List (κ × α)} {k : κ} {v : α}
    (h : (setAll [] es).get? k = some v) : (k, v) ∈ es := by
  rw [get?_setAll, get?_nil, Option.or_none, Option.map_eq_some_iff] at h
  obtain ⟨e, hlast, rfl⟩ := h
  obtain ⟨hes, hkey⟩ := List.mem_filter.mp (List.mem_of_getLast? hlast)
  obtain rfl : e.1 = k := by simpa using hkey
  exact hes

lemma mem_set {d : Dict κ α} {k : κ} {v : α} {e : κ × α} (h : e ∈ d.set k v) :
    e = (k, v) ∨ e ∈ d := by
  induction d with
  | nil => exact .inl (List.mem_singleton.mp h)
  | cons e₀ d ih =>
      rw [set] at h
      split at h
      · exact (List.mem_cons.mp h).imp_right (List.mem_cons_of_mem _)
      · rcases List.mem_cons.mp h with rfl | h
        · exact .inr List.mem_cons_self
        · exact (ih h).imp_right (List.mem_cons_of_mem _)

/-- Every entry is a setting. -/
lemma mem_of_mem_setAll {es : List (κ × α)} {e : κ × α} (h : e ∈ setAll [] es) : e ∈ es := by
  induction es using List.reverseRecOn with
  | nil => cases h
  | append_singleton es e' ih =>
      rw [setAll_append] at h
      rcases mem_set h with rfl | h
      · simp
      · exact List.mem_append_left _ (ih h)

/-- If no two settings are of one key, each of them counts. -/
lemma get?_setAll_iff {es : List (κ × α)} (hnodup : (es.map Prod.fst).Nodup) {k : κ} {v : α} :
    (setAll [] es).get? k = some v ↔ (k, v) ∈ es := by
  refine ⟨mem_of_get?_setAll, fun h => ?_⟩
  obtain ⟨e, hes, hkey, hget⟩ := exists_getLast?_of_mem h
  obtain rfl : e = (k, v) := List.inj_on_of_nodup_map hnodup hes h hkey
  exact hget

end Dict

end Defib
