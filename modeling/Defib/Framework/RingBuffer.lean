import Defib.Framework.Store

/-!
# Ring buffers

A ring of `size` cells holds a queue between the place where the next element is read and the place
where the next one is written.  The places are equal when it is empty, so one cell stays free.

`contents_push` and `contents_pop` say what the operations do to the queue: `push` appends an
element unless `size - 1` are there, and `pop` takes the oldest.
-/

namespace Defib

/-- The cells, and where the next element is written and read. -/
structure RingBuffer (α : Type*) where
  cells : Store α
  head : ℕ
  tail : ℕ

namespace RingBuffer

variable {α : Type*} (size : ℕ)

/-- Write an element, unless the ring is full. -/
def push (r : RingBuffer α) (x : α) : RingBuffer α :=
  let next := (r.head + 1) % size
  if next ≠ r.tail then ⟨fun i => if i = r.head then x else r.cells i, next, r.tail⟩ else r

/-- Read an element, unless the ring is empty. -/
def pop (r : RingBuffer α) : Option α × RingBuffer α :=
  if r.head ≠ r.tail then (some (r.cells r.tail), { r with tail := (r.tail + 1) % size })
  else (none, r)

/-- Both places lie in the ring. -/
structure Valid (r : RingBuffer α) : Prop where
  head_lt : r.head < size
  tail_lt : r.tail < size

/-- The number of elements. -/
def count (r : RingBuffer α) : ℕ := (r.head + size - r.tail) % size

/-- The elements, the oldest first. -/
def contents (r : RingBuffer α) : List α :=
  (List.range (r.count size)).map fun i => r.cells ((r.tail + i) % size)

variable {size}

/-! ## Places -/

lemma mod_eq_ite {a n : ℕ} (h : a < 2 * n) : a % n = if a < n then a else a - n := by
  split_ifs with hlt
  · exact Nat.mod_eq_of_lt hlt
  · rw [Nat.mod_eq_sub_mod (by omega), Nat.mod_eq_of_lt (by omega)]

@[simp] lemma length_contents (r : RingBuffer α) : (r.contents size).length = r.count size := by
  rw [contents, List.length_map, List.length_range]

namespace Valid

variable {r : RingBuffer α} (h : r.Valid size)

include h

lemma count_eq : r.count size =
    if r.tail ≤ r.head then r.head - r.tail else r.head + size - r.tail := by
  have hhead := h.head_lt
  have htail := h.tail_lt
  rw [count, mod_eq_ite (by omega)]
  split_ifs <;> omega

lemma count_lt : r.count size < size := Nat.mod_lt _ (Nat.zero_lt_of_lt h.head_lt)

/-- A ring is full when all cells but one are taken. -/
lemma next_eq_tail_iff : (r.head + 1) % size = r.tail ↔ r.count size + 1 = size := by
  have hhead := h.head_lt
  have htail := h.tail_lt
  rw [mod_eq_ite (by omega), h.count_eq]
  split_ifs <;> omega

lemma head_eq_tail_iff : r.head = r.tail ↔ r.count size = 0 := by
  have hhead := h.head_lt
  have htail := h.tail_lt
  rw [h.count_eq]
  split_ifs <;> omega

/-- The element behind the last one is written to the free cell. -/
lemma index_eq_head_iff {i : ℕ} (hi : i < size) :
    (r.tail + i) % size = r.head ↔ i = r.count size := by
  have hhead := h.head_lt
  have htail := h.tail_lt
  rw [mod_eq_ite (by omega), h.count_eq]
  split_ifs <;> omega

end Valid

/-! ## The operations -/

lemma Valid.push {r : RingBuffer α} (h : r.Valid size) (x : α) : (r.push size x).Valid size := by
  have hpos : 0 < size := Nat.zero_lt_of_lt h.head_lt
  rw [RingBuffer.push]
  split_ifs
  · exact ⟨Nat.mod_lt _ hpos, h.tail_lt⟩
  · exact h

lemma Valid.pop {r : RingBuffer α} (h : r.Valid size) : (r.pop size).2.Valid size := by
  have hpos : 0 < size := Nat.zero_lt_of_lt h.head_lt
  rw [RingBuffer.pop]
  split_ifs
  · exact ⟨h.head_lt, Nat.mod_lt _ hpos⟩
  · exact h

lemma count_push {r : RingBuffer α} (h : r.Valid size) (x : α)
    (hroom : r.count size + 1 < size) : (r.push size x).count size = r.count size + 1 := by
  have hhead := h.head_lt
  have htail := h.tail_lt
  have hnext : (r.head + 1) % size ≠ r.tail := fun hnext => by
    have := h.next_eq_tail_iff.mp hnext
    omega
  have hcount := (h.push x).count_eq
  rw [h.count_eq] at hroom ⊢
  rw [hcount, RingBuffer.push, if_pos hnext]
  simp only
  rw [mod_eq_ite (by omega)]
  split_ifs at * <;> omega

/-- **A push appends**, unless the ring is full. -/
lemma contents_push {r : RingBuffer α} (h : r.Valid size) (x : α) :
    (r.push size x).contents size = (r.contents size ++ [x]).take (size - 1) := by
  by_cases hfull : r.count size + 1 = size
  · have hsame : r.push size x = r := if_neg (not_not.mpr (h.next_eq_tail_iff.mpr hfull))
    have hlength : (r.contents size).length = size - 1 := by
      rw [length_contents]
      omega
    rw [hsame, ← hlength, List.take_left]
  · have hlt := h.count_lt
    have hnext : (r.head + 1) % size ≠ r.tail := mt h.next_eq_tail_iff.mp hfull
    have hpushed : r.push size x =
        ⟨fun i => if i = r.head then x else r.cells i, (r.head + 1) % size, r.tail⟩ :=
      if_pos hnext
    have hall : (r.contents size ++ [x]).length ≤ size - 1 := by
      rw [List.length_append, length_contents, List.length_singleton]
      omega
    rw [List.take_of_length_le hall, contents, count_push h x (by omega), List.range_succ,
      List.map_append, hpushed]
    congr 1
    · apply List.map_congr_left
      intro i hi
      have hi := List.mem_range.mp hi
      have hold : (r.tail + i) % size ≠ r.head := fun hhead => by
        have := (h.index_eq_head_iff (by omega)).mp hhead
        omega
      exact if_neg hold
    · have hnew : (r.tail + r.count size) % size = r.head := (h.index_eq_head_iff hlt).mpr rfl
      rw [List.map_singleton]
      exact congrArg (fun a => [a]) (if_pos hnew)

/-- **A pop takes the oldest element.** -/
lemma contents_pop {r : RingBuffer α} (h : r.Valid size) :
    r.contents size = (r.pop size).1.toList ++ (r.pop size).2.contents size := by
  by_cases hempty : r.head = r.tail
  · rw [pop, if_neg (not_not.mpr hempty)]
    rfl
  · have hhead := h.head_lt
    have htail := h.tail_lt
    have hpopped : r.pop size =
        (some (r.cells r.tail), { r with tail := (r.tail + 1) % size }) := if_pos hempty
    have hcount : r.count size = ({ r with tail := (r.tail + 1) % size } : RingBuffer α).count size
        + 1 := by
      have hvalid : ({ r with tail := (r.tail + 1) % size } : RingBuffer α).Valid size :=
        ⟨hhead, Nat.mod_lt _ (by omega)⟩
      rw [h.count_eq, hvalid.count_eq]
      simp only
      rw [mod_eq_ite (by omega)]
      split_ifs <;> omega
    rw [hpopped, contents, hcount, List.range_succ_eq_map, List.map_cons, List.map_map,
      Nat.add_zero, Nat.mod_eq_of_lt htail]
    refine congrArg (r.cells r.tail :: ·) (List.map_congr_left fun i _ => ?_)
    show r.cells ((r.tail + (i + 1)) % size) = r.cells (((r.tail + 1) % size + i) % size)
    rw [Nat.mod_add_mod, Nat.add_assoc, Nat.add_comm 1 i]

/-- **A pop takes an element whenever there is one.** -/
lemma pop_fst {r : RingBuffer α} (h : r.Valid size) :
    (r.pop size).1 = (r.contents size).head? := by
  by_cases hempty : r.head = r.tail
  · have hnil : r.contents size = [] := by
      apply List.length_eq_zero_iff.mp
      rw [length_contents]
      exact h.head_eq_tail_iff.mp hempty
    rw [hnil, pop, if_neg (not_not.mpr hempty)]
    rfl
  · have hpopped : (r.pop size).1 = some (r.cells r.tail) := by
      rw [pop, if_pos hempty]
    rw [contents_pop h, hpopped]
    rfl

/-- What remains of elements that are taken in two goes. -/
lemma take_take_append (n : ℕ) (xs ys : List α) :
    (xs.take n ++ ys).take n = (xs ++ ys).take n := by
  have hrest : n - (xs.take n).length = n - xs.length := by
    rw [List.length_take]
    omega
  rw [List.take_append, List.take_append, hrest, List.take_take, Nat.min_self]

end RingBuffer

end Defib
