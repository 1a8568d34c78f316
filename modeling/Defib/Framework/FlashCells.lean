import Mathlib.Data.UInt
import Defib.Framework.Store

/-!
# Cells of a flash memory

Bytes whose bits an erase sets, a whole block at a time, and a program can only clear.  A program on
erased cells writes them (`program_apply_of_erased`), and a program leaves alone what it is not
given, because the neutral byte of a program is the erased one.
-/

namespace Defib

namespace FlashCells

/-- The block of a cell is erased. -/
def erase (block : ℕ) (m : Store UInt8) (a : ℕ) : Store UInt8 := fun i =>
  if i / block = a / block then 0xFF else m i

/-- Bytes are programmed from a cell on. -/
def program (m : Store UInt8) (a : ℕ) (xs : List UInt8) : Store UInt8 := fun i =>
  if a ≤ i then m i &&& xs.getD (i - a) 0xFF else m i

lemma and_erased (x : UInt8) : x &&& 0xFF = x := UInt8.and_neg_one

lemma erased_and (x : UInt8) : 0xFF &&& x = x := (UInt8.and_comm _ _).trans (and_erased x)

lemma erase_apply_self (block : ℕ) (m : Store UInt8) (a : ℕ) : erase block m a a = 0xFF :=
  if_pos rfl

lemma erase_apply_of_ne {block a i : ℕ} (m : Store UInt8) (h : i / block ≠ a / block) :
    erase block m a i = m i := if_neg h

@[simp] lemma program_nil (m : Store UInt8) (a : ℕ) : program m a [] = m := by
  funext i
  rw [program]
  split
  · exact and_erased _
  · rfl

/-- A program leaves the cells around its range alone. -/
lemma program_apply_of_not_mem {m : Store UInt8} {a i : ℕ} {xs : List UInt8}
    (h : i < a ∨ a + xs.length ≤ i) : program m a xs i = m i := by
  rw [program]
  split
  · rw [List.getD_eq_default _ _ (by omega), and_erased]
  · rfl

/-- A program on an erased cell writes it. -/
lemma program_apply_of_erased {m : Store UInt8} {a i : ℕ} {xs : List UInt8} {x : UInt8}
    (h : xs[i]? = some x) (herased : m (a + i) = 0xFF) : program m a xs (a + i) = x := by
  rw [program, if_pos (Nat.le_add_right a i), herased, erased_and, Nat.add_sub_cancel_left,
    List.getD_eq_getElem?_getD, h]
  rfl

lemma getD_of_neutral {xs : List UInt8} (h : ∀ x ∈ xs, x = 0xFF) (i : ℕ) :
    xs.getD i 0xFF = 0xFF := by
  by_cases hi : i < xs.length
  · rw [List.getD_eq_getElem _ _ hi]
    exact h _ (List.getElem_mem hi)
  · exact List.getD_eq_default _ _ (by omega)

/-- Programming neutral bytes changes nothing. -/
lemma program_apply_of_neutral {m : Store UInt8} {a i : ℕ} {xs : List UInt8}
    (h : ∀ x ∈ xs, x = 0xFF) : program m a xs i = m i := by
  rw [program]
  split
  · rw [getD_of_neutral h, and_erased]
  · rfl

end FlashCells

end Defib
