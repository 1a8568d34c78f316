import Defib.Framework.Dict
import Defib.Framework.Pattern

/-!
# The two readers of `mtdparts`

`_restore_async` reads the layout `dev:def,def,...` twice.  `partOffsets` is computed before the
first partition is written and gives raw partitions their offsets; `ubiPartmap` is computed at the
first UBI partition and gives offsets, names and sizes from then on.  They use different patterns:
the first looks at the sizes only, the second wants a name of word characters in parentheses and
skips the definitions that have none.
-/

namespace Defib

/-- `text.split(":", 1)[1]`; `none` is the `IndexError` of a text without a colon. -/
def afterColon (text : Text) : Option Text :=
  match text.dropWhile (· ≠ ':') with
  | [] => none
  | _ :: rest => some rest

/-- Is this one of the units `[kKmM]`? -/
def isUnit (c : Char) : Bool := c = 'k' || c = 'K' || c = 'm' || c = 'M'

/-- What the unit of a size, if it has one, multiplies it by. -/
def unitFactor : Option Char → ℕ
  | none => 1
  | some c => if c.toUpper = 'M' then 1024 * 1024 else if c.toUpper = 'K' then 1024 else 1

/-- The pattern `[kKmM]?`: the unit, and the text behind it. -/
def matchUnit : Text → Option Char × Text
  | [] => (none, [])
  | c :: cs => if isUnit c then (some c, cs) else (none, c :: cs)

variable (py : PyChars)

/-- The pattern `([\d]+)([kKmM]?)`: the digits, the unit, and the text behind them. -/
def matchSize (text : Text) : Option (Text × Option Char × Text) := do
  let (digits, text) ← many1 py.isDigit text
  return (digits, matchUnit text)

/-- The pattern `\((\w+)\)`: the name. -/
def matchName (text : Text) : Option Text := do
  let text ← lit ['('] text
  let (name, text) ← many1 py.isWord text
  let _ ← lit [')'] text
  return name

/-- The pattern `-\((\w+)\)`: the name. -/
def matchFill (text : Text) : Option Text := do
  let text ← lit ['-'] text
  matchName py text

/-- The pattern `-\(`. -/
def isFill (text : Text) : Bool := (lit ['-', '('] text).isSome

/-- What `int` says of a number with too many digits. -/
def intDigitsError : String :=
  "Exceeds the limit (4300 digits) for integer string conversion"

/-! ## Offsets of all partitions -/

/-- The loop over the definitions: the offsets so far, and where the next definition starts. -/
def partOffsetsLoop : ℕ → ℕ → Dict ℕ ℕ → List Text → Except String (Dict ℕ ℕ × ℕ)
  | _, cur, offsets, [] => .ok (offsets, cur)
  | i, cur, offsets, pd :: pds =>
      if isFill (py.strip pd) then .ok (offsets.set i cur, cur)
      else match matchSize py (py.strip pd) with
        | none => partOffsetsLoop (i + 1) cur (offsets.set i cur) pds
        | some (digits, unit, _) =>
            match py.int digits with
            | none => .error intDigitsError
            | some sz =>
                partOffsetsLoop (i + 1) (cur + sz * unitFactor unit) (offsets.set i cur) pds

/-- Indices that no definition gave an offset start behind the definitions. -/
def fillOffsets (cur count : ℕ) (offsets : Dict ℕ ℕ) : Dict ℕ ℕ :=
  (List.range count).foldl
    (fun d i => match d.get? i with
      | some _ => d
      | none => d.set i cur) offsets

/-- The offsets that a layout gives, for a number of partitions. -/
def partOffsets (mtdparts : Text) (count : ℕ) : Except String (Dict ℕ ℕ) :=
  let pstr := (afterColon mtdparts).getD mtdparts
  match partOffsetsLoop py 0 0 [] (pstr.splitOn ',') with
  | .error e => .error e
  | .ok (offsets, cur) => .ok (fillOffsets cur count offsets)

/-- The flash of the device.  An option `--flash-type` that the code does not know is none of the
three. -/
inductive FlashKind
  | nand
  | nor
  | emmc
  | other
  deriving DecidableEq, Repr

/-- Offsets from the lengths of the partitions. -/
def cumulativeOffsets : ℕ → ℕ → List ℕ → Dict ℕ ℕ
  | _, _, [] => []
  | i, off, len :: lens => (i, off) :: cumulativeOffsets (i + 1) (off + len) lens

/-- Partition `j` starts behind those before it. -/
lemma get?_cumulativeOffsets (lens : List ℕ) (i off : ℕ) {j : ℕ} (hj : j < lens.length) :
    (cumulativeOffsets i off lens).get? (i + j) = some (off + (lens.take j).sum) := by
  induction lens generalizing i off j with
  | nil => exact absurd hj (Nat.not_lt_zero j)
  | cons len lens ih =>
      rw [cumulativeOffsets, Dict.get?]
      cases j with
      | zero => rw [if_pos (Nat.add_zero i).symm, List.take_zero, List.sum_nil, Nat.add_zero]
      | succ j =>
          have hrest := ih (i + 1) (off + len) (j := j) (by simpa using hj)
          rw [if_neg (by omega), List.take_succ_cons, List.sum_cons, ← Nat.add_assoc i,
            Nat.add_right_comm i, hrest, Nat.add_assoc]

/-- `_part_offsets`: from the layout, if there is one and the flash is NAND, else from the
lengths. -/
def restoreOffsets (flash : FlashKind) (mtdparts : Text) (lens : List ℕ) :
    Except String (Dict ℕ ℕ) :=
  if !mtdparts.isEmpty && flash = .nand then partOffsets py mtdparts lens.length
  else .ok (cumulativeOffsets 0 0 lens)

/-! ## Offsets, names and sizes for UBI -/

/-- The loop over the definitions; a definition without a matching name is skipped. -/
def ubiPartmapLoop :
    ℕ → ℕ → Dict ℕ (Text × ℕ × ℕ) → List Text → Except String (Dict ℕ (Text × ℕ × ℕ))
  | _, _, partmap, [] => .ok partmap
  | i, curOff, partmap, pd :: pds =>
      match matchFill py (py.strip pd) with
      | some name => ubiPartmapLoop (i + 1) curOff (partmap.set i (name, curOff, 0)) pds
      | none =>
          match matchSize py (py.strip pd) with
          | none => ubiPartmapLoop (i + 1) curOff partmap pds
          | some (digits, unit, rest) =>
              match matchName py rest with
              | none => ubiPartmapLoop (i + 1) curOff partmap pds
              | some name =>
                  match py.int digits with
                  | none => .error intDigitsError
                  | some sz =>
                      ubiPartmapLoop (i + 1) (curOff + sz * unitFactor unit)
                        (partmap.set i (name, curOff, sz * unitFactor unit)) pds

/-- `ubi_partmap`: name, offset and size for each index; the size 0 is the remainder. -/
def ubiPartmap (mtdparts : Text) : Except String (Dict ℕ (Text × ℕ × ℕ)) :=
  match afterColon mtdparts with
  | none => .error "list index out of range"
  | some partStr => ubiPartmapLoop py 0 0 [] (partStr.splitOn ',')

end Defib
