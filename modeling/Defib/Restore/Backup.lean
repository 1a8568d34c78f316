import Defib.Framework.Utf8
import Defib.Restore.Mtdparts
import Defib.Wire.Packet

/-!
# Reading a dump

`_restore_async` takes a single file for a backup of ipctool when it starts with `---`: a YAML
header, a zero byte, and the partitions, each behind its length.  From the header it makes the
`mtdparts` layout, if the user gave none; from the rest it takes the partitions, until a length or
a partition is not there in full.  Any other file is one partition, the whole flash.
-/

namespace Defib

/-- The class `[0-9a-fA-F]`. -/
def isHexDigit (c : Char) : Bool :=
  c.isDigit || ('a' ≤ c && c ≤ 'f') || ('A' ≤ c && c ≤ 'F')

/-- The value of a hexadecimal digit. -/
def hexDigitValue (c : Char) : ℕ :=
  if c.isDigit then c.toNat - '0'.toNat
  else if 'a' ≤ c then c.toNat - 'a'.toNat + 10
  else c.toNat - 'A'.toNat + 10

/-- `int("0x" + digits, 16)`. -/
def hexNumber (digits : Text) : ℕ := digits.foldl (fun n c => 16 * n + hexDigitValue c) 0

variable (py : PyChars)

/-- The pattern `name: (\w+)\n\s+size: (0x[0-9a-fA-F]+)`: the name and the digits. -/
def matchYamlPart (text : Text) : Option ((Text × Text) × Text) := do
  let text ← lit "name: ".toList text
  let (pname, text) ← many1 py.isWord text
  let text ← lit ['\n'] text
  let (_, text) ← many1 py.isSpace text
  let text ← lit "size: 0x".toList text
  let (sizeHex, text) ← many1 isHexDigit text
  return ((pname, sizeHex), text)

/-- The pattern `type: (nand|nor)`: is it NAND? -/
def matchType (text : Text) : Option (Bool × Text) := do
  let text ← lit "type: ".toList text
  match lit "nand".toList text, lit "nor".toList text with
  | some text, _ => return (true, text)
  | none, some text => return (false, text)
  | none, none => none

/-- The definition of a partition, in megabytes or kilobytes. -/
def mtdDef (pname : Text) (sz : ℕ) : Text :=
  if sz % (1024 * 1024) = 0 then decimal (sz / (1024 * 1024)) ++ 'M' :: '(' :: (pname ++ [')'])
  else decimal (sz / 1024) ++ 'k' :: '(' :: (pname ++ [')'])

/-- `mtd_defs`: the last partition takes the remainder. -/
def mtdDefs (yamlParts : List (Text × Text)) : List Text :=
  (yamlParts.map fun part => mtdDef part.1 (hexNumber part.2)).dropLast ++
    (yamlParts.getLast?.toList.map fun part => '-' :: '(' :: (part.1 ++ [')']))

/-- The name of the flash device. -/
def nandName (yamlText : Text) : Text :=
  if search matchType yamlText = some true then "hinand".toList else "hi_sfc".toList

/-- The layout that the header gives; empty if it lists no partitions. -/
def yamlMtdparts (yamlText : Text) : Text :=
  let yamlParts := findall (matchYamlPart py) yamlText
  if yamlParts.isEmpty then []
  else nandName yamlText ++ ':' :: [','].intercalate (mtdDefs yamlParts)

/-- The blocks behind the header: as long as the next length and the block it announces are there
in full. -/
def readBlocks (bytes : List UInt8) : List (List UInt8) :=
  if 4 ≤ bytes.length then
    let blockLen := readLe32 (bytes.take 4)
    if 4 + blockLen > bytes.length then []
    else (bytes.drop 4).take blockLen :: readBlocks (bytes.drop (4 + blockLen))
  else []
termination_by bytes.length
decreasing_by rw [List.length_drop]; omega

/-- `---` and a newline. -/
def yamlMagic : List UInt8 := [0x2D, 0x2D, 0x2D, 0x0A]

/-- The name of a block. -/
def blockName (blockNum : ℕ) : Text := "mtd".toList ++ decimal blockNum

/-- A dump file: the layout, and the partitions with their names. -/
def readDump (mtdpartsArg : Text) (raw : List UInt8) :
    Except String (Text × List (Text × List UInt8)) :=
  if raw.take 4 = yamlMagic then
    match raw.dropWhile (· ≠ 0) with
    | [] => .error "subsection not found"
    | _ :: rest =>
        let yamlText := decodeUtf8Replace (raw.takeWhile (· ≠ 0))
        .ok (if mtdpartsArg.isEmpty then yamlMtdparts py yamlText else mtdpartsArg,
          (readBlocks rest).mapIdx fun blockNum data => (blockName blockNum, data))
  else .ok (mtdpartsArg, [("flash".toList, raw)])

end Defib
