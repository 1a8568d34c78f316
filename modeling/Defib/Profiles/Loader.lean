import Mathlib.Data.Char
import Mathlib.Data.List.Infix
import Mathlib.Data.List.Lex
import Mathlib.Data.List.Sort
import Defib.Framework.Chains
import Defib.Framework.Dict
import Defib.Framework.PyChars

/-!
# SoC profiles

A profile is a JSON file in the profiles directory, or an alias: a file that holds the name of
another one.  `load_profile`, `recovery_mode` and `list_variants` of `profiles/loader.py` follow the
aliases from a chip name to a file, and read it.

What a text says as JSON, and what `pydantic` makes of the fields of a profile, are parameters, as
are the tables of `str.lower` and `str.split`.
-/

namespace Defib

namespace Profiles

/-! ## JSON -/

/-- A value that `json.loads` returns; of a number, its literal and whether it is zero. -/
inductive Json
  | null
  | bool (b : Bool)
  | number (literal : Text) (isZero : Bool)
  | str (s : Text)
  | arr (elements : List Json)
  | obj (members : List (Text × Json))

/-- Exceptions of the library and of the interpreter. -/
inductive PyFailure
  | osError
  | unicodeDecodeError
  | jsonDecodeError
  | recursionError
  | attributeError
  | keyError
  | typeError
  | valueError
  | fieldErrors
  | missingFields (name : Text) (missing : List String)
  deriving DecidableEq

namespace Json

/-- `bool(value)`. -/
def truthy : Json → Bool
  | null => false
  | bool b => b
  | number _ isZero => !isZero
  | str s => !s.isEmpty
  | arr elements => !elements.isEmpty
  | obj members => !members.isEmpty

/-- `value or {}`. -/
def orEmpty (value : Json) : Json := if value.truthy then value else obj []

/-- The elements that a loop over a value sees. -/
def iterate : Json → Except PyFailure (List Json)
  | arr elements => .ok elements
  | obj members => .ok (members.map fun m => str m.1)
  | str s => .ok (s.map fun c => str [c])
  | _ => .error .typeError

/-- The text of a string. -/
def text? : Json → Option Text
  | str s => some s
  | _ => none

/-- `value.keys()`. -/
def keys : Json → Except PyFailure (List Text)
  | obj members => .ok (members.map Prod.fst)
  | _ => .error .attributeError

/-- `text in value`. -/
def contains (text : Text) : Json → Except PyFailure Bool
  | obj members => .ok (members.any fun m => decide (m.1 = text))
  | arr elements => .ok (elements.any fun e => decide (e.text? = some text))
  | str s => .ok (decide (text <:+: s))
  | _ => .error .typeError

/-- `value[text]`. -/
def subscript (text : Text) : Json → Except PyFailure Json
  | obj members =>
      match Dict.get? members text with
      | none => .error .keyError
      | some value => .ok value
  | _ => .error .typeError

/-- A key of a dictionary; `none` is a key that is no text, which no field has. -/
def key : Json → Except PyFailure (Option Text)
  | str s => .ok (some s)
  | arr _ => .error .typeError
  | obj _ => .error .typeError
  | _ => .ok none

/-- What `dict.update` does with an element of a sequence. -/
def updatePair (data : Dict Text Json) (pair : Json) : Except PyFailure (Dict Text Json) := do
  match ← pair.iterate with
  | [k, value] =>
      match ← k.key with
      | none => pure data
      | some k => pure (Dict.set data k value)
  | _ => .error .valueError

/-- `data.update(value)`. -/
def update (data : Dict Text Json) : Json → Except PyFailure (Dict Text Json)
  | obj members => .ok (Dict.setAll data members)
  | value => do (← value.iterate).foldlM updatePair data

end Json

/-- `sorted(texts)`. -/
def sorted (texts : List Text) : List Text := texts.insertionSort (· ≤ ·)

/-! ## Profiles -/

/-- `RECOVERY`. -/
inductive RecoveryMode
  | uart
  | usb
  deriving DecidableEq

/-- `SoCProfile`, as far as the loader and `_check_recovery_fields` look at it. -/
structure SoCProfile where
  name : Text
  recovery : RecoveryMode
  ddrstep0 : Option (List ℤ)
  addresses : Option (List Text)
  fileLengths : Option (List Text)
  stepLengths : Option (List Text)
  splBlob : Option Text
  splData : Option (List UInt8)
  deriving DecidableEq

/-- The fields that a UART profile lacks. -/
def SoCProfile.missing (p : SoCProfile) : List String :=
  ([("DDRSTEP0", p.ddrstep0.isNone), ("ADDRESS", p.addresses.isNone),
    ("FILELEN", p.fileLengths.isNone), ("STEPLEN", p.stepLengths.isNone)].filter Prod.snd).map
      Prod.fst

/-- `_check_recovery_fields`. -/
def SoCProfile.checkRecoveryFields (p : SoCProfile) : Except PyFailure SoCProfile :=
  if p.recovery = .uart ∧ p.missing ≠ [] then .error (.missingFields p.name p.missing) else .ok p

/-- What comes with Python and with `pydantic`. -/
structure Libraries where
  chars : PyChars
  lower : Text → Text
  loads : Text → Except PyFailure Json
  fields : Dict Text Json → Except PyFailure SoCProfile

/-- The profiles directory: what reading the JSON file of a name, and a file next to it, comes to;
`none` is a path that does not exist. -/
structure ProfilesDir where
  profile : Text → Option (Except PyFailure Text)
  sibling : Text → Text → Option (Except PyFailure (List UInt8))

/-- What `load_profile` raises. -/
inductive ProfileFailure
  | noProfile (current : Text)
  | noBlob (splBlob current : Text)
  | unknownVariant (variant current : Text) (available : List Text)
  | tooDeep (chipName : Text)
  | raised (e : PyFailure)
  deriving DecidableEq

/-- `MAX_ALIAS_DEPTH`. -/
def maxAliasDepth : ℕ := 23

def variantsKey : Text := "variants".toList
def jsonSuffix : Text := ".json".toList

variable (libs : Libraries) (dir : ProfilesDir)

/-- `parse_chip_variant`. -/
def parseChipVariant (chip : Text) : Text × Option Text :=
  if ':' ∈ chip then
    let variant := libs.lower ((chip.dropWhile (· ≠ ':')).drop 1)
    (libs.lower (chip.takeWhile (· ≠ ':')), if variant = [] then none else some variant)
  else (libs.lower chip, none)

/-- `content.split()`. -/
def tokens (content : Text) : List Text :=
  (content.splitOnP libs.chars.isSpace).filter (· ≠ [])

/-- The name in an alias. -/
def aliasTarget (content : Text) : Option Text :=
  match tokens libs content with
  | [token] =>
      if jsonSuffix <:+ token then some (token.take (token.length - jsonSuffix.length)) else none
  | _ => none

/-- The name that the file of a name is an alias for. -/
def aliasOf (current : Text) : Option Text :=
  match dir.profile current with
  | some (.ok text) => aliasTarget libs (libs.chars.strip text)
  | _ => none

/-- The loop over the aliases, to the first name that is none; `none` is a chain that is too
deep. -/
def resolve (base : Text) : Option Text := chainEnd (aliasOf libs dir) maxAliasDepth base

/-- `data.pop("variants", None)`, and what is left. -/
def popVariants : Json → Except PyFailure (Json × Dict Text Json)
  | .obj members => .ok ((Dict.get? members variantsKey).getD .null, Dict.del members variantsKey)
  | .arr _ => .error .typeError
  | _ => .error .attributeError

/-- The names in a message: `sorted(variants)`, which are joined. -/
def availableNames (variants : Json) : Except PyFailure (List Text) := do
  let elements ← variants.iterate
  if (elements.map Json.text?).all Option.isSome then pure (sorted (elements.filterMap Json.text?))
  else .error .typeError

/-- Put an exception of a library among those of `load_profile`. -/
def raise {α : Type} : Except PyFailure α → Except ProfileFailure α
  | .error e => .error (.raised e)
  | .ok a => .ok a

/-- `load_profile`, where the variant has been looked up. -/
def applyFound (variant current : Text) (variants : Json) (data : Dict Text Json) (found : Bool) :
    Except ProfileFailure (Dict Text Json) :=
  if found then do
    let override ← raise (variants.subscript variant)
    raise (Json.update data override)
  else do
    let available ← raise (availableNames variants)
    .error (.unknownVariant variant current available)

/-- `load_profile`, where the variant is looked up. -/
def applyVariant (variant : Option Text) (current : Text) (variants : Json)
    (data : Dict Text Json) : Except ProfileFailure (Dict Text Json) :=
  match variant with
  | none => .ok data
  | some variant => do
      let found ← raise (variants.contains variant)
      applyFound variant current variants data found

/-- `load_profile`, where the blob is read. -/
def readBlob (current : Text) (profile : SoCProfile) : Except ProfileFailure SoCProfile :=
  match profile.splBlob with
  | none | some [] => .ok profile
  | some splBlob =>
      match dir.sibling current splBlob with
      | none => .error (.noBlob splBlob current)
      | some read => do
          let bytes ← raise read
          pure { profile with splData := some bytes }

/-- `load_profile`, on the variants of a file and what else is in it. -/
def buildProfile (variant : Option Text) (current : Text) (parts : Json × Dict Text Json) :
    Except ProfileFailure SoCProfile := do
  let data ← applyVariant variant current parts.1.orEmpty parts.2
  let profile ← raise ((libs.fields data).bind SoCProfile.checkRecoveryFields)
  readBlob dir current profile

/-- `load_profile`, on the content of a file that is no alias. -/
def readProfile (variant : Option Text) (current content : Text) :
    Except ProfileFailure SoCProfile := do
  let data ← raise (libs.loads content)
  let parts ← raise (popVariants data)
  buildProfile libs dir variant current parts

/-- `load_profile`. -/
def loadProfile (chipName : Text) : Except ProfileFailure SoCProfile :=
  let (base, variant) := parseChipVariant libs chipName
  match resolve libs dir base with
  | none => .error (.tooDeep chipName)
  | some current =>
      match dir.profile current with
      | none => .error (.noProfile current)
      | some (.error e) => .error (.raised e)
      | some (.ok text) => readProfile libs dir variant current (libs.chars.strip text)

/-- `recovery_mode`. -/
def recoveryMode (chipName : Text) : Except ProfileFailure RecoveryMode :=
  match loadProfile libs dir chipName with
  | .ok profile => .ok profile.recovery
  | .error (.noProfile _) => .ok .uart
  | .error (.noBlob _ _) => .ok .uart
  | .error e => .error e

/-- `sorted((data.get("variants") or {}).keys())`. -/
def variantNames : Json → Except PyFailure (List Text)
  | .obj members => (((Dict.get? members variantsKey).getD .null).orEmpty.keys).map sorted
  | _ => .error .attributeError

/-- `list_variants`. -/
def listVariants (chipName : Text) : Except PyFailure (List Text) :=
  match resolve libs dir (parseChipVariant libs chipName).1 with
  | none => .ok []
  | some current =>
      match dir.profile current with
      | none => .ok []
      | some (.error e) => .error e
      | some (.ok text) =>
          match libs.loads (libs.chars.strip text) with
          | .error .jsonDecodeError => .ok []
          | .error e => .error e
          | .ok data => variantNames data

end Profiles

end Defib
