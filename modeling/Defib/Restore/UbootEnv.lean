import Defib.Dump.MdOutput
import Defib.Restore.Backup

/-!
# The MAC address in the environment

`uboot_env.py`: what `printenv` answers is searched for a variable, an address that is missing,
malformed or the default of the OpenIPC images is told from one that belongs to the camera, and a new
one is made of random bytes.
-/

namespace Defib

/-- `OPENIPC_DEFAULT_ETHADDR`. -/
def openipcDefaultEthaddr : Text := "00:00:23:34:45:66".toList

/-! ## Addresses -/

/-- Two hexadecimal digits: the text behind them. -/
def octet (text : Text) : Option Text := (hexPair text).map Prod.snd

/-- A number of octets with a colon behind each. -/
def octets : ℕ → Text → Option Text
  | 0, text => some text
  | n + 1, text => ((octet text).bind (lit [':'])).bind (octets n)

/-- `_MAC_RE.match`; `$` matches before a line end, too. -/
def matchMac (text : Text) : Bool :=
  match (octets 5 text).bind octet with
  | some rest => rest = [] || rest = ['\n']
  | none => false

/-- `":".join(f"{b:02x}" for b in raw)`. -/
def macText (raw : List UInt8) : Text := [':'].intercalate (raw.map fun b => hexDigits 2 b.toNat)

/-- What `secrets.token_bytes(6)` returns. -/
structure TokenBytes where
  raw : List UInt8
  length_raw : raw.length = 6

/-- `generate_locally_administered_mac`. -/
def generateLocallyAdministeredMac (token : TokenBytes) : Text :=
  macText (token.raw.modifyHead fun b => b &&& 0xFC ||| 0x02)

/-! ## The answer to `printenv` -/

variable (py : PyChars)

/-- `is_unset_or_default_ethaddr`. -/
def isUnsetOrDefaultEthaddr : Option Text → Bool
  | none => true
  | some value =>
      let v := (py.strip value).map Char.toLower
      v.isEmpty || !matchMac v || v = openipcDefaultEthaddr

/-- The rest of a pattern, `\s*$`: there is only white space up to the end of a line. -/
def endsLine (text : Text) : Bool :=
  (text.takeWhile py.isSpace).contains '\n' || (text.dropWhile py.isSpace).isEmpty

/-- The rest of a pattern, `(.+?)\s*$`: what is captured. -/
def lazyValue : Text → Option Text
  | [] => none
  | c :: cs =>
      if c = '\n' then none
      else if endsLine py cs then some [c]
      else (lazyValue cs).map (c :: ·)

/-- The pattern of `parse_printenv_value` at the start of a line. -/
def lineValue (var text : Text) : Option Text :=
  (lit (var ++ ['=']) (text.dropWhile py.isSpace)).bind (lazyValue py)

/-- The first match; `start` says that a line starts here. -/
def searchValue (var : Text) : Bool → Text → Option Text
  | start, [] => if start then lineValue py var [] else none
  | start, c :: cs =>
      match if start then lineValue py var (c :: cs) else none with
      | some value => some value
      | none => searchValue var (c = '\n') cs

/-- `parse_printenv_value`. -/
def parsePrintenvValue (response var : Text) : Option Text :=
  (searchValue py var true response).map py.strip

end Defib
