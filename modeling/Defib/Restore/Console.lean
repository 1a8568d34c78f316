import Mathlib.Data.List.Infix
import Defib.Framework.PyText
import Defib.Framework.Scripted

/-!
# The U-Boot console

The commands that `_restore_async` sends to U-Boot, and what it can do with an answer: `_send`
returns the text that came back and drops the success flag, if the console has one.

A run of a program against the console is a function of the answers it will get (`Scripted`); its
trace lists the commands with their answers and notes where each partition starts.
-/

namespace Defib

/-- `0x{n:x}`. -/
def hexText (n : ℤ) : Text :=
  "0x".toList ++ if n < 0 then '-' :: Nat.toDigits 16 n.natAbs else Nat.toDigits 16 n.natAbs

/-- The commands of a restore. -/
inductive UbootCmd
  | nandInfo
  | sfProbe
  | mmcDev
  | setenvIpaddr (deviceIp : Text)
  | setenvServerip (serverip : Text)
  | ping (serverip : Text)
  | printenvBootargs
  | printenvMtdparts
  | setenvMtdids (nandName : Text)
  | setenvMtdparts (layout : Text)
  | mtdparts
  | tftpboot (ramAddr : ℕ) (name : Text)
  | tftp (ramAddr : ℕ) (name : Text)
  | nandErase (offset : ℕ) (size : ℤ)
  | nandWrite (ramAddr offset size : ℕ)
  | sfErase (offset size : ℕ)
  | sfWrite (ramAddr offset size : ℕ)
  | mmcErase (blockOff blockCnt : ℕ)
  | mmcWrite (ramAddr blockOff blockCnt : ℕ)
  | ubiPart (name : Text)
  | ubiCreate (volName : Text)
  | ubiWrite (ramAddr : ℕ) (volName : Text) (size : ℕ)
  | reset
  deriving DecidableEq, Repr

namespace UbootCmd

/-- Words with spaces between them. -/
def words (ws : List Text) : Text := [' '].intercalate ws

/-- The command line. -/
def text : UbootCmd → Text
  | nandInfo => "nand info".toList
  | sfProbe => "sf probe 0".toList
  | mmcDev => "mmc dev 0".toList
  | setenvIpaddr deviceIp => words ["setenv ipaddr".toList, deviceIp]
  | setenvServerip serverip => words ["setenv serverip".toList, serverip]
  | ping serverip => words ["ping".toList, serverip]
  | printenvBootargs => "printenv bootargs".toList
  | printenvMtdparts => "printenv mtdparts".toList
  | setenvMtdids nandName => "setenv mtdids nand0=".toList ++ nandName
  | setenvMtdparts layout => "setenv mtdparts mtdparts=".toList ++ layout
  | mtdparts => "mtdparts".toList
  | tftpboot ramAddr name => words ["tftpboot".toList, hexText ramAddr, name]
  | tftp ramAddr name => words ["tftp".toList, hexText ramAddr, name]
  | nandErase offset size => words ["nand erase".toList, hexText offset, hexText size]
  | nandWrite ramAddr offset size =>
      words ["nand write".toList, hexText ramAddr, hexText offset, hexText size]
  | sfErase offset size => words ["sf erase".toList, hexText offset, hexText size]
  | sfWrite ramAddr offset size =>
      words ["sf write".toList, hexText ramAddr, hexText offset, hexText size]
  | mmcErase blockOff blockCnt => words ["mmc erase".toList, hexText blockOff, hexText blockCnt]
  | mmcWrite ramAddr blockOff blockCnt =>
      words ["mmc write".toList, hexText ramAddr, hexText blockOff, hexText blockCnt]
  | ubiPart name => words ["ubi part".toList, name]
  | ubiCreate volName => words ["ubi create".toList, volName]
  | ubiWrite ramAddr volName size =>
      words ["ubi write".toList, hexText ramAddr, volName, hexText size]
  | reset => "reset".toList

end UbootCmd

/-- What comes back for a command: the flag of the download mode, and the bytes. -/
structure Response where
  ok : Bool
  bytes : List UInt8
  deriving DecidableEq, Repr

/-- The text of an answer. -/
def Response.out (r : Response) : Text := decodeAsciiReplace r.bytes

/-- The answer to a command that got none. -/
def Response.none : Response := ⟨false, []⟩

/-- `needle in text.lower()`, of the text of an answer. -/
def lowerContains (text needle : Text) : Bool := decide (needle <:+: text.map Char.toLower)

/-- A command with its answer. -/
abbrev Exchange := UbootCmd × Response

/-- Where a restore is. -/
inductive RestoreNote
  | partition (idx : ℕ)
  | reset
  deriving DecidableEq, Repr

/-- The two modes of the console. -/
inductive Console
  | download
  | shell
  deriving DecidableEq, Repr

/-- A program on the console. -/
abbrev Restore (α : Type) := Scripted Exchange Response RestoreNote String α

/-- An event of such a program. -/
abbrev RestoreEvent := Event Exchange Response RestoreNote

/-- The next answer, and the script behind it. -/
def nextResponse : List (Reading Response) → Response × List (Reading Response)
  | .item r :: rest => (r, rest)
  | _ :: rest => (.none, rest)
  | [] => (.none, [])

/-- `_send`.  The download mode encodes commands as ASCII. -/
def send (console : Console) (cmd : UbootCmd) : Restore Text := fun script =>
  if console = .download ∧ ¬ cmd.text.all (·.toNat < 128) then
    ⟨.error "'ascii' codec can't encode character: ordinal not in range(128)", script, []⟩
  else
    ⟨.ok (nextResponse script).1.out, (nextResponse script).2,
      [.write (cmd, (nextResponse script).1)]⟩

end Defib
