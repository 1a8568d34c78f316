import Defib.Restore.Backup
import Defib.Restore.Console
import Defib.Ubi.Extract

/-!
# The restore

`_restore_async` from where U-Boot answers: it finds out the flash, sets up the network, and then
takes the partitions one after the other, the boot partition last.  Each is downloaded to RAM and
written, as a raw image or, on NAND, as a UBI volume.  A partition that cannot be downloaded, or
for which there is no layout, is skipped; the answers to the commands that erase and write are not
looked at.  In the end the device is reset and success is reported.
-/

namespace Defib

/-- The options of a restore. -/
structure RestoreConfig where
  console : Console
  /-- `--flash-type`; `none` is `auto`. -/
  flashType : Option FlashKind
  /-- The layout, from `--mtdparts` or the backup; may be empty. -/
  mtdparts : Text
  deviceIp : Text
  serverip : Text

/-- A partition: its name and its data. -/
abbrev Partition := Text × List UInt8

/-- `ram_addr`. -/
def ramAddr : ℕ := 0x82000000

/-! ## The flash and the network -/

/-- The flash type: as asked for, or the first that answers. -/
def detectFlash (cfg : RestoreConfig) : Restore FlashKind :=
  match cfg.flashType with
  | some flash => pure flash
  | none => do
      let resp ← send cfg.console .nandInfo
      if lowerContains resp "device".toList && !lowerContains resp "error".toList then
        return .nand
      let resp ← send cfg.console .sfProbe
      if !lowerContains resp "error".toList && !lowerContains resp "fail".toList then
        return .nor
      let resp ← send cfg.console .mmcDev
      if !lowerContains resp "error".toList then return .emmc
      Scripted.raise "Could not detect flash type. Use --flash-type."

/-- Ping the server; the number of attempts left. -/
def pingServer (cfg : RestoreConfig) : ℕ → Restore Bool
  | 0 => pure false
  | attempts + 1 => do
      let resp ← send cfg.console (.ping cfg.serverip)
      if decide ("is alive".toList <:+: resp) then return true
      pingServer cfg attempts

/-- Addresses, and five pings until one is answered. -/
def setupNetwork (cfg : RestoreConfig) : Restore Unit := do
  let _ ← send cfg.console (.setenvIpaddr cfg.deviceIp)
  let _ ← send cfg.console (.setenvServerip cfg.serverip)
  let pingOk ← pingServer cfg 5
  if pingOk then return ()
  Scripted.raise "Network not available. Check ethernet connection."

/-! ## One partition -/

/-- Does the answer to a TFTP command say that the file is there? -/
def tftpOk (resp : Text) : Bool :=
  lowerContains resp "done".toList || lowerContains resp "bytes transferred".toList

/-- Does U-Boot not know the command? -/
def unknownCommand (resp : Text) : Bool := lowerContains resp "unknown command".toList

/-- `tftpboot`, or `tftp` where that is not known: is the file there? -/
def download (console : Console) (name : Text) : Restore Bool := do
  let resp ← send console (.tftpboot ramAddr name)
  if unknownCommand resp then do
    let resp ← send console (.tftp ramAddr name)
    return tftpOk resp
  else return tftpOk resp

/-- `((size + page - 1) // page) * page`. -/
def roundUp (page size : ℕ) : ℕ := (size + page - 1) / page * page

/-- Erase and write a raw image of this length. -/
def writeRaw (console : Console) (flash : FlashKind) (offset len : ℕ) : Restore Unit :=
  match flash with
  | .nand => do
      let _ ← send console (.nandErase offset (roundUp 0x20000 len))
      let _ ← send console (.nandWrite ramAddr offset (roundUp 2048 len))
  | .nor => do
      let _ ← send console (.sfErase offset (roundUp 0x10000 len))
      let _ ← send console (.sfWrite ramAddr offset len)
  | .emmc => do
      let _ ← send console (.mmcErase (offset / 512) ((len + 511) / 512))
      let _ ← send console (.mmcWrite ramAddr (offset / 512) ((len + 511) / 512))
  | .other => pure ()

/-- A raw partition. -/
def restoreRaw (console : Console) (flash : FlashKind) (name : Text) (offset len : ℕ) :
    Restore Unit := do
  let ok ← download console name
  if ok then writeRaw console flash offset len else pure ()

/-- Name, offset and size of the definitions of a layout. -/
abbrev Partmap := Dict ℕ (Text × ℕ × ℕ)

variable (py : PyChars)

/-- The pattern `mtdparts=(hinand:[\S]+)`. -/
def matchBootargs (text : Text) : Option (Text × Text) := do
  let text ← lit "mtdparts=hinand:".toList text
  let (rest, text) ← many1 (fun c => !py.isSpace c) text
  return ("hinand:".toList ++ rest, text)

/-- The layout in an answer to `printenv`. -/
def bootargsLayout (resp : Text) : Option Text := search (matchBootargs py) resp

/-- The layout for UBI: the option, or what the environment says. -/
def ubiLayout (cfg : RestoreConfig) : Restore (Option Text) :=
  if cfg.mtdparts.isEmpty then do
    let resp ← send cfg.console .printenvBootargs
    match bootargsLayout py resp with
    | some layout => return some layout
    | none =>
        let resp ← send cfg.console .printenvMtdparts
        return bootargsLayout py resp
  else pure (some cfg.mtdparts)

/-- The layout for UBI, told to U-Boot and parsed; `none` if there is no layout. -/
def loadPartmap (cfg : RestoreConfig) : Restore (Option Partmap) := do
  let layout? ← ubiLayout py cfg
  match layout? with
  | none => return none
  | some layout =>
      let _ ← send cfg.console (.setenvMtdids (layout.takeWhile (· ≠ ':')))
      let _ ← send cfg.console (.setenvMtdparts layout)
      let _ ← send cfg.console .mtdparts
      let partmap ← Scripted.lift (ubiPartmap py layout)
      return some partmap

/-- The layout as it is known, or loaded now. -/
def ensurePartmap (cfg : RestoreConfig) : Option Partmap → Restore (Option Partmap)
  | some partmap => pure (some partmap)
  | none => loadPartmap py cfg

/-- The size of a definition; one that takes the remainder ends at 128 MB. -/
def realSize (realOff realSz : ℕ) : ℤ := if realSz = 0 then 0x8000000 - realOff else realSz

/-- Write a UBI volume of this length. -/
def writeUbi (console : Console) (name realName : Text) (realOff realSz len : ℕ) :
    Restore Unit := do
  let ok ← download console name
  if ok then
    let _ ← send console (.nandErase realOff (realSize realOff realSz))
    let _ ← send console (.ubiPart realName)
    let _ ← send console (.ubiCreate realName)
    let _ ← send console (.ubiWrite ramAddr realName len)
  else pure ()

/-- `[i for i, (n, d) in enumerate(partitions) if n == name][0]`. -/
def indexOfName (partitions : List Partition) (name : Text) : ℕ :=
  (partitions.map Prod.fst).idxOf name

/-- A UBI partition. -/
def restoreUbi (cfg : RestoreConfig) (partitions : List Partition) (partmap? : Option Partmap)
    (name : Text) (len : ℕ) : Restore (Option Partmap) := do
  let partmap? ← ensurePartmap py cfg partmap?
  match partmap? with
  | none => return none
  | some partmap =>
      match partmap.get? (indexOfName partitions name) with
      | none => return some partmap
      | some (realName, realOff, realSz) =>
          writeUbi cfg.console name realName realOff realSz len
          return some partmap

/-- What is written to a UBI volume: the image itself, or the volume in it; `none` for a partition
that is written raw. -/
def ubiVolume (flash : FlashKind) (data : List UInt8) : Option (Except String (List UInt8)) :=
  if flash = .nand then
    if isUbiImage data then some (extractUbifs data 0x20000 0)
    else if isUbifsImage data then some (.ok data)
    else none
  else none

/-- Where a partition starts: as the layout for UBI says, or as computed before. -/
def partitionOffset (offsets : Dict ℕ ℕ) (partmap? : Option Partmap) (idx : ℕ) : Except String ℕ :=
  match partmap?.bind (·.get? idx), offsets.get? idx with
  | some (_, realOffset, _), _ => .ok realOffset
  | none, some offset => .ok offset
  | none, none => .error "KeyError"

/-- One turn of the loop over the partitions. -/
def restorePartition (cfg : RestoreConfig) (flash : FlashKind) (partitions : List Partition)
    (offsets : Dict ℕ ℕ) (partmap? : Option Partmap) (idx : ℕ) (part : Partition) :
    Restore (Option Partmap) := do
  Scripted.note (.partition idx)
  let offset ← Scripted.lift (partitionOffset offsets partmap? idx)
  match ubiVolume flash part.2 with
  | some volume => do
      let data ← Scripted.lift volume
      restoreUbi py cfg partitions partmap? part.1 data.length
  | none => do
      restoreRaw cfg.console flash part.1 offset part.2.length
      return partmap?

/-! ## The whole -/

/-- Is this partition written last? -/
def isBootPart (idx : ℕ) (part : Partition) : Bool :=
  idx = 0 || part.1 = "mtd0".toList || part.1 = "boot".toList

/-- `write_order`: the boot partition last. -/
def writeOrder (partitions : List Partition) : List (ℕ × Partition) :=
  let order := partitions.zipIdx.map Prod.swap
  (order.filter fun p => !isBootPart p.1 p.2) ++ order.filter fun p => isBootPart p.1 p.2

/-- The loop over the partitions. -/
def restorePartitions (cfg : RestoreConfig) (flash : FlashKind) (partitions : List Partition)
    (offsets : Dict ℕ ℕ) : Option Partmap → List (ℕ × Partition) → Restore Unit
  | _, [] => pure ()
  | partmap?, (idx, part) :: order => do
      let partmap? ← restorePartition py cfg flash partitions offsets partmap? idx part
      restorePartitions cfg flash partitions offsets partmap? order

/-- `_restore_async`, from where U-Boot answers: the number of partitions that it reports with
its success. -/
def restore (cfg : RestoreConfig) (partitions : List Partition) : Restore ℕ := do
  let flash ← detectFlash cfg
  setupNetwork cfg
  let offsets ← Scripted.lift
    (restoreOffsets py flash cfg.mtdparts (partitions.map fun part => part.2.length))
  restorePartitions py cfg flash partitions offsets none (writeOrder partitions)
  Scripted.note .reset
  let _ ← send cfg.console .reset
  return partitions.length

end Defib
