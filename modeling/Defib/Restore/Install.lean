import Defib.Dump.DumpFlash
import Defib.Restore.Run
import Defib.Restore.UbootEnv

/-!
# The installation

`_install_async` from the images on: it checks that they fit, and then drives the console of U-Boot:
each image is downloaded to RAM and its checksum compared there, the partition is erased and written,
and on NOR read back and compared again.  The answers to the commands that erase, write and set
variables are not looked at, and an answer to `crc32` in which no checksum is found passes.  In the
end the environment is saved, with an address of its own for the camera.

The session that loads U-Boot, the choice of the TFTP server and its set-up come before and are not
part of the model; a file of the server is what the image of its name is.
-/

namespace Defib

/-! ## Partitions -/

/-- A part of the flash: its offset and its size. -/
structure Window where
  off : ℕ
  size : ℕ
  deriving DecidableEq, Repr

/-- The partitions of an installation. -/
structure FlashLayout where
  boot : Window
  env : Window
  kernel : Window
  rootfs : Window
  deriving DecidableEq, Repr

/-- `_NOR8M_LAYOUT`. -/
def nor8mLayout : FlashLayout where
  boot := ⟨0x000000, 0x40000⟩
  env := ⟨0x040000, 0x10000⟩
  kernel := ⟨0x050000, 0x200000⟩
  rootfs := ⟨0x250000, 0x500000⟩

/-- `_NOR16M_LAYOUT`. -/
def nor16mLayout : FlashLayout where
  boot := ⟨0x000000, 0x40000⟩
  env := ⟨0x040000, 0x10000⟩
  kernel := ⟨0x050000, 0x300000⟩
  rootfs := ⟨0x350000, 0xA00000⟩

/-- `_NOR32M_LAYOUT`. -/
def nor32mLayout : FlashLayout where
  boot := ⟨0x000000, 0x40000⟩
  env := ⟨0x040000, 0x10000⟩
  kernel := ⟨0x050000, 0x300000⟩
  rootfs := ⟨0x350000, 0x1800000⟩

/-- `_NAND_LAYOUT`. -/
def nandLayout : FlashLayout where
  boot := ⟨0x000000, 0x100000⟩
  env := ⟨0x100000, 0x100000⟩
  kernel := ⟨0x200000, 0x800000⟩
  rootfs := ⟨0xA00000, 0x7600000⟩

/-! ## The console -/

/-- The commands of an installation. -/
inductive InstallCmd
  | nandInfo
  | sfProbe
  | setenv (name value : Text)
  | tftpboot (ramAddr : ℕ) (name : Text)
  | tftp (ramAddr : ℕ) (name : Text)
  | crc32 (ramAddr size : ℕ)
  | erase (nand : Bool) (off size : ℕ)
  | write (nand : Bool) (ramAddr off size : ℕ)
  | sfRead (ramAddr off size : ℕ)
  | mtdparts
  | ubiPart
  | ubiCreate
  | ubiWrite (ramAddr size : ℕ)
  | run (var : Text)
  | printenvEthaddr
  | saveenv
  | reset
  deriving DecidableEq, Repr

/-- `flash_cmd`. -/
def flashCmd (nand : Bool) : Text := if nand then "nand".toList else "sf".toList

/-- The command line. -/
def InstallCmd.text : InstallCmd → Text
  | nandInfo => "nand info".toList
  | sfProbe => "sf probe 0".toList
  | setenv name value => UbootCmd.words ["setenv".toList, name, value]
  | tftpboot ramAddr name => UbootCmd.words ["tftpboot".toList, hexText ramAddr, name]
  | tftp ramAddr name => UbootCmd.words ["tftp".toList, hexText ramAddr, name]
  | crc32 ramAddr size => UbootCmd.words ["crc32".toList, hexText ramAddr, hexText size]
  | erase nand off size =>
      UbootCmd.words [flashCmd nand, "erase".toList, hexText off, hexText size]
  | write nand ramAddr off size =>
      UbootCmd.words [flashCmd nand, "write".toList, hexText ramAddr, hexText off, hexText size]
  | sfRead ramAddr off size =>
      UbootCmd.words ["sf read".toList, hexText ramAddr, hexText off, hexText size]
  | mtdparts => "mtdparts".toList
  | ubiPart => "ubi part ubi".toList
  | ubiCreate => "ubi create rootfs".toList
  | ubiWrite ramAddr size =>
      UbootCmd.words ["ubi write".toList, hexText ramAddr, "rootfs".toList, hexText size]
  | run var => UbootCmd.words ["run".toList, var]
  | printenvEthaddr => "printenv ethaddr".toList
  | saveenv => "saveenv".toList
  | reset => "reset".toList

/-- The images, by the name that messages give them. -/
inductive Image
  | uboot
  | kernel
  | rootfs
  deriving DecidableEq, Repr

/-- How an installation fails. -/
inductive InstallError
  /-- "Tarball missing uImage or rootfs (squashfs/ubi)". -/
  | missing
  /-- "Kernel too large" or "Rootfs too large", or the `ValueError` of `pad_to_size`. -/
  | tooLarge (image : Image) (length size : ℕ)
  /-- "NAND detection failed" or "sf probe failed". -/
  | noFlash (resp : Text)
  /-- "TFTP failed". -/
  | tftpFailed (image : Image) (resp : Text)
  /-- "CRC mismatch after TFTP!". -/
  | ramCrc (image : Image) (expected got : ℕ)
  /-- "flash verify failed!". -/
  | flashCrc (image : Image) (expected got : ℕ)
  /-- An exception of `extract_ubifs`. -/
  | ubi (message : String)
  /-- "ubi write failed". -/
  | ubiWrite (resp : Text)
  /-- The `UnicodeEncodeError` of a command in download mode. -/
  | encode
  deriving DecidableEq, Repr

/-- A command with its answer. -/
abbrev InstallExchange := InstallCmd × Response

/-- A program on the console. -/
abbrev Install (α : Type) := Scripted InstallExchange Response Empty InstallError α

/-- `_cmd`, which returns the text of the answer in both modes. -/
def sendInstall (console : Console) (cmd : InstallCmd) : Install Text := fun script =>
  if console = .download ∧ ¬ cmd.text.all (·.toNat < 128) then ⟨.error .encode, script, []⟩
  else
    ⟨.ok (nextResponse script).1.out, (nextResponse script).2,
      [.write (cmd, (nextResponse script).1)]⟩

/-! ## The installation -/

/-- What an installation works with. -/
structure InstallConfig where
  console : Console
  nand : Bool
  norSize : ℤ
  wipeEnv : Bool
  deviceIp : Text
  serverip : Text
  /-- `get_ram_staging_addr(chip)`. -/
  ramAddr : ℕ
  ubootRaw : List UInt8
  kernelName : Text
  kernelData : List UInt8
  rootfsName : Text
  rootfsData : List UInt8
  /-- The random bytes for a new address. -/
  token : TokenBytes

/-- `data.ljust(target_size, b"\xff")`. -/
def padFf (data : List UInt8) (size : ℕ) : List UInt8 :=
  data ++ List.replicate (size - data.length) 0xFF

namespace InstallConfig

variable (cfg : InstallConfig)

/-- The layout for the flash. -/
def layout : FlashLayout :=
  if cfg.nand then nandLayout
  else if 32 ≤ cfg.norSize then nor32mLayout
  else if 16 ≤ cfg.norSize then nor16mLayout
  else nor8mLayout

/-- `pad_to_size(uboot_raw, b_sz)`. -/
def ubootData : List UInt8 := padFf cfg.ubootRaw cfg.layout.boot.size

/-- `uboot_flash_size`. -/
def ubootFlashSize : ℕ :=
  if cfg.wipeEnv then cfg.layout.boot.size + cfg.layout.env.size else cfg.layout.boot.size

/-- `tftp_files`. -/
def tftpFiles : Dict Text (List UInt8) :=
  Dict.setAll []
    [("u-boot.bin".toList, cfg.ubootData), (cfg.kernelName, cfg.kernelData),
      (cfg.rootfsName, cfg.rootfsData)]

/-- The comparison of a checksum in an answer; an answer without one passes. -/
def checkCrc (expected : ℕ) (err : ℕ → InstallError) (resp : Text) : Install Unit :=
  match getDeviceCrc32 resp with
  | some got => if got ≠ expected then Scripted.raise (err got) else pure ()
  | none => pure ()

/-- The second attempt of `_tftp_to_ram`, where U-Boot does not know the first command. -/
def tftpFallback (name resp : Text) : Install Text :=
  if unknownCommand resp then sendInstall cfg.console (.tftp cfg.ramAddr name) else pure resp

/-- `_tftp_to_ram`. -/
def tftpToRam (image : Image) (name : Text) : Install Unit := do
  let resp ← sendInstall cfg.console (.tftpboot cfg.ramAddr name)
  let resp ← cfg.tftpFallback name resp
  if tftpOk resp then pure () else Scripted.raise (.tftpFailed image resp)

/-- The part of `tftp_and_flash` that reads back what was written, which is left out on NAND. -/
def verifyFlash (image : Image) (origData : List UInt8) (flashOff : ℕ) : Install Unit :=
  if cfg.nand then pure ()
  else do
    let _ ← sendInstall cfg.console (.sfRead cfg.ramAddr flashOff origData.length)
    let resp ← sendInstall cfg.console (.crc32 cfg.ramAddr origData.length)
    checkCrc (zlibCrc32 origData).toNat (.flashCrc image (zlibCrc32 origData).toNat) resp

/-- `tftp_and_flash`. -/
def tftpAndFlash (image : Image) (tftpName : Text) (origData : List UInt8)
    (flashOff eraseSz : ℕ) : Install Unit := do
  cfg.tftpToRam image tftpName
  let resp ← sendInstall cfg.console (.crc32 cfg.ramAddr origData.length)
  checkCrc (zlibCrc32 origData).toNat (.ramCrc image (zlibCrc32 origData).toNat) resp
  let _ ← sendInstall cfg.console (.erase cfg.nand flashOff eraseSz)
  let writeSz := if cfg.nand then roundUp 2048 origData.length else origData.length
  let _ ← sendInstall cfg.console (.write cfg.nand cfg.ramAddr flashOff writeSz)
  cfg.verifyFlash image origData flashOff

/-- The layout that U-Boot is told for UBI. -/
def hinandMtdparts : Text := "hinand:1024k(boot),1024k(env),8192k(kernel),-(ubi)".toList

/-- The root filesystem as a UBI volume. -/
def flashUbi (ubifsData : List UInt8) : Install Unit := do
  cfg.tftpToRam .rootfs cfg.rootfsName
  let _ ← sendInstall cfg.console (.erase true cfg.layout.rootfs.off cfg.layout.rootfs.size)
  let _ ← sendInstall cfg.console (.setenv "mtdids".toList "nand0=hinand".toList)
  let _ ← sendInstall cfg.console
    (.setenv "mtdparts".toList ("mtdparts=".toList ++ hinandMtdparts))
  let _ ← sendInstall cfg.console .mtdparts
  let _ ← sendInstall cfg.console .ubiPart
  let _ ← sendInstall cfg.console .ubiCreate
  let resp ← sendInstall cfg.console (.ubiWrite cfg.ramAddr ubifsData.length)
  if lowerContains resp "error".toList || lowerContains resp "cannot".toList then
    Scripted.raise (.ubiWrite resp)
  else pure ()

/-- The root filesystem. -/
def flashRootfs : Install Unit :=
  if cfg.nand && isUbiImage cfg.rootfsData then
    match extractUbifs cfg.rootfsData 0x20000 0 with
    | .ok ubifsData => cfg.flashUbi ubifsData
    | .error message => Scripted.raise (.ubi message)
  else
    cfg.tftpAndFlash .rootfs cfg.rootfsName cfg.rootfsData cfg.layout.rootfs.off
      cfg.layout.rootfs.size

/-- `_nand_bootargs`. -/
def nandBootargs (rootfsIsUbi : Bool) : Text :=
  let base := ("mem=256M console=ttyAMA0,115200 panic=20 ubi.mtd=3,2048 mtdparts=").toList ++
    hinandMtdparts
  if rootfsIsUbi then "root=ubi0:rootfs rootfstype=ubifs ".toList ++ base
  else "root=/dev/ubiblock0_0 rootfstype=squashfs ubi.block=0,0 init=/init ".toList ++ base

/-- The layout of a NOR; for 32 MB U-Boot has no variable to run. -/
def norMtdparts : Install Unit := do
  let _ ← sendInstall cfg.console
    (if 32 ≤ cfg.norSize then
      .setenv "mtdparts".toList
        "hi_sfc:256k(boot),64k(env),3072k(kernel),24576k(rootfs),-(rootfs_data)".toList
    else .run ("mtdpartsnor".toList ++ (toString cfg.norSize).toList ++ ['m']))
  pure ()

/-- The variables that boot what was installed. -/
def bootEnvironment : Install Unit :=
  if cfg.nand then do
    let _ ← sendInstall cfg.console (.setenv "mtdparts".toList hinandMtdparts)
    let _ ← sendInstall cfg.console (.setenv "bootcmd".toList
      "nand read $\x7bbaseaddr\x7d 0x200000 0x800000\\; bootm $\x7bbaseaddr\x7d".toList)
    let _ ← sendInstall cfg.console
      (.setenv "bootargs".toList (nandBootargs (isUbiImage cfg.rootfsData)))
    pure ()
  else do
    cfg.norMtdparts
    let _ ← sendInstall cfg.console (.setenv "bootcmd".toList "$\x7bbootcmdnor\x7d".toList)
    pure ()

variable (py : PyChars)

/-- The address of the camera, before the environment is saved. -/
def rescueEthaddr : Install Unit := do
  let ethResp ← sendInstall cfg.console .printenvEthaddr
  if isUnsetOrDefaultEthaddr py (parsePrintenvValue py ethResp "ethaddr".toList) then
    let _ ← sendInstall cfg.console
      (.setenv "ethaddr".toList (generateLocallyAdministeredMac cfg.token))
    pure ()
  else pure ()

/-- The flash answers. -/
def probeFlash : Install Unit :=
  if cfg.nand then do
    let resp ← sendInstall cfg.console .nandInfo
    if lowerContains resp "error".toList || lowerContains resp "no nand".toList then
      Scripted.raise (.noFlash resp)
    else pure ()
  else do
    let resp ← sendInstall cfg.console .sfProbe
    if lowerContains resp "error".toList || lowerContains resp "fail".toList then
      Scripted.raise (.noFlash resp)
    else pure ()

/-- The checks before the camera is touched. -/
def checkImages : Except InstallError Unit :=
  if cfg.kernelData.isEmpty || cfg.rootfsData.isEmpty then .error .missing
  else if cfg.layout.kernel.size < cfg.kernelData.length then
    .error (.tooLarge .kernel cfg.kernelData.length cfg.layout.kernel.size)
  else if cfg.layout.rootfs.size < cfg.rootfsData.length then
    .error (.tooLarge .rootfs cfg.rootfsData.length cfg.layout.rootfs.size)
  else if cfg.layout.boot.size < cfg.ubootRaw.length then
    .error (.tooLarge .uboot cfg.ubootRaw.length cfg.layout.boot.size)
  else .ok ()

/-- `_install_async` up to `saveenv`, without the session that loads U-Boot. -/
def installImages : Install Unit := do
  Scripted.lift cfg.checkImages
  cfg.probeFlash
  let _ ← sendInstall cfg.console (.setenv "ipaddr".toList cfg.deviceIp)
  let _ ← sendInstall cfg.console (.setenv "serverip".toList cfg.serverip)
  cfg.tftpAndFlash .uboot "u-boot.bin".toList cfg.ubootData cfg.layout.boot.off
    cfg.ubootFlashSize
  cfg.tftpAndFlash .kernel cfg.kernelName cfg.kernelData cfg.layout.kernel.off
    cfg.layout.kernel.size
  cfg.flashRootfs
  cfg.bootEnvironment
  cfg.rescueEthaddr py

/-- `_install_async`, without the session that loads U-Boot. -/
def install : Install Unit := do
  cfg.installImages py
  let _ ← sendInstall cfg.console .saveenv
  let _ ← sendInstall cfg.console .reset
  pure ()

end InstallConfig

end Defib
