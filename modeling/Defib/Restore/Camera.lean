import Defib.Framework.Dialogue
import Defib.Restore.Device
import Defib.Restore.Install

/-!
# A camera with U-Boot

The flash of a camera that is installed, its RAM, and the address in its environment.  `answer` is
what U-Boot does with a command and prints, when nothing goes wrong; `answerable_install` says that
there is a run of an installation against every device that answers, this one among them.
-/

namespace Defib

open Scripted

/-- A text that can be encoded. -/
def AsciiText (text : Text) : Prop := ∀ c ∈ text, c.toNat < 128

instance (text : Text) : Decidable (AsciiText text) :=
  decidable_of_iff (text.all fun c => decide (c.toNat < 128)) (by simp [AsciiText])

lemma asciiText_append {xs ys : Text} (hxs : AsciiText xs) (hys : AsciiText ys) :
    AsciiText (xs ++ ys) := fun c hc => (List.mem_append.mp hc).elim (hxs c) (hys c)

/-- The size of an erase block. -/
def eraseBlock (nand : Bool) : ℕ := if nand then 0x20000 else 0x10000

/-- Copy bytes from flash to RAM. -/
def Device.read (d : Device) (addr off size : ℕ) : Device :=
  d.load addr (Store.load d.flash off size)

/-- A camera. -/
structure Camera where
  device : Device
  ethaddr : Option Text

namespace Camera

/-- U-Boot prints this. -/
def prints (text : Text) : Response := ⟨true, encodeAscii text⟩

/-- What `printenv ethaddr` prints. -/
def showEthaddr : Option Text → Text
  | some mac => ("ethaddr".toList ++ ['=']) ++ (mac ++ ['\r', '\n'])
  | none => "## Error: not defined\r\n".toList

/-- The answer to a command, and the camera behind it. -/
def answer (files : Dict Text (List UInt8)) (c : Camera) : InstallCmd → Response × Camera
  | .tftpboot addr name | .tftp addr name =>
      match files.get? name with
      | some data => (prints "done".toList, { c with device := c.device.load addr data })
      | none => (prints "not found".toList, c)
  | .crc32 addr size =>
      (prints ("==> ".toList ++
        (hexDigits 8 (zlibCrc32 (Store.load c.device.ram addr size)).toNat ++ "\r\n".toList)), c)
  | .erase nand off size =>
      (prints [], { c with device := c.device.erase 0xFF (eraseBlock nand) off size })
  | .write _ addr off size => (prints [], { c with device := c.device.write addr off size })
  | .sfRead addr off size => (prints [], { c with device := c.device.read addr off size })
  | .setenv name value =>
      (prints [], if name = "ethaddr".toList then { c with ethaddr := some value } else c)
  | .printenvEthaddr => (prints (showEthaddr c.ethaddr), c)
  | _ => (prints [], c)

end Camera

/-! ## Runs against a device that answers -/

namespace InstallConfig

variable {cfg : InstallConfig} {δ : Type} {react : δ → InstallCmd → Response × δ}

lemma answerable_send {console : Console} {cmd : InstallCmd} :
    Answerable react (sendInstall console cmd) := by
  intro d
  by_cases h : console = .download ∧ ¬ cmd.text.all (·.toNat < 128)
  · refine ⟨[], .error .encode, [], d, fun rest => ?_, rfl⟩
    rw [sendInstall, if_pos h]
    rfl
  · refine ⟨[.item (react d cmd).1], .ok (react d cmd).1.out, [.write (cmd, (react d cmd).1)],
      (react d cmd).2, fun rest => ?_, (react d cmd).2, rfl, rfl⟩
    rw [sendInstall, if_neg h]
    rfl

lemma answerable_send_bind {α : Type} {console : Console} {cmd : InstallCmd} {f : Text → Install α}
    (hf : ∀ resp, Answerable react (f resp)) : Answerable react (sendInstall console cmd >>= f) :=
  answerable_send.bind hf

lemma answerable_checkCrc {expected : ℕ} {err : ℕ → InstallError} {resp : Text} :
    Answerable react (checkCrc expected err resp) := by
  rw [checkCrc]
  split
  · exact .ite (.raise _) (.pure _)
  · exact .pure _

lemma answerable_tftpToRam {image : Image} {name : Text} :
    Answerable react (cfg.tftpToRam image name) := by
  rw [tftpToRam]
  refine answerable_send_bind fun resp => Answerable.bind ?_ fun resp => .ite (.pure _) (.raise _)
  rw [tftpFallback]
  exact .ite answerable_send (.pure _)

lemma answerable_tftpAndFlash {image : Image} {name : Text} {data : List UInt8} {off size : ℕ} :
    Answerable react (cfg.tftpAndFlash image name data off size) := by
  rw [tftpAndFlash]
  refine answerable_tftpToRam.bind fun _ => answerable_send_bind fun resp =>
    answerable_checkCrc.bind fun _ => answerable_send_bind fun _ => answerable_send_bind fun _ => ?_
  rw [verifyFlash]
  exact .ite (.pure _) (answerable_send_bind fun _ => answerable_send_bind fun _ =>
    answerable_checkCrc)

lemma answerable_flashRootfs : Answerable react cfg.flashRootfs := by
  rw [flashRootfs]
  refine .ite ?_ answerable_tftpAndFlash
  split
  · rw [flashUbi]
    exact answerable_tftpToRam.bind fun _ => answerable_send_bind fun _ =>
      answerable_send_bind fun _ => answerable_send_bind fun _ => answerable_send_bind fun _ =>
      answerable_send_bind fun _ => answerable_send_bind fun _ => answerable_send_bind fun _ =>
      .ite (.raise _) (.pure _)
  · exact .raise _

lemma answerable_bootEnvironment : Answerable react cfg.bootEnvironment := by
  rw [bootEnvironment, norMtdparts]
  refine .ite ?_ ?_
  · exact answerable_send_bind fun _ => answerable_send_bind fun _ => answerable_send_bind fun _ =>
      .pure _
  · exact (answerable_send_bind fun _ => .pure _).bind fun _ => answerable_send_bind fun _ => .pure _

/-- **An installation has a run** against every device that answers. -/
lemma answerable_install (py : PyChars) (cfg : InstallConfig) (react : δ → InstallCmd → Response × δ) :
    Answerable react (cfg.install py) := by
  have hprobe : Answerable react cfg.probeFlash := by
    rw [probeFlash]
    exact .ite (answerable_send_bind fun _ => .ite (.raise _) (.pure _))
      (answerable_send_bind fun _ => .ite (.raise _) (.pure _))
  have hethaddr : Answerable react (cfg.rescueEthaddr py) := by
    rw [rescueEthaddr]
    exact answerable_send_bind fun _ => .ite (answerable_send_bind fun _ => .pure _) (.pure _)
  have himages : Answerable react (cfg.installImages py) := by
    rw [installImages]
    exact Answerable.lift_bind fun _ => hprobe.bind fun _ => answerable_send_bind fun _ =>
      answerable_send_bind fun _ => answerable_tftpAndFlash.bind fun _ =>
      answerable_tftpAndFlash.bind fun _ => answerable_flashRootfs.bind fun _ =>
      answerable_bootEnvironment.bind fun _ => hethaddr
  rw [install]
  exact himages.bind fun _ => answerable_send_bind fun _ => answerable_send_bind fun _ => .pure _

end InstallConfig

/-- An installation of three small images on a NOR of 8 MB. -/
def sampleInstall : InstallConfig where
  console := .shell
  nand := false
  norSize := 8
  wipeEnv := false
  deviceIp := "192.168.1.10".toList
  serverip := "192.168.1.1".toList
  ramAddr := 0x82000000
  ubootRaw := [1, 2, 3]
  kernelName := "uImage.hi3516ev300".toList
  kernelData := [4, 5]
  rootfsName := "rootfs.squashfs.hi3516ev300".toList
  rootfsData := [6, 7, 8, 9]
  token := ⟨[0, 1, 2, 3, 4, 5], rfl⟩

/-- A camera with the address of the images. -/
def sampleCamera : Camera := ⟨⟨fun _ => 0, fun _ => 0⟩, some openipcDefaultEthaddr⟩

end Defib
