import Defib.Properties.InstallSuccess

/-!
# What an installation on NOR verifies

On NOR each image is read back and its checksum compared.  Answers are not looked at otherwise, and
one to `crc32` that has no checksum in it passes: a camera that does nothing and says "done" is
installed with success.  If each answer had one, `install_verified` says that every image is in its
partition, as far as its checksum tells, whatever went wrong with the commands that erase and write.
-/

namespace Defib

open Scripted InstallConfig

/-! ## What a run on NOR that reports success leaves in the flash -/

/-- An answer to `crc32` has a checksum in it. -/
def CrcAnswered : InstallExchange → Prop
  | (.crc32 _ _, r) => (getDeviceCrc32 r.out).isSome
  | _ => True

/-- A camera all of whose answers to `crc32` have a checksum in them. -/
def AnsweringStep (bad : ℕ → Bool) (layout : FlashLayout) (d : Device) (e : InstallExchange)
    (d' : Device) : Prop :=
  InstallStep bad layout d e d' ∧ CrcAnswered e

/-- The flash holds an image, as far as its checksum tells. -/
def Device.Holds (d : Device) (off : ℕ) (data : List UInt8) : Prop :=
  zlibCrc32 (Store.load d.flash off data.length) = zlibCrc32 data

lemma Device.Holds.of_flash {d d' : Device} {off : ℕ} {data : List UInt8} (h : d.Holds off data)
    (hflash : ∀ x, Window.Has ⟨off, data.length⟩ x → d'.flash x = d.flash x) :
    d'.Holds off data := by
  have hload : Store.load d'.flash off data.length = Store.load d.flash off data.length :=
    Store.load_congr fun i hlo hhi => hflash i ⟨hlo, hhi⟩
  rw [Device.Holds, hload]
  exact h

namespace InstallConfig

variable {py : PyChars} {cfg : InstallConfig} {bad : ℕ → Bool}

/-- What is read back is compared with the image. -/
lemma triple_verifyFlash {image : Image} {data : List UInt8} {off : ℕ} (hnor : cfg.nand = false)
    {P : Device → Prop} :
    Triple (AnsweringStep bad cfg.layout) P (cfg.verifyFlash image data off)
      fun _ d => d.Holds off data := by
  rw [verifyFlash, hnor, if_neg Bool.false_ne_true]
  have hread : Triple (AnsweringStep bad cfg.layout) P
      (sendInstall cfg.console (.sfRead cfg.ramAddr off data.length))
      fun _ d => Store.load d.ram cfg.ramAddr data.length = Store.load d.flash off data.length := by
    refine triple_send fun r d d' _ hstep => ?_
    rw [hstep.1.2, hstep.1.1]
  have hcrc : Triple (AnsweringStep bad cfg.layout)
      (fun d => Store.load d.ram cfg.ramAddr data.length = Store.load d.flash off data.length)
      (sendInstall cfg.console (.crc32 cfg.ramAddr data.length))
      fun resp d => getDeviceCrc32 resp =
        some (zlibCrc32 (Store.load d.flash off data.length)).toNat := by
    refine triple_send fun r d d' hd hstep => ?_
    obtain ⟨⟨hflash, hright⟩, hanswered⟩ := hstep
    obtain ⟨got, hgot⟩ := Option.isSome_iff_exists.mp hanswered
    rw [hgot, hright got hgot, hd, hflash]
  refine hread.bind fun _ => hcrc.bind fun resp => ?_
  rw [checkCrc]
  intro a t d d' hrun hd hpath
  rw [hd] at hrun
  dsimp only at hrun
  split_ifs at hrun with hne
  · exact absurd hrun Yields.not_raise
  · obtain ⟨-, rfl⟩ := Yields.pure_iff.mp hrun
    obtain rfl : d' = d := hpath
    exact BitVec.eq_of_toNat_eq (not_not.mp hne)

lemma triple_tftpAndFlash {image : Image} {name : Text} {data : List UInt8} {off size : ℕ}
    (hnor : cfg.nand = false) {P : Device → Prop} :
    Triple (AnsweringStep bad cfg.layout) P (cfg.tftpAndFlash image name data off size)
      fun _ d => d.Holds off data := by
  rw [tftpAndFlash]
  exact Triple.true.bind fun _ => Triple.true.bind fun _ => Triple.true.bind fun _ =>
    Triple.true.bind fun _ => Triple.true.bind fun _ => triple_verifyFlash hnor

/-- What is spared is still there. -/
lemma triple_holds_of_spares {α : Type} {p : Install α} {off : ℕ} {data : List UInt8}
    (h : ∀ x, Window.Has ⟨off, data.length⟩ x → Writing (cfg.Spares bad x) p) :
    Triple (AnsweringStep bad cfg.layout) (fun d => d.Holds off data) p fun _ d => d.Holds off data := by
  refine Triple.of_writing fun script e he d d' hstep hd => hd.of_flash fun x hx => ?_
  exact h x hx script e he d d' hstep.1

/-- Each image is in its partition, as far as its checksum tells. -/
structure Installed (cfg : InstallConfig) (d : Device) : Prop where
  uboot : d.Holds cfg.layout.boot.off cfg.ubootData
  kernel : d.Holds cfg.layout.kernel.off cfg.kernelData
  rootfs : d.Holds cfg.layout.rootfs.off cfg.rootfsData

/-- The images are in the partitions, and what changes nothing there leaves them alone. -/
lemma triple_installed_of_spares {α : Type} {p : Install α} (hfits : cfg.Fits)
    (h : ∀ x, ¬ cfg.layout.env.Has x → Writing (cfg.Spares bad x) p) :
    Triple (AnsweringStep bad cfg.layout) cfg.Installed p fun _ d => cfg.Installed d := by
  have hs := cfg.layout_sound
  have hboot : cfg.ubootData.length = cfg.layout.boot.size := length_padFf hfits.uboot
  refine Triple.of_writing fun script e he d d' hstep hd => ?_
  have hspares : ∀ x, ¬ cfg.layout.env.Has x → d'.flash x = d.flash x :=
    fun x hx => h x hx script e he d d' hstep.1
  have henv := hs.env_off
  have hkernel := hs.kernel_off
  have hrootfs := hs.rootfs_off
  have hzero := hs.boot_off
  refine ⟨hd.uboot.of_flash fun x hx => hspares x ?_, hd.kernel.of_flash fun x hx => hspares x ?_,
    hd.rootfs.of_flash fun x hx => hspares x ?_⟩ <;> simp only [Window.Has] at hx ⊢ <;> omega

/-- **The images**, up to `saveenv`. -/
lemma triple_installImages (hnor : cfg.nand = false) :
    Triple (AnsweringStep bad cfg.layout) (fun _ => True) (cfg.installImages py)
      fun _ d => cfg.Installed d := by
  have hs := cfg.layout_sound
  have hzero := hs.boot_off
  have hkoff := hs.kernel_off
  have hroff := hs.rootfs_off
  have hquiet : ∀ x, ∀ cmd, IsQuiet cmd → ∀ r, cfg.Spares bad x (cmd, r) := fun _ _ h =>
    spares_of_isQuiet h
  have hrootfs : cfg.flashRootfs = cfg.tftpAndFlash .rootfs cfg.rootfsName cfg.rootfsData
      cfg.layout.rootfs.off cfg.layout.rootfs.size := by
    rw [flashRootfs, hnor, Bool.false_and, if_neg Bool.false_ne_true]
  rw [installImages, hrootfs]
  refine Triple.lift_bind fun u hu => ?_
  have hfits := fits_of_checkImages hu
  have hboot : cfg.ubootData.length = cfg.layout.boot.size := length_padFf hfits.uboot
  have hkernel := hfits.kernel
  have hgood : ∀ {off size}, cfg.nand = true → ∀ y, Window.Has ⟨off, size⟩ y → bad y = false :=
    fun hnand => absurd (hnor.symm.trans hnand) Bool.false_ne_true
  -- an image that was checked stays, since those that follow have partitions of their own
  have hkeepBoot : ∀ {image name data off size}, eraseBlock cfg.nand ∣ off →
      eraseBlock cfg.nand ∣ size → data.length ≤ size → cfg.layout.boot.size ≤ off →
      Triple (AnsweringStep bad cfg.layout) (fun d => d.Holds cfg.layout.boot.off cfg.ubootData)
        (cfg.tftpAndFlash image name data off size)
        fun _ d => d.Holds cfg.layout.boot.off cfg.ubootData := by
    intro image name data off size hoff hdvd hle hafter
    refine triple_holds_of_spares (spares_before hoff hdvd hle hgood ?_)
    rwa [hzero, hboot, Nat.zero_add]
  have hkeepKernel : Triple (AnsweringStep bad cfg.layout)
      (fun d => d.Holds cfg.layout.kernel.off cfg.kernelData)
      (cfg.tftpAndFlash .rootfs cfg.rootfsName cfg.rootfsData cfg.layout.rootfs.off
        cfg.layout.rootfs.size) fun _ d => d.Holds cfg.layout.kernel.off cfg.kernelData := by
    refine triple_holds_of_spares
      (spares_before cfg.rootfs_off_dvd hs.rootfs_dvd hfits.rootfs hgood ?_)
    rw [hroff]
    exact Nat.add_le_add_left hkernel _
  refine Triple.true.bind fun _ => Triple.true.bind fun _ => Triple.true.bind fun _ =>
    (triple_tftpAndFlash hnor).bind fun _ => ?_
  refine ((hkeepBoot cfg.kernel_off_dvd hs.kernel_dvd hkernel (by omega)).and
    (triple_tftpAndFlash hnor)).bind fun _ => ?_
  have hlast : Triple (AnsweringStep bad cfg.layout)
      (fun d => d.Holds cfg.layout.boot.off cfg.ubootData ∧
        d.Holds cfg.layout.kernel.off cfg.kernelData)
      (cfg.tftpAndFlash .rootfs cfg.rootfsName cfg.rootfsData cfg.layout.rootfs.off
        cfg.layout.rootfs.size) fun _ d => cfg.Installed d := by
    have hkept := (hkeepBoot cfg.rootfs_off_dvd hs.rootfs_dvd hfits.rootfs (by omega)).inter
      hkeepKernel
    exact (hkept.and (triple_tftpAndFlash hnor)).mono (fun _ hd => hd)
      fun _ _ hd => ⟨hd.1.1, hd.1.2, hd.2⟩
  refine hlast.bind fun _ => ?_
  exact (triple_installed_of_spares hfits fun x _ => writing_bootEnvironment (hquiet x)).bind
    fun _ => triple_installed_of_spares hfits fun _ _ => writing_spares_rescueEthaddr

end InstallConfig

/-- **What an installation on NOR leaves**: if it reports success and every answer to `crc32` had a
checksum in it, each image is in its partition, whatever else went wrong. -/
theorem install_verified {py : PyChars} {cfg : InstallConfig} (hnor : cfg.nand = false)
    {t : List (Event InstallExchange Response Empty)} (hrun : Yields (cfg.install py) () t)
    (hanswered : ∀ e ∈ written t, CrcAnswered e) {bad : ℕ → Bool} {d d' : Device}
    (hpath : Path (InstallStep bad cfg.layout) d (written t) d') : cfg.Installed d' := by
  have hall : Path (AnsweringStep bad cfg.layout) d (written t) d' :=
    hpath.imp fun e he d₁ d₂ hstep => ⟨hstep, hanswered e he⟩
  rw [install] at hrun
  obtain ⟨u, t₁, t₂, himages, hend, rfl⟩ := hrun.of_bind
  rw [written_append] at hall
  obtain ⟨d₁, hpath₁, hpath₂⟩ := hall.of_append
  have hinstalled := triple_installImages hnor u t₁ d d₁ himages trivial hpath₁
  have hfits : cfg.Fits := by
    rw [installImages] at himages
    obtain ⟨u', _, _, hcheck, -, -⟩ := himages.of_bind
    exact fits_of_checkImages hcheck.of_lift.1
  have hsave : Triple (AnsweringStep bad cfg.layout) cfg.Installed (sendInstall cfg.console .saveenv)
      fun _ d => cfg.Installed d :=
    triple_installed_of_spares hfits fun x hx => writing_send fun r _ _ hstep => hstep x hx
  have hreset : Triple (AnsweringStep bad cfg.layout) cfg.Installed (sendInstall cfg.console .reset)
      fun _ d => cfg.Installed d :=
    triple_installed_of_spares hfits fun x _ => writing_send (spares_of_isQuiet trivial)
  have hlast : Triple (AnsweringStep bad cfg.layout) cfg.Installed
      (sendInstall cfg.console .saveenv >>= fun _ => sendInstall cfg.console .reset >>= fun _ =>
        (pure () : Install Unit)) fun _ d => cfg.Installed d :=
    hsave.bind fun _ => hreset.bind fun _ => Triple.pure fun _ hd => hd
  exact hlast () t₂ d₁ d' hend hinstalled hpath₂

/-- The sample, on a camera that answers to `crc32`. -/
theorem install_verified_sample :
    ∃ script c', Path (Reacts (Camera.answer sampleInstall.tftpFiles)) sampleCamera
        (written (sampleInstall.install .ascii script).trace) c' ∧
      sampleInstall.Installed c'.device := by
  obtain ⟨script, c', hpath, hworks⟩ := exists_sample_run
  obtain ⟨u, hresult, -⟩ := surely_install sampleInstall_ready script _ _ trivial hworks
  have hanswered : ∀ e ∈ written (sampleInstall.install .ascii script).trace, CrcAnswered e := by
    intro e he
    obtain ⟨c₁, c₂, hstep⟩ := hpath.exists_step e he
    obtain ⟨cmd, r⟩ := e
    cases cmd with
    | crc32 addr size =>
        have hcrc := Camera.crc32_out sampleInstall.tftpFiles c₁ addr size
        obtain ⟨rfl, -⟩ := Prod.mk.inj hstep
        exact Option.isSome_iff_exists.mpr ⟨_, hcrc⟩
    | _ => exact trivial
  have hinstall : Path (InstallStep (fun _ => false) sampleInstall.layout) sampleCamera.device
      (written (sampleInstall.install .ascii script).trace) c'.device :=
    hworks.imp fun _ _ _ _ hstep => hstep.installStep
  exact ⟨script, c', hpath, install_verified rfl (yields_of_result hresult) hanswered hinstall⟩

end Defib
