import Defib.Properties.EthaddrReading
import Defib.Properties.InstallFootprint

/-!
# An installation on a camera that works

On a camera that does what it is told, and says so, an installation of raw images succeeds, and each
image is in its partition, byte for byte.  Answers may be anything that the installation takes for a
success: U-Boot need not know `tftpboot`, and an answer to `crc32` may have no checksum in it.
-/

namespace Defib

open Scripted

/-! ## Commands in download mode -/

lemma asciiText_words {ws : List Text} (h : ∀ w ∈ ws, AsciiText w) :
    AsciiText (UbootCmd.words ws) := by
  induction ws with
  | nil => exact fun c hc => absurd hc List.not_mem_nil
  | cons w ws ih =>
      have hw := h w List.mem_cons_self
      cases ws with
      | nil => simpa [UbootCmd.words] using hw
      | cons w' ws =>
          have hcons : UbootCmd.words (w :: w' :: ws) = w ++ ' ' :: UbootCmd.words (w' :: ws) := by
            simp [UbootCmd.words, List.intercalate]
          rw [hcons]
          refine asciiText_append hw fun c hc => ?_
          rcases List.mem_cons.mp hc with rfl | hc
          · decide
          · exact ih (fun w hw => h w (List.mem_cons_of_mem _ hw)) c hc

lemma asciiText_toDigits {b : ℕ} (hb : 1 < b) (hle : b ≤ 16) (n : ℕ) :
    AsciiText (Nat.toDigits b n) := by
  have hdigit : ∀ d < 16, (Nat.digitChar d).toNat < 128 := by decide
  induction n using Nat.strong_induction_on with
  | _ n ih =>
      rw [Nat.toDigits_eq_if hb]
      split_ifs with hlt
      · intro c hc
        rw [List.mem_singleton.mp hc]
        exact hdigit n (by omega)
      · refine asciiText_append (ih (n / b) (Nat.div_lt_self (by omega) hb)) fun c hc => ?_
        rw [List.mem_singleton.mp hc]
        exact hdigit (n % b) ((Nat.mod_lt n (by omega)).trans_le hle)

lemma asciiText_hexText (n : ℕ) : AsciiText (hexText n) := by
  rw [hexText, if_neg (by omega)]
  exact asciiText_append (by decide) (asciiText_toDigits (by decide) le_rfl _)

lemma asciiText_toString (n : ℤ) : AsciiText (toString n).toList := by
  have hnat : ∀ m : ℕ, AsciiText (Nat.repr m).toList := by
    intro m
    rw [Nat.toList_repr]
    exact asciiText_toDigits (by decide) (by decide) m
  cases n with
  | ofNat m => exact hnat m
  | negSucc m =>
      have htext : (toString (Int.negSucc m)).toList = '-' :: (Nat.repr (m + 1)).toList := by
        simp [toString, Int.repr, String.toList_append]
      rw [htext]
      have hsign : AsciiText ['-'] := by decide
      exact asciiText_append hsign (hnat (m + 1))

/-- The words of a command that are not its own. -/
def InstallCmd.args : InstallCmd → List Text
  | .setenv name value => [name, value]
  | .tftpboot _ name => [name]
  | .tftp _ name => [name]
  | .run var => [var]
  | _ => []

lemma asciiText_text (cmd : InstallCmd) (h : ∀ w ∈ cmd.args, AsciiText w) : AsciiText cmd.text := by
  have hwords : ∀ ws : List Text, (∀ w ∈ ws, AsciiText w) → AsciiText (UbootCmd.words ws) :=
    fun _ => asciiText_words
  have hflash : ∀ nand, AsciiText (flashCmd nand) := by decide
  have hhex := asciiText_hexText
  cases cmd with
  | setenv name value =>
      obtain ⟨hname, hvalue⟩ : AsciiText name ∧ AsciiText value := by simpa [InstallCmd.args] using h
      exact hwords _ (by simp only [List.forall_mem_cons]; exact ⟨by decide, hname, hvalue, by simp⟩)
  | tftpboot addr name =>
      have hname : AsciiText name := by simpa [InstallCmd.args] using h
      exact hwords _ (by simp only [List.forall_mem_cons]; exact ⟨by decide, hhex _, hname, by simp⟩)
  | tftp addr name =>
      have hname : AsciiText name := by simpa [InstallCmd.args] using h
      exact hwords _ (by simp only [List.forall_mem_cons]; exact ⟨by decide, hhex _, hname, by simp⟩)
  | crc32 addr size =>
      exact hwords _
        (by simp only [List.forall_mem_cons]; exact ⟨by decide, hhex _, hhex _, by simp⟩)
  | erase nand off size =>
      exact hwords _ (by
        simp only [List.forall_mem_cons]
        exact ⟨hflash nand, by decide, hhex _, hhex _, by simp⟩)
  | write nand addr off size =>
      exact hwords _ (by
        simp only [List.forall_mem_cons]
        exact ⟨hflash nand, by decide, hhex _, hhex _, hhex _, by simp⟩)
  | sfRead addr off size =>
      exact hwords _
        (by simp only [List.forall_mem_cons]; exact ⟨by decide, hhex _, hhex _, hhex _, by simp⟩)
  | ubiWrite addr size =>
      exact hwords _
        (by simp only [List.forall_mem_cons]; exact ⟨by decide, hhex _, by decide, hhex _, by simp⟩)
  | run var =>
      have hvar : AsciiText var := by simpa [InstallCmd.args] using h
      exact hwords _ (by simp only [List.forall_mem_cons]; exact ⟨by decide, hvar, by simp⟩)
  | nandInfo => exact (by decide : AsciiText "nand info".toList)
  | sfProbe => exact (by decide : AsciiText "sf probe 0".toList)
  | mtdparts => exact (by decide : AsciiText "mtdparts".toList)
  | ubiPart => exact (by decide : AsciiText "ubi part ubi".toList)
  | ubiCreate => exact (by decide : AsciiText "ubi create rootfs".toList)
  | printenvEthaddr => exact (by decide : AsciiText "printenv ethaddr".toList)
  | saveenv => exact (by decide : AsciiText "saveenv".toList)
  | reset => exact (by decide : AsciiText "reset".toList)

/-- A command can be sent. -/
def Sendable (console : Console) (cmd : InstallCmd) : Prop :=
  console = .download → ∀ w ∈ cmd.args, AsciiText w

section Send

variable {console : Console} {cmd : InstallCmd}

lemma sendInstall_apply (h : Sendable console cmd) (script : List (Reading Response)) :
    sendInstall console cmd script = ⟨.ok (nextResponse script).1.out, (nextResponse script).2,
      [.write (cmd, (nextResponse script).1)]⟩ := by
  rw [sendInstall, if_neg]
  rintro ⟨hdownload, hnot⟩
  refine hnot (List.all_eq_true.mpr fun c hc => decide_eq_true ?_)
  exact asciiText_text cmd (h hdownload) c hc

lemma returning_send (h : Sendable console cmd) : Returning (sendInstall console cmd) :=
  fun script => ⟨_, by rw [sendInstall_apply h]⟩

lemma surely_send {δ : Type} {step : δ → InstallExchange → δ → Prop} {P : δ → Prop}
    {Q : Text → δ → Prop} (hs : Sendable console cmd)
    (h : ∀ r d d', P d → step d (cmd, r) d' → Q r.out d') :
    Surely step P (sendInstall console cmd) Q := by
  intro script d d' hd hpath
  rw [sendInstall_apply hs] at hpath ⊢
  obtain ⟨d₁, hstep, rfl⟩ := hpath
  exact ⟨_, rfl, h _ _ _ hd hstep⟩

lemma sendable_of_args (h : cmd.args = []) : Sendable console cmd :=
  fun _ w hw => absurd hw (by rw [h]; exact List.not_mem_nil)

end Send

/-! ## The images -/

/-- A range of the RAM holds data. -/
def Device.Has (d : Device) (addr : ℕ) (data : List UInt8) : Prop :=
  Store.load d.ram addr data.length = data

/-- A range of the flash holds data. -/
def Device.Stores (d : Device) (off : ℕ) (data : List UInt8) : Prop :=
  Store.load d.flash off data.length = data

namespace InstallConfig

/-- The texts of a configuration, and what they must be in download mode. -/
def Encodable (cfg : InstallConfig) : Prop :=
  cfg.console = .download →
    ∀ w ∈ [cfg.deviceIp, cfg.serverip, cfg.kernelName, cfg.rootfsName], AsciiText w

variable {py : PyChars} {cfg : InstallConfig}

/-- The server has the image under its name, and the name can be sent. -/
def Served (cfg : InstallConfig) (name : Text) (data : List UInt8) : Prop :=
  (cfg.console = .download → AsciiText name) ∧ cfg.tftpFiles.get? name = some data

/-- What a camera that works does in this installation. -/
abbrev Works (cfg : InstallConfig) : Device → InstallExchange → Device → Prop :=
  WorkingStep cfg.tftpFiles cfg.layout

lemma surely_tftpToRam {image : Image} {name : Text} {data : List UInt8} (h : cfg.Served name data)
    {P : Device → Prop} :
    Surely cfg.Works P (cfg.tftpToRam image name) fun _ d => d.Has cfg.ramAddr data := by
  obtain ⟨hascii, hfile⟩ := h
  have hsend : ∀ w ∈ [name], cfg.console = .download → AsciiText w := by
    intro w hw hdownload
    rw [List.mem_singleton.mp hw]
    exact hascii hdownload
  have hdownload : ∀ {d d' : Device} {out : Text},
      Downloads cfg.tftpFiles d cfg.ramAddr name out d' →
        tftpOk out = true ∧ d'.Has cfg.ramAddr data := by
    intro d d' out hload
    obtain ⟨hok, hram⟩ := hload.2 data hfile
    refine ⟨hok, ?_⟩
    rw [Device.Has, hram]
    exact d.load_ram_load cfg.ramAddr data
  have hfirst : Surely cfg.Works P (sendInstall cfg.console (.tftpboot cfg.ramAddr name))
      fun out d => unknownCommand out = false → tftpOk out = true ∧ d.Has cfg.ramAddr data := by
    refine surely_send (fun hd w hw => hsend w hw hd) fun r d d' _ hstep hknown => ?_
    have hload := (if_neg (by rw [hknown]; decide)).mp hstep
    exact hdownload hload
  have hsecond : ∀ out, Surely cfg.Works
      (fun d => unknownCommand out = false → tftpOk out = true ∧ d.Has cfg.ramAddr data)
      (cfg.tftpFallback name out)
      fun out d => d.Has cfg.ramAddr data ∧ tftpOk out = true := by
    intro out
    rw [tftpFallback]
    refine Surely.ite (fun _ => ?_) fun hknown => Surely.pure fun d hd => ?_
    · exact surely_send (fun hd w hw => hsend w hw hd) fun r d d' _ hstep => (hdownload hstep).symm
    · exact (hd (eq_false_of_ne_true hknown)).symm
  rw [tftpToRam]
  refine hfirst.bind fun out => (hsecond out).bind fun out => Surely.of_and fun hok => ?_
  rw [if_pos hok]
  exact Surely.pure fun _ hd => hd

/-- A checksum that is right passes, and so does an answer without one. -/
lemma surely_checkCrc {step : Device → InstallExchange → Device → Prop} {P : Device → Prop}
    {expected : ℕ} {err : ℕ → InstallError} {resp : Text}
    (h : ∀ got, getDeviceCrc32 resp = some got → got = expected) :
    Surely step P (checkCrc expected err resp) fun _ d => P d := by
  rw [checkCrc]
  split
  · rename_i got hgot
    rw [if_neg (not_not.mpr (h got hgot))]
    exact Surely.pure fun _ hd => hd
  · exact Surely.pure fun _ hd => hd

/-- The checksum of what is in the RAM is asked for. -/
lemma surely_crc32 {data : List UInt8} :
    Surely cfg.Works (fun d => d.Has cfg.ramAddr data)
      (sendInstall cfg.console (.crc32 cfg.ramAddr data.length)) fun resp d =>
        d.Has cfg.ramAddr data ∧
          ∀ got, getDeviceCrc32 resp = some got → got = (zlibCrc32 data).toNat := by
  refine surely_send (sendable_of_args rfl) ?_
  rintro r d d' hd ⟨rfl, hright⟩
  refine ⟨hd, fun got hgot => ?_⟩
  rw [hright got hgot, hd]

lemma le_roundUp {page n : ℕ} (hpage : 0 < page) : n ≤ roundUp page n := by
  have hdiv := Nat.div_add_mod (n + page - 1) page
  have hmod := Nat.mod_lt (n + page - 1) hpage
  rw [roundUp, Nat.mul_comm]
  omega

lemma surely_verifyFlash {image : Image} {data : List UInt8} {off : ℕ} :
    Surely cfg.Works (fun d => d.Stores off data) (cfg.verifyFlash image data off)
      fun _ d => d.Stores off data := by
  rw [verifyFlash]
  refine Surely.ite (fun _ => Surely.pure fun _ hd => hd) fun _ => ?_
  have hread : Surely cfg.Works (fun d => d.Stores off data)
      (sendInstall cfg.console (.sfRead cfg.ramAddr off data.length))
      fun _ d => d.Has cfg.ramAddr data ∧ d.Stores off data := by
    refine surely_send (sendable_of_args rfl) ?_
    rintro r d d' hd rfl
    have hload := d.load_ram_load cfg.ramAddr (Store.load d.flash off data.length)
    rw [Store.length_load, show Store.load d.flash off data.length = data from hd] at hload
    refine ⟨?_, hd⟩
    rw [Device.Has, Device.read, show Store.load d.flash off data.length = data from hd]
    exact hload
  have hcrc : Surely cfg.Works (fun d => d.Has cfg.ramAddr data ∧ d.Stores off data)
      (sendInstall cfg.console (.crc32 cfg.ramAddr data.length)) fun resp d =>
        (d.Has cfg.ramAddr data ∧
          ∀ got, getDeviceCrc32 resp = some got → got = (zlibCrc32 data).toNat) ∧
        d.Stores off data := by
    refine surely_crc32.keep (writing_send fun r d d' hstep hd => ?_)
    rw [show d' = d from hstep.1]
    exact hd
  refine hread.bind fun _ => hcrc.bind fun resp => ?_
  refine Surely.mono (Surely.of_and surely_checkCrc) (fun d hd => ⟨hd.2, hd.1.2⟩) fun _ _ hd => hd

/-- **An image gets into its partition.** -/
lemma surely_tftpAndFlash (image : Image) {name : Text} {data : List UInt8} {off size : ℕ}
    (h : cfg.Served name data) (P : Device → Prop) :
    Surely cfg.Works P (cfg.tftpAndFlash image name data off size)
      fun _ d => d.Stores off data := by
  have herase : Surely cfg.Works (fun d => d.Has cfg.ramAddr data)
      (sendInstall cfg.console (.erase cfg.nand off size))
      fun _ d => d.Has cfg.ramAddr data := by
    refine surely_send (sendable_of_args rfl) ?_
    rintro r d d' hd rfl
    exact hd
  have hwrite : ∀ writeSz, data.length ≤ writeSz →
      Surely cfg.Works (fun d => d.Has cfg.ramAddr data)
        (sendInstall cfg.console (.write cfg.nand cfg.ramAddr off writeSz))
        fun _ d => d.Stores off data := by
    intro writeSz hle
    refine surely_send (sendable_of_args rfl) ?_
    rintro r d d' hd rfl
    rw [Device.Stores, d.load_flash_write hle]
    exact hd
  have hle : data.length ≤ if cfg.nand then roundUp 2048 data.length else data.length := by
    split_ifs
    · exact le_roundUp (by decide)
    · exact le_rfl
  rw [tftpAndFlash]
  refine (surely_tftpToRam h).bind fun _ => surely_crc32.bind fun resp => Surely.of_and fun hcrc => ?_
  exact (surely_checkCrc hcrc).bind fun _ => herase.bind fun _ => (hwrite _ hle).bind fun _ =>
    surely_verifyFlash

/-! ## The installation -/

lemma writing_keeps_stores {α : Type} {p : Install α} {off : ℕ} {data : List UInt8}
    (h : ∀ x, Window.Has ⟨off, data.length⟩ x → Writing (cfg.Spares (fun _ => false) x) p) :
    Writing (fun e => ∀ d d', cfg.Works d e d' → d.Stores off data → d'.Stores off data) p := by
  intro script e he d d' hstep hd
  have hflash : Store.load d'.flash off data.length = Store.load d.flash off data.length :=
    Store.load_congr fun x hlo hhi => h x ⟨hlo, hhi⟩ script e he d d' hstep.installStep
  rw [Device.Stores, hflash]
  exact hd

/-- Each image is in its partition. -/
structure Flashed (cfg : InstallConfig) (d : Device) : Prop where
  uboot : d.Stores cfg.layout.boot.off cfg.ubootData
  kernel : d.Stores cfg.layout.kernel.off cfg.kernelData
  rootfs : d.Stores cfg.layout.rootfs.off cfg.rootfsData

/-- What changes nothing but the environment leaves the images alone. -/
lemma writing_keeps_flashed {α : Type} {p : Install α} (hfits : cfg.Fits)
    (h : ∀ x, ¬ cfg.layout.env.Has x → Writing (cfg.Spares (fun _ => false) x) p) :
    Writing (fun e => ∀ d d', cfg.Works d e d' → cfg.Flashed d → cfg.Flashed d') p := by
  have hs := cfg.layout_sound
  have hboot : cfg.ubootData.length = cfg.layout.boot.size := length_padFf hfits.uboot
  have henv := hs.env_off
  have hkernel := hs.kernel_off
  have hrootfs := hs.rootfs_off
  have hzero := hs.boot_off
  intro script e he d d' hstep hd
  have hkeep : ∀ {off : ℕ} {data : List UInt8},
      (∀ x, Window.Has ⟨off, data.length⟩ x → ¬ cfg.layout.env.Has x) → d.Stores off data →
        d'.Stores off data :=
    fun hout hst => writing_keeps_stores (fun x hx => h x (hout x hx)) script e he d d' hstep hst
  refine ⟨hkeep (fun x hx => ?_) hd.uboot, hkeep (fun x hx => ?_) hd.kernel,
    hkeep (fun x hx => ?_) hd.rootfs⟩ <;> simp only [Window.Has] at hx ⊢ <;> omega

/-- What can be sent is answered, and changes nothing but the environment. -/
lemma surely_flashed {α : Type} {p : Install α} (hfits : cfg.Fits) (hp : Returning p)
    (h : ∀ x, ¬ cfg.layout.env.Has x → Writing (cfg.Spares (fun _ => false) x) p) :
    Surely cfg.Works cfg.Flashed p fun _ d => cfg.Flashed d := by
  have hreturns : Surely cfg.Works (fun _ => True) p fun _ _ => True := Surely.of_returning hp
  have hkept := hreturns.keep (writing_keeps_flashed hfits h)
  exact hkept.mono (fun d hd => ⟨trivial, hd⟩) fun _ _ hd => hd.2

lemma returning_setenv {name value : Text} (hname : AsciiText name)
    (hvalue : cfg.console = .download → AsciiText value) :
    Returning (sendInstall cfg.console (.setenv name value)) := by
  refine returning_send fun hdownload w hw => ?_
  rcases List.mem_cons.mp hw with rfl | hw
  · exact hname
  · rw [List.mem_singleton.mp hw]
    exact hvalue hdownload

lemma returning_bootEnvironment : Returning cfg.bootEnvironment := by
  have hmtdparts : Returning cfg.norMtdparts := by
    rw [norMtdparts]
    split_ifs
    · exact (returning_setenv (by decide) fun _ => by decide).bind fun _ => .pure _
    · refine (returning_send fun _ w hw => ?_).bind fun _ => .pure _
      rw [List.mem_singleton.mp hw]
      exact asciiText_append (asciiText_append (by decide) (asciiText_toString _)) (by decide)
  have hbootargs : ∀ ubi, AsciiText (nandBootargs ubi) := by
    intro ubi
    rw [nandBootargs]
    split_ifs
    · exact asciiText_append (by decide) (asciiText_append (by decide) (by decide))
    · exact asciiText_append (by decide) (asciiText_append (by decide) (by decide))
  rw [bootEnvironment]
  refine .ite ?_ ?_
  · exact (returning_setenv (by decide) fun _ => by decide).bind fun _ =>
      (returning_setenv (by decide) fun _ => by decide).bind fun _ =>
      (returning_setenv (by decide) fun _ => hbootargs _).bind fun _ => .pure _
  · exact hmtdparts.bind fun _ =>
      (returning_setenv (by decide) fun _ => by decide).bind fun _ => .pure _

lemma returning_rescueEthaddr : Returning (cfg.rescueEthaddr py) := by
  have hmac : AsciiText (generateLocallyAdministeredMac cfg.token) :=
    forall_mem_macText (by decide) (by decide) _
  rw [rescueEthaddr]
  refine (returning_send (sendable_of_args rfl)).bind fun _ => .ite ?_ (.pure _)
  exact (returning_setenv (by decide) fun _ => hmac).bind fun _ => .pure _

/-- A probe to which the answer is a good one. -/
lemma surely_probe {cmd : InstallCmd} {bad : Text → Bool} (hargs : cmd.args = [])
    (h : ∀ r d d', cfg.Works d (cmd, r) d' → bad r.out = false) :
    Surely cfg.Works (fun _ => True) (do
      let resp ← sendInstall cfg.console cmd
      if bad resp then Scripted.raise (.noFlash resp) else pure ()) fun _ _ => True := by
  have hsend : Surely cfg.Works (fun _ => True) (sendInstall cfg.console cmd)
      fun out _ => True ∧ bad out = false :=
    surely_send (sendable_of_args hargs) fun r d d' _ hstep => ⟨trivial, h r d d' hstep⟩
  refine hsend.bind fun out => Surely.of_and fun hgood => ?_
  rw [if_neg (by rw [hgood]; decide)]
  exact Surely.pure fun _ hd => hd

lemma surely_probeFlash : Surely cfg.Works (fun _ => True) cfg.probeFlash fun _ _ => True := by
  rw [probeFlash]
  exact Surely.ite (fun _ => surely_probe rfl fun _ _ _ hstep => hstep.2)
    fun _ => surely_probe rfl fun _ _ _ hstep => hstep.2

lemma get?_setAll_three {κ α : Type} [DecidableEq κ] {a b c : κ} {x y z : α} (k : κ) :
    (Dict.setAll [] [(a, x), (b, y), (c, z)]).get? k =
      if c = k then some z else if b = k then some y else if a = k then some x else none := by
  simp only [Dict.setAll, List.foldl_cons, List.foldl_nil, Dict.get?_set, Dict.get?_nil]

/-- The images have names of their own. -/
lemma served (hencodable : cfg.Encodable) (hkernel : "uImage".toList <+: cfg.kernelName)
    (hrootfs : "rootfs.".toList <+: cfg.rootfsName) :
    cfg.Served "u-boot.bin".toList cfg.ubootData ∧ cfg.Served cfg.kernelName cfg.kernelData ∧
      cfg.Served cfg.rootfsName cfg.rootfsData := by
  have hget : ∀ name, cfg.tftpFiles.get? name = _ := fun name => get?_setAll_three name
  obtain ⟨kernel, hkernel⟩ := hkernel
  obtain ⟨rootfs, hrootfs⟩ := hrootfs
  have hkernelUboot : cfg.kernelName ≠ "u-boot.bin".toList := by
    rw [← hkernel]
    intro heq
    have hsecond : some 'I' = some '-' := congrArg (fun text : Text => text[1]?) heq
    exact absurd hsecond (by decide)
  have hrootfsUboot : cfg.rootfsName ≠ "u-boot.bin".toList := by
    rw [← hrootfs]
    intro heq
    have hfirst : some 'r' = some 'u' := congrArg List.head? heq
    exact absurd hfirst (by decide)
  have hrootfsKernel : cfg.rootfsName ≠ cfg.kernelName := by
    rw [← hrootfs, ← hkernel]
    intro heq
    have hfirst : some 'r' = some 'u' := congrArg List.head? heq
    exact absurd hfirst (by decide)
  refine ⟨⟨fun _ => by decide, ?_⟩, ⟨fun hd => hencodable hd _ (by simp), ?_⟩,
    ⟨fun hd => hencodable hd _ (by simp), ?_⟩⟩
  · rw [hget, if_neg hrootfsUboot, if_neg hkernelUboot, if_pos rfl]
  · rw [hget, if_neg hrootfsKernel, if_pos rfl]
  · rw [hget, if_pos rfl]

/-- **The images**, up to `saveenv`. -/
lemma surely_installImages (py : PyChars) (hfits : cfg.Fits) (hcheck : cfg.checkImages = .ok ())
    (hraw : (cfg.nand && isUbiImage cfg.rootfsData) = false) (hencodable : cfg.Encodable)
    (huboot : cfg.Served "u-boot.bin".toList cfg.ubootData)
    (hkernel : cfg.Served cfg.kernelName cfg.kernelData)
    (hrootfs : cfg.Served cfg.rootfsName cfg.rootfsData) :
    Surely cfg.Works (fun _ => True) (cfg.installImages py) fun _ d => cfg.Flashed d := by
  have hs := cfg.layout_sound
  have hzero := hs.boot_off
  have hkoff := hs.kernel_off
  have hroff := hs.rootfs_off
  have hboot : cfg.ubootData.length = cfg.layout.boot.size := length_padFf hfits.uboot
  have hset : ∀ {name value}, AsciiText name → (cfg.console = .download → AsciiText value) →
      Surely cfg.Works (fun _ => True) (sendInstall cfg.console (.setenv name value))
        fun _ _ => True := fun hname hvalue => Surely.of_returning (returning_setenv hname hvalue)
  have hraw' : cfg.flashRootfs = cfg.tftpAndFlash .rootfs cfg.rootfsName cfg.rootfsData
      cfg.layout.rootfs.off cfg.layout.rootfs.size := by
    rw [flashRootfs, hraw, if_neg Bool.false_ne_true]
  have hkeepBoot : ∀ {image name data off size}, eraseBlock cfg.nand ∣ off →
      eraseBlock cfg.nand ∣ size → data.length ≤ size → cfg.layout.boot.size ≤ off →
      Writing (fun e => ∀ d d', cfg.Works d e d' → d.Stores cfg.layout.boot.off cfg.ubootData →
        d'.Stores cfg.layout.boot.off cfg.ubootData)
        (cfg.tftpAndFlash image name data off size) := by
    intro image name data off size hoff hdvd hle hafter
    refine writing_keeps_stores (spares_before hoff hdvd hle (fun _ _ _ => rfl) ?_)
    rwa [hzero, hboot, Nat.zero_add]
  have hkeepKernel : Writing (fun e => ∀ d d', cfg.Works d e d' →
      d.Stores cfg.layout.kernel.off cfg.kernelData →
        d'.Stores cfg.layout.kernel.off cfg.kernelData)
      (cfg.tftpAndFlash .rootfs cfg.rootfsName cfg.rootfsData cfg.layout.rootfs.off
        cfg.layout.rootfs.size) := by
    refine writing_keeps_stores (spares_before cfg.rootfs_off_dvd hs.rootfs_dvd
      hfits.rootfs (fun _ _ _ => rfl) ?_)
    rw [hroff]
    exact Nat.add_le_add_left hfits.kernel _
  have hfirst : Surely cfg.Works (fun _ => True)
      (cfg.tftpAndFlash .uboot "u-boot.bin".toList cfg.ubootData cfg.layout.boot.off
        cfg.ubootFlashSize) fun _ d => True ∧ d.Stores cfg.layout.boot.off cfg.ubootData :=
    (surely_tftpAndFlash .uboot huboot fun _ => True).mono (fun _ hd => hd) fun _ _ hd => ⟨trivial, hd⟩
  have hsecond := (surely_tftpAndFlash .kernel hkernel fun _ => True).keep
    (hkeepBoot cfg.kernel_off_dvd hs.kernel_dvd hfits.kernel (by omega))
  have hthird := (surely_tftpAndFlash .rootfs hrootfs fun _ => True).keep
    (R := fun d => d.Stores cfg.layout.kernel.off cfg.kernelData ∧
      d.Stores cfg.layout.boot.off cfg.ubootData) fun script e he d d' hstep hd =>
        ⟨hkeepKernel script e he d d' hstep hd.1,
          hkeepBoot cfg.rootfs_off_dvd hs.rootfs_dvd hfits.rootfs (by omega) script e he d d' hstep
            hd.2⟩
  have hlast : Surely cfg.Works (fun d => d.Stores cfg.layout.kernel.off cfg.kernelData ∧
      d.Stores cfg.layout.boot.off cfg.ubootData)
      (cfg.tftpAndFlash .rootfs cfg.rootfsName cfg.rootfsData cfg.layout.rootfs.off
        cfg.layout.rootfs.size) fun _ d => cfg.Flashed d :=
    hthird.mono (fun d hd => ⟨trivial, hd⟩) fun _ _ hd => ⟨hd.2.2, hd.2.1, hd.1⟩
  rw [installImages, hraw']
  refine Surely.lift_bind hcheck ?_
  refine surely_probeFlash.bind fun _ => (hset (by decide) fun hd => hencodable hd _ (by simp)).bind
    fun _ => (hset (by decide) fun hd => hencodable hd _ (by simp)).bind fun _ =>
    hfirst.bind fun _ => hsecond.bind fun _ => hlast.bind fun _ => ?_
  exact (surely_flashed hfits returning_bootEnvironment fun x _ =>
    writing_bootEnvironment fun _ h => spares_of_isQuiet h).bind fun _ =>
    surely_flashed hfits returning_rescueEthaddr fun _ _ => writing_spares_rescueEthaddr

/-- The texts of a configuration can be sent, and the names are those of a tarball. -/
structure Ready (cfg : InstallConfig) : Prop where
  check : cfg.checkImages = .ok ()
  raw : (cfg.nand && isUbiImage cfg.rootfsData) = false
  encodable : cfg.Encodable
  kernel : "uImage".toList <+: cfg.kernelName
  rootfs : "rootfs.".toList <+: cfg.rootfsName

lemma surely_install (h : cfg.Ready) :
    Surely cfg.Works (fun _ => True) (cfg.install py) fun _ d => cfg.Flashed d := by
  have hfits := fits_of_checkImages h.check
  obtain ⟨huboot, hkernel, hrootfs⟩ := served h.encodable h.kernel h.rootfs
  have himages := surely_installImages py hfits h.check h.raw h.encodable huboot hkernel hrootfs
  have hsave : Surely cfg.Works cfg.Flashed (sendInstall cfg.console .saveenv)
      fun _ d => cfg.Flashed d :=
    surely_flashed hfits (returning_send (sendable_of_args rfl)) fun x hx =>
      writing_send fun r _ _ hstep => hstep x hx
  have hreset : Surely cfg.Works cfg.Flashed (sendInstall cfg.console .reset)
      fun _ d => cfg.Flashed d :=
    surely_flashed hfits (returning_send (sendable_of_args rfl)) fun x _ =>
      writing_send (spares_of_isQuiet trivial)
  rw [install]
  exact himages.bind fun _ => hsave.bind fun _ => hreset.bind fun _ => Surely.pure fun _ hd => hd

end InstallConfig

open InstallConfig

/-- **A camera that works is installed**: against a camera that does what it is told, an installation
of raw images that fit reports success, and each of them is in its partition, byte for byte. -/
theorem install_succeeds (py : PyChars) {cfg : InstallConfig} (hready : cfg.Ready)
    (script : List (Reading Response)) {d d' : Device}
    (hpath : Path cfg.Works d (written (cfg.install py script).trace) d') :
    (cfg.install py script).result = .ok () ∧ cfg.Flashed d' := by
  obtain ⟨u, hresult, hflashed⟩ := surely_install hready script d d' trivial hpath
  exact ⟨hresult, hflashed⟩

lemma sampleInstall_ready : sampleInstall.Ready :=
  ⟨rfl, rfl, fun h => absurd h (by decide), by decide, by decide⟩

/-- The camera of the model works, so that there is a run against one that does. -/
lemma exists_sample_run :
    ∃ script c', Path (Reacts (Camera.answer sampleInstall.tftpFiles)) sampleCamera
        (written (sampleInstall.install .ascii script).trace) c' ∧
      Path sampleInstall.Works sampleCamera.device
        (written (sampleInstall.install .ascii script).trace) c'.device := by
  obtain ⟨script, c', hpath⟩ := (answerable_install .ascii sampleInstall
    (Camera.answer sampleInstall.tftpFiles)).exists_run sampleCamera
  exact ⟨script, c', hpath, hpath.map Camera.device (I := fun _ => True) (fun _ _ _ _ _ _ => trivial)
    (fun _ _ _ _ _ hstep => Camera.workingStep sampleInstall.layout hstep) trivial⟩

/-- The sample is installed on the camera of the model. -/
theorem install_succeeds_sample :
    ∃ script c', Path (Reacts (Camera.answer sampleInstall.tftpFiles)) sampleCamera
        (written (sampleInstall.install .ascii script).trace) c' ∧
      (sampleInstall.install .ascii script).result = .ok () ∧ sampleInstall.Flashed c'.device := by
  obtain ⟨script, c', hpath, hworks⟩ := exists_sample_run
  obtain ⟨hresult, hflashed⟩ := install_succeeds .ascii sampleInstall_ready script hworks
  exact ⟨script, c', hpath, hresult, hflashed⟩

end Defib
