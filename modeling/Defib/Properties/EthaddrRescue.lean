import Defib.Properties.InstallSuccess

/-!
# The address that an installation saves

`install_ethaddr`: in every run that reports success the environment that is saved has an address
that belongs to the camera.  One that was there stays.
-/

namespace Defib

open Scripted

/-! ## The environment of an installation -/

/-- What commands do with the address in the environment. -/
def EthaddrStep (e : Option Text) : InstallExchange → Option Text → Prop
  | (.setenv name value, _), e' => e' = if name = "ethaddr".toList then some value else e
  | (.printenvEthaddr, r), e' => e' = e ∧ ShowsVar "ethaddr".toList r.out e
  | _, e' => e' = e

/-- The address, if a line can show it. -/
def Showable (e : Option Text) : Prop := ∀ v ∈ e, OnLine v

/-- The address of a camera is its own: if it had one, it keeps it, and else it gets a new one. -/
structure Rescued (py : PyChars) (token : TokenBytes) (before after : Option Text) : Prop where
  own : isUnsetOrDefaultEthaddr py after = false
  kept : isUnsetOrDefaultEthaddr py before = false → after = before
  made : isUnsetOrDefaultEthaddr py before = true →
    after = some (generateLocallyAdministeredMac token)

lemma isUnsetOrDefaultEthaddr_strip (py : PyChars) (e : Option Text) :
    isUnsetOrDefaultEthaddr py (e.map py.strip) = isUnsetOrDefaultEthaddr py e := by
  cases e with
  | none => rfl
  | some value =>
      rw [Option.map_some, isUnsetOrDefaultEthaddr, isUnsetOrDefaultEthaddr, py.strip_strip]

namespace InstallConfig

variable {py : PyChars} {cfg : InstallConfig} {e₀ : Option Text}

/-- This does not change the address. -/
def KeepsEthaddr (e₀ : Option Text) (x : InstallExchange) : Prop :=
  ∀ e e', EthaddrStep e x e' → e = e₀ → e' = e₀

lemma keepsEthaddr_of_ne {cmd : InstallCmd}
    (h : ∀ name value, cmd = .setenv name value → name ≠ "ethaddr".toList) (r : Response) :
    KeepsEthaddr e₀ (cmd, r) := by
  rintro e e' hstep rfl
  cases cmd with
  | setenv name value => exact hstep.trans (if_neg (h name value rfl))
  | printenvEthaddr => exact hstep.1
  | _ => exact hstep

lemma keepsEthaddr_of_isQuiet (cmd : InstallCmd) (h : IsQuiet cmd) (r : Response) :
    KeepsEthaddr e₀ (cmd, r) :=
  keepsEthaddr_of_ne (fun _ _ hcmd => by rw [hcmd] at h; exact h) r

lemma keepsEthaddr_of_isFlash (cmd : InstallCmd) (h : IsFlash cmd) (r : Response) :
    KeepsEthaddr e₀ (cmd, r) :=
  keepsEthaddr_of_ne (fun _ _ hcmd => by rw [hcmd] at h; exact h.elim) r

/-- **The address is read, and made where there is none.** -/
lemma triple_rescueEthaddr (hshow : Showable e₀) :
    Triple EthaddrStep (fun e => e = e₀) (cfg.rescueEthaddr py)
      fun _ e => Rescued py cfg.token e₀ e := by
  have hread : Triple EthaddrStep (fun e => e = e₀) (sendInstall cfg.console .printenvEthaddr)
      fun out e => e = e₀ ∧
        parsePrintenvValue py out "ethaddr".toList = e₀.map py.strip := by
    refine triple_send ?_
    rintro r e e' rfl ⟨rfl, hshows⟩
    refine ⟨rfl, parsePrintenvValue_of_shows (by decide) (fun c hc => ?_) hshow hshows⟩
    obtain rfl : 'e' = c := Option.some.inj hc
    rw [py.isSpace_ascii _ (by decide)]
    rfl
  rw [rescueEthaddr]
  refine hread.bind fun out => Triple.of_and fun hparse => ?_
  rw [hparse, isUnsetOrDefaultEthaddr_strip]
  refine Triple.ite (fun hunset => ?_) fun hset => Triple.pure ?_
  · have hmake : Triple EthaddrStep (fun e => e = e₀)
        (sendInstall cfg.console
          (.setenv "ethaddr".toList (generateLocallyAdministeredMac cfg.token)))
        fun _ e => e = some (generateLocallyAdministeredMac cfg.token) :=
      triple_send fun r e e' _ hstep => hstep.trans (if_pos rfl)
    refine hmake.bind fun _ => Triple.pure ?_
    rintro e rfl
    exact ⟨not_isUnsetOrDefault_generate py cfg.token, fun h => absurd h (by rw [hunset]; decide),
      fun _ => rfl⟩
  · rintro e rfl
    exact ⟨eq_false_of_ne_true hset, fun _ => rfl, fun h => absurd h hset⟩

end InstallConfig

open InstallConfig

/-- **The address that is saved**: an installation that reports success leaves in the environment an
address that is well formed and not the default: the one that was there, if it was such, and else one
that was made of the random bytes. -/
theorem install_ethaddr {py : PyChars} {cfg : InstallConfig}
    {t : List (Event InstallExchange Response Empty)} (hrun : Yields (cfg.install py) () t)
    {e e' : Option Text} (hshow : Showable e) (hpath : Path EthaddrStep e (written t) e') :
    Rescued py cfg.token e e' := by
  have hquiet : ∀ cmd, IsQuiet cmd → ∀ r, KeepsEthaddr e (cmd, r) := keepsEthaddr_of_isQuiet
  have hflash : ∀ cmd, IsFlash cmd → ∀ r, KeepsEthaddr e (cmd, r) := keepsEthaddr_of_isFlash
  have hkeep : ∀ {α : Type} {p : Install α}, Writing (KeepsEthaddr e) p →
      Triple EthaddrStep (fun e₁ => e₁ = e) p fun _ e₁ => e₁ = e := Triple.of_writing
  have hcommands : ∀ {image name data off size},
      Triple EthaddrStep (fun e₁ => e₁ = e) (cfg.tftpAndFlash image name data off size)
        fun _ e₁ => e₁ = e := hkeep (writing_image hquiet hflash)
  have himages : Triple EthaddrStep (fun e₁ => e₁ = e) (cfg.installImages py)
      fun _ e₁ => Rescued py cfg.token e e₁ := by
    rw [installImages]
    exact Triple.lift_bind fun _ _ => (hkeep (writing_probeFlash hquiet)).bind fun _ =>
      (hkeep (writing_send (hquiet _ (isQuiet_setenv (by decide))))).bind fun _ =>
      (hkeep (writing_send (hquiet _ (isQuiet_setenv (by decide))))).bind fun _ =>
      hcommands.bind fun _ => hcommands.bind fun _ =>
      (hkeep (writing_flashRootfs hquiet hflash)).bind fun _ =>
      (hkeep (writing_bootEnvironment hquiet)).bind fun _ => triple_rescueEthaddr hshow
  have hend : ∀ cmd : InstallCmd, (cmd = .saveenv ∨ cmd = .reset) →
      Triple EthaddrStep (fun e₁ => Rescued py cfg.token e e₁) (sendInstall cfg.console cmd)
        fun _ e₁ => Rescued py cfg.token e e₁ := by
    rintro cmd (rfl | rfl)
    · exact triple_send fun _ _ _ h hstep => hstep ▸ h
    · exact triple_send fun _ _ _ h hstep => hstep ▸ h
  have hall : Triple EthaddrStep (fun e₁ => e₁ = e) (cfg.install py)
      fun _ e₁ => Rescued py cfg.token e e₁ := by
    rw [install]
    exact himages.bind fun _ => (hend .saveenv (.inl rfl)).bind fun _ =>
      (hend .reset (.inr rfl)).bind fun _ => Triple.pure fun _ h => h
  exact hall () t e e' hrun rfl hpath

/-! ## A camera that shows its address -/

/-- An address that is set is ASCII. -/
def SetsAscii (e : InstallExchange) : Prop :=
  ∀ mac, e.1 = .setenv "ethaddr".toList mac → AsciiText mac

lemma writing_setsAscii_install {py : PyChars} {cfg : InstallConfig} :
    Writing SetsAscii (cfg.install py) := by
  have hmac : AsciiText (generateLocallyAdministeredMac cfg.token) :=
    forall_mem_macText (by decide) (by decide) _
  have himages : Writing SetsAscii (cfg.installImages py) := by
    refine writing_installImages ?_ ?_ ?_
    · rintro cmd h r mac rfl
      exact absurd rfl h
    · rintro cmd h r mac rfl
      exact h.elim
    · rintro r mac heq
      obtain ⟨-, rfl⟩ := InstallCmd.setenv.inj heq
      exact hmac
  rw [install]
  exact himages.bind fun _ => writing_send_bind (fun _ _ => InstallCmd.noConfusion) fun _ =>
    writing_send_bind (fun _ _ => InstallCmd.noConfusion) fun _ => .pure _

/-- What is printed shows an address that is ASCII. -/
lemma showsVar_showEthaddr {e : Option Text} (h : ∀ mac ∈ e, AsciiText mac) :
    ShowsVar "ethaddr".toList (Camera.prints (Camera.showEthaddr e)).out e := by
  cases e with
  | none =>
      have hout : (Camera.prints (Camera.showEthaddr none)).out = Camera.showEthaddr none :=
        out_prints (by decide)
      rw [ShowsVar, hout]
      decide
  | some mac =>
      have hname : AsciiText "ethaddr".toList := by decide
      have heq : AsciiText ['='] := by decide
      have heol : AsciiText ['\r', '\n'] := by decide
      have hout := out_prints
        (asciiText_append (asciiText_append hname heq) (asciiText_append (h mac rfl) heol))
      have hfront : ¬ ("ethaddr".toList ++ ['=']) <:+: [] := by decide
      refine ⟨[], ['\r', '\n'], [], hfront, .inl rfl, .inr rfl, hout.trans ?_⟩
      rw [List.append_nil, List.nil_append]

lemma Camera.ethaddr_of_download {files : Dict Text (List UInt8)} {c c' : Camera} {addr : ℕ}
    {name : Text} {r : Response} (h : Camera.answer files c (.tftp addr name) = (r, c')) :
    c'.ethaddr = c.ethaddr := by
  rw [Camera.answer] at h
  cases hfile : files.get? name with
  | some data =>
      rw [hfile] at h
      obtain ⟨-, rfl⟩ := Prod.mk.inj h
      rfl
  | none =>
      rw [hfile] at h
      obtain ⟨-, rfl⟩ := Prod.mk.inj h
      rfl

lemma Camera.ethaddrStep {files : Dict Text (List UInt8)} {c c' : Camera} {e : InstallExchange}
    (hascii : ∀ mac ∈ c.ethaddr, AsciiText mac) (h : Reacts (Camera.answer files) c e c') :
    EthaddrStep c.ethaddr e c'.ethaddr := by
  obtain ⟨cmd, r⟩ := e
  cases cmd with
  | setenv name value =>
      obtain ⟨rfl, rfl⟩ := Prod.mk.inj h
      show Camera.ethaddr (if _ then _ else _) = _
      rw [apply_ite Camera.ethaddr]
  | printenvEthaddr =>
      obtain ⟨rfl, rfl⟩ := Prod.mk.inj h
      exact ⟨rfl, showsVar_showEthaddr hascii⟩
  | tftpboot addr name => exact Camera.ethaddr_of_download h
  | tftp addr name => exact Camera.ethaddr_of_download h
  | _ =>
      obtain ⟨rfl, rfl⟩ := Prod.mk.inj h
      rfl

/-- The camera of the sample has the address of the images, and gets one of its own. -/
theorem install_ethaddr_sample :
    ∃ script c', Path (Reacts (Camera.answer sampleInstall.tftpFiles)) sampleCamera
        (written (sampleInstall.install .ascii script).trace) c' ∧
      c'.ethaddr = some (generateLocallyAdministeredMac sampleInstall.token) := by
  obtain ⟨script, c', hpath, hworks⟩ := exists_sample_run
  obtain ⟨u, hresult, -⟩ := surely_install sampleInstall_ready script _ _ trivial hworks
  have hascii : ∀ mac ∈ sampleCamera.ethaddr, AsciiText mac := by
    rintro mac hmac
    obtain rfl : openipcDefaultEthaddr = mac := Option.some.inj hmac
    decide
  have hset : ∀ e ∈ written (sampleInstall.install .ascii script).trace, ∀ c₁ c₂,
      (∀ mac ∈ c₁.ethaddr, AsciiText mac) → Reacts (Camera.answer sampleInstall.tftpFiles) c₁ e c₂ →
        ∀ mac ∈ c₂.ethaddr, AsciiText mac := by
    intro e he c₁ c₂ hc hstep mac hmac
    have hsets := writing_setsAscii_install script e (mem_written.mp he)
    have hafter := Camera.ethaddrStep hc hstep
    obtain ⟨cmd, r⟩ := e
    cases cmd with
    | setenv name value =>
        rw [show c₂.ethaddr = _ from hafter] at hmac
        split_ifs at hmac with hname
        · obtain rfl : value = mac := Option.some.inj hmac
          exact hsets value (by rw [hname])
        · exact hc mac hmac
    | printenvEthaddr =>
        rw [show c₂.ethaddr = _ from hafter.1] at hmac
        exact hc mac hmac
    | _ =>
        rw [show c₂.ethaddr = _ from hafter] at hmac
        exact hc mac hmac
  have hethaddr : Path EthaddrStep sampleCamera.ethaddr
      (written (sampleInstall.install .ascii script).trace) c'.ethaddr :=
    hpath.map Camera.ethaddr hset (fun _ _ _ _ hc hstep => Camera.ethaddrStep hc hstep) hascii
  have hshow : Showable sampleCamera.ethaddr := by
    rintro mac hmac
    obtain rfl : openipcDefaultEthaddr = mac := Option.some.inj hmac
    exact ⟨by decide, by decide⟩
  have hrescued := install_ethaddr (yields_of_result hresult) hshow hethaddr
  exact ⟨script, c', hpath, hrescued.made (by decide)⟩

end Defib
