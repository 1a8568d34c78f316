import Defib.Properties.RestoreDialogue

/-!
# When a reported success is one

A restore that gets to its end reports success.  `Restored` says of a turn that its partition was
downloaded, that the commands that write it were sent, and that no answer to them is an error, for
any notion of error.

`restore_success_iff` says when the report is right: when every answer of the run suffices
(`GoodAnswer`), the flash is one of the three kinds, and the layout lists the UBI partitions.
`turn_restored_iff` is the step, and `turns_restored_iff` the run.
-/

namespace Defib

open Scripted

/-! ## What is asked of a turn -/

namespace UbootCmd

/-- A command that downloads this file. -/
def isTftpOf (name : Text) : UbootCmd → Bool
  | tftpboot _ name' | tftp _ name' => name' = name
  | _ => false

/-- A command that erases flash. -/
def isErase : UbootCmd → Bool
  | nandErase _ _ | sfErase _ _ | mmcErase _ _ => true
  | _ => false

/-- A command that writes a raw image. -/
def isRawWrite : UbootCmd → Bool
  | nandWrite _ _ _ | sfWrite _ _ _ | mmcWrite _ _ _ => true
  | _ => false

/-- A command that writes a UBI volume, or prepares it. -/
def isUbi : UbootCmd → Bool
  | ubiPart _ | ubiCreate _ | ubiWrite _ _ _ => true
  | _ => false

/-- A command that changes the flash. -/
def isFlashCmd (cmd : UbootCmd) : Bool := cmd.isErase || cmd.isRawWrite || cmd.isUbi

end UbootCmd

/-- The commands that put a partition on the flash: erase and write, or those for a UBI volume. -/
def Issues (cmds : List UbootCmd) : Prop :=
  ((∃ cmd ∈ cmds, cmd.isErase = true) ∧ ∃ cmd ∈ cmds, cmd.isRawWrite = true) ∨
    ((∃ name, .ubiPart name ∈ cmds) ∧ (∃ name, .ubiCreate name ∈ cmds) ∧
      ∃ addr name size, .ubiWrite addr name size ∈ cmds)

/-- The partition of this name is on the flash: it was downloaded, its commands were sent, and none
of their answers is an error. -/
structure Restored (err : Response → Prop) (name : Text) (xs : List Exchange) : Prop where
  downloaded : ∃ x, (xs.filter fun x => x.1.isTftpOf name).getLast? = some x ∧
    tftpOk x.2.out = true
  issued : Issues (xs.map Prod.fst)
  accepted : ∀ x ∈ xs, x.1.isFlashCmd = true → ¬ err x.2

/-- An answer with which the restore of a partition goes on and is right. -/
def GoodAnswer (py : PyChars) (err : Response → Prop) : Exchange → Prop
  | (.tftpboot _ _, r) => unknownCommand r.out = true ∨ tftpOk r.out = true
  | (.tftp _ _, r) => tftpOk r.out = true
  | (.printenvMtdparts, r) => bootargsLayout py r.out ≠ none
  | (cmd, r) => cmd.isFlashCmd = true → ¬ err r

section

variable {py : PyChars} {err : Response → Prop}

lemma goodAnswer_of_isPlain {x : Exchange} (h : x.1.isPlain = true) : GoodAnswer py err x := by
  obtain ⟨cmd, r⟩ := x
  cases cmd <;> first
    | exact absurd h Bool.false_ne_true
    | exact fun hflash => absurd hflash Bool.false_ne_true

/-! ## Downloads -/

/-- The exchanges of a download are TFTP, and the last one says whether the file is there. -/
lemma DownloadDialogue.getLast? {name : Text} {xs : List Exchange} {ok : Bool}
    (h : DownloadDialogue name xs ok) :
    (∀ x ∈ xs, x.1.isTftpOf name = true ∧ x.1.isFlashCmd = false) ∧
      ∃ x, xs.getLast? = some x ∧ tftpOk x.2.out = ok := by
  cases h with
  | tftpboot r _ =>
      refine ⟨fun x hx => ?_, _, rfl, rfl⟩
      obtain rfl := List.mem_singleton.mp hx
      exact ⟨decide_eq_true rfl, rfl⟩
  | tftp r r' _ =>
      refine ⟨fun x hx => ?_, _, rfl, rfl⟩
      simp only [List.mem_cons, List.not_mem_nil, or_false] at hx
      rcases hx with rfl | rfl
      · exact ⟨decide_eq_true rfl, rfl⟩
      · exact ⟨decide_eq_true rfl, rfl⟩

/-- Its answers are good when the file is there. -/
lemma DownloadDialogue.good_iff {name : Text} {xs : List Exchange} {ok : Bool}
    (h : DownloadDialogue name xs ok) : (∀ x ∈ xs, GoodAnswer py err x) ↔ ok = true := by
  cases h with
  | tftpboot r hknown =>
      rw [List.forall_mem_singleton]
      constructor
      · rintro (hunknown | hok)
        · rw [hknown] at hunknown
          cases hunknown
        · exact hok
      · exact .inr
  | tftp r r' hunknown =>
      rw [List.forall_mem_cons, List.forall_mem_singleton]
      exact ⟨fun hgood => hgood.2, fun hok => ⟨.inl hunknown, hok⟩⟩

/-- Without a TFTP command nothing is restored. -/
lemma not_restored_of_noTftp {name : Text} {xs : List Exchange}
    (h : ∀ x ∈ xs, x.1.isTftpOf name = false) : ¬ Restored err name xs := by
  rintro ⟨⟨x, hx, -⟩, -, -⟩
  rw [List.filter_eq_nil_iff.mpr fun x hx => by simp [h x hx]] at hx
  cases hx

/-- A failed download restores nothing. -/
lemma not_restored_of_skipped {name : Text} (us : List Exchange) {xs : List Exchange}
    (hus : ∀ x ∈ us, x.1.isTftpOf name = false) (h : DownloadDialogue name xs false) :
    ¬ Restored err name (us ++ xs) := by
  rintro ⟨⟨x, hx, hok⟩, -, -⟩
  obtain ⟨htftp, x', hlast, hx'⟩ := h.getLast?
  rw [List.filter_append, List.filter_eq_nil_iff.mpr fun x hx => by simp [hus x hx],
    List.filter_eq_self.mpr fun x hx => (htftp x hx).1, List.nil_append, hlast] at hx
  obtain rfl := Option.some.inj hx
  rw [hx'] at hok
  cases hok

/-- Behind a download that worked, the partition is restored when the commands that put it on the
flash are there and no answer to them is an error. -/
lemma restored_iff_of_written {name : Text} {us xs ys : List Exchange}
    (hus : ∀ x ∈ us, x.1.isTftpOf name = false ∧ x.1.isFlashCmd = false)
    (hxs : DownloadDialogue name xs true)
    (hys : ∀ y ∈ ys, y.1.isTftpOf name = false ∧ y.1.isFlashCmd = true) :
    Restored err name (us ++ (xs ++ ys)) ↔
      Issues ((us ++ (xs ++ ys)).map Prod.fst) ∧ ∀ y ∈ ys, ¬ err y.2 := by
  obtain ⟨htftp, x, hlast, hx⟩ := hxs.getLast?
  have hfilter : (us ++ (xs ++ ys)).filter (fun x => x.1.isTftpOf name) = xs := by
    rw [List.filter_append, List.filter_append,
      List.filter_eq_nil_iff.mpr fun x hx => by simp [(hus x hx).1],
      List.filter_eq_self.mpr fun x hx => (htftp x hx).1,
      List.filter_eq_nil_iff.mpr fun y hy => by simp [(hys y hy).1], List.nil_append,
      List.append_nil]
  constructor
  · rintro ⟨-, hissued, haccepted⟩
    refine ⟨hissued, fun y hy => haccepted y ?_ (hys y hy).2⟩
    exact List.mem_append_right _ (List.mem_append_right _ hy)
  · rintro ⟨hissued, haccepted⟩
    refine ⟨⟨x, by rw [hfilter]; exact hlast, hx⟩, hissued, fun z hz hflash => ?_⟩
    rcases List.mem_append.mp hz with hz | hz
    · rw [(hus z hz).2] at hflash
      cases hflash
    rcases List.mem_append.mp hz with hz | hz
    · rw [(htftp z hz).2] at hflash
      cases hflash
    · exact haccepted z hz

/-- The answers to commands that change the flash. -/
lemma goodAnswer_iff_of_isFlashCmd {y : Exchange} (h : y.1.isFlashCmd = true) :
    GoodAnswer py err y ↔ ¬ err y.2 := by
  obtain ⟨cmd, r⟩ := y
  cases cmd <;> first
    | exact absurd h Bool.false_ne_true
    | exact ⟨fun hgood => hgood h, fun herr _ => herr⟩

/-! ## Commands on the flash -/

lemma Issues.mono {cmds cmds' : List UbootCmd} (h : Issues cmds) (hsub : cmds ⊆ cmds') :
    Issues cmds' := by
  rcases h with ⟨⟨c, hc, herase⟩, c', hc', hwrite⟩ | ⟨⟨n, hn⟩, ⟨n', hn'⟩, a, n'', s, hn''⟩
  · exact .inl ⟨⟨c, hsub hc, herase⟩, c', hsub hc', hwrite⟩
  · exact .inr ⟨⟨n, hsub hn⟩, ⟨n', hsub hn'⟩, a, n'', s, hsub hn''⟩

lemma not_issues_of_noFlash {cmds : List UbootCmd} (h : ∀ cmd ∈ cmds, cmd.isFlashCmd = false) :
    ¬ Issues cmds := by
  rintro (⟨⟨c, hc, herase⟩, -⟩ | ⟨⟨n, hn⟩, -⟩)
  · have := h c hc
    rw [UbootCmd.isFlashCmd, herase] at this
    cases this
  · have hflash : true = false := h _ hn
    cases hflash

/-- The commands for a raw image. -/
lemma isFlashCmd_rawCmds {flash : FlashKind} {offset len : ℕ} (name : Text) :
    ∀ cmd ∈ rawCmds flash offset len, cmd.isTftpOf name = false ∧ cmd.isFlashCmd = true := by
  intro cmd hcmd
  cases flash <;> simp only [rawCmds, List.mem_cons, List.not_mem_nil, or_false] at hcmd
  all_goals rcases hcmd with rfl | rfl <;> exact ⟨rfl, rfl⟩

lemma issues_rawCmds {flash : FlashKind} (hflash : flash ≠ .other) (offset len : ℕ) :
    Issues (rawCmds flash offset len) := by
  cases flash with
  | nand =>
      exact .inl ⟨⟨_, List.mem_cons_self, rfl⟩, _, List.mem_cons_of_mem _ List.mem_cons_self, rfl⟩
  | nor =>
      exact .inl ⟨⟨_, List.mem_cons_self, rfl⟩, _, List.mem_cons_of_mem _ List.mem_cons_self, rfl⟩
  | emmc =>
      exact .inl ⟨⟨_, List.mem_cons_self, rfl⟩, _, List.mem_cons_of_mem _ List.mem_cons_self, rfl⟩
  | other => exact absurd rfl hflash

/-- The commands for a UBI volume. -/
lemma isFlashCmd_ubiCmds {realName : Text} {realOff realSz len : ℕ} (name : Text) :
    ∀ cmd ∈ ubiCmds realName realOff realSz len,
      cmd.isTftpOf name = false ∧ cmd.isFlashCmd = true := by
  intro cmd hcmd
  simp only [ubiCmds, List.mem_cons, List.not_mem_nil, or_false] at hcmd
  rcases hcmd with rfl | rfl | rfl | rfl <;> exact ⟨rfl, rfl⟩

lemma issues_ubiCmds (realName : Text) (realOff realSz len : ℕ) :
    Issues (ubiCmds realName realOff realSz len) :=
  .inr ⟨⟨realName, by simp [ubiCmds]⟩, ⟨realName, by simp [ubiCmds]⟩, ramAddr, realName, len,
    by simp [ubiCmds]⟩

lemma forall_of_map_fst {ys : List Exchange} {cmds : List UbootCmd} {q : UbootCmd → Prop}
    (h : ys.map Prod.fst = cmds) (hq : ∀ cmd ∈ cmds, q cmd) : ∀ y ∈ ys, q y.1 := by
  intro y hy
  exact hq y.1 (h ▸ List.mem_map_of_mem hy)

/-- A download that worked and the commands behind it. -/
lemma restored_iff_of_cmds {name : Text} (us : List Exchange) {xs ys : List Exchange}
    {cmds : List UbootCmd}
    (hus : ∀ x ∈ us, x.1.isTftpOf name = false ∧ x.1.isFlashCmd = false)
    (hgood : ∀ x ∈ us, GoodAnswer py err x) (hxs : DownloadDialogue name xs true)
    (hys : ys.map Prod.fst = cmds)
    (hcmds : ∀ cmd ∈ cmds, cmd.isTftpOf name = false ∧ cmd.isFlashCmd = true)
    (hissues : Issues cmds) :
    Restored err name (us ++ (xs ++ ys)) ↔ ∀ x ∈ us ++ (xs ++ ys), GoodAnswer py err x := by
  have hflash := forall_of_map_fst hys hcmds
  have hissued : Issues ((us ++ (xs ++ ys)).map Prod.fst) := by
    refine hissues.mono fun cmd hcmd => ?_
    rw [List.map_append, List.map_append, hys]
    exact List.mem_append_right _ (List.mem_append_right _ hcmd)
  rw [restored_iff_of_written hus hxs hflash, and_iff_right hissued]
  constructor
  · intro hok x hx
    rcases List.mem_append.mp hx with hx | hx
    · exact hgood x hx
    rcases List.mem_append.mp hx with hx | hx
    · exact hxs.good_iff.mpr rfl x hx
    · exact (goodAnswer_iff_of_isFlashCmd (hflash x hx).2).mpr (hok x hx)
  · intro hall y hy
    refine (goodAnswer_iff_of_isFlashCmd (hflash y hy).2).mp (hall y ?_)
    exact List.mem_append_right _ (List.mem_append_right _ hy)

/-! ## One turn -/

variable (py) in
/-- A raw partition is restored when the flash is known and all answers are good. -/
lemma RawDialogue.restored_iff {flash : FlashKind} {name : Text} {offset len : ℕ}
    {xs : List Exchange} (h : RawDialogue flash name offset len xs) :
    Restored err name xs ↔ flash ≠ .other ∧ ∀ x ∈ xs, GoodAnswer py err x := by
  cases h with
  | skipped hdownload =>
      refine iff_of_false (not_restored_of_skipped [] (by simp) hdownload) ?_
      rintro ⟨-, hgood⟩
      exact absurd (hdownload.good_iff.mp hgood) (by decide)
  | written hdownload hcmds =>
      rename_i xs ys
      by_cases hflash : flash = .other
      · subst hflash
        refine iff_of_false ?_ fun h => h.1 rfl
        rintro ⟨-, hissued, -⟩
        obtain rfl : ys = [] := List.map_eq_nil_iff.mp hcmds
        refine not_issues_of_noFlash (fun cmd hcmd => ?_) hissued
        rw [List.append_nil] at hcmd
        obtain ⟨x, hx, rfl⟩ := List.mem_map.mp hcmd
        exact (hdownload.getLast?.1 x hx).2
      · rw [and_iff_right hflash]
        exact restored_iff_of_cmds [] (by simp) (by simp) hdownload hcmds
          (isFlashCmd_rawCmds name) (issues_rawCmds hflash offset len)

/-- A UBI volume is restored when all answers are good. -/
lemma VolumeDialogue.restored_iff {name realName : Text} {realOff realSz len : ℕ}
    {us xs : List Exchange} (h : VolumeDialogue name realName realOff realSz len xs)
    (hus : ∀ x ∈ us, x.1.isTftpOf name = false ∧ x.1.isFlashCmd = false)
    (hgood : ∀ x ∈ us, GoodAnswer py err x) :
    Restored err name (us ++ xs) ↔ ∀ x ∈ us ++ xs, GoodAnswer py err x := by
  cases h with
  | skipped hdownload =>
      refine iff_of_false (not_restored_of_skipped _ (fun x hx => (hus x hx).1) hdownload) ?_
      intro hall
      have := hdownload.good_iff.mp fun x hx => hall x (List.mem_append_right _ hx)
      exact absurd this (by decide)
  | written hdownload hcmds =>
      exact restored_iff_of_cmds _ hus hgood hdownload hcmds (isFlashCmd_ubiCmds name)
        (issues_ubiCmds realName realOff realSz len)

/-! ## The layout -/

/-- A question for the layout. -/
def UbootCmd.isPrintenv : UbootCmd → Bool
  | printenvBootargs | printenvMtdparts => true
  | _ => false

/-- The first layout in an answer. -/
def layoutAnswers (py : PyChars) (xs : List Exchange) : Option Text :=
  xs.findSome? fun x => if x.1.isPrintenv then bootargsLayout py x.2.out else none

/-- The layout of a dialogue: the option, or the first in an answer. -/
def layoutOf (py : PyChars) (cfg : RestoreConfig) (xs : List Exchange) : Option Text :=
  if cfg.mtdparts.isEmpty then layoutAnswers py xs else some cfg.mtdparts

lemma layoutAnswers_append (xs ys : List Exchange) :
    layoutAnswers py (xs ++ ys) = (layoutAnswers py xs).or (layoutAnswers py ys) :=
  List.findSome?_append

lemma layoutAnswers_eq_none {xs : List Exchange} (h : ∀ x ∈ xs, x.1.isPrintenv = false) :
    layoutAnswers py xs = none := by
  rw [layoutAnswers, List.findSome?_eq_none_iff]
  intro x hx
  rw [h x hx]
  rfl

lemma isPrintenv_of_isPlain {cmd : UbootCmd} (h : cmd.isPlain = true) :
    cmd.isPrintenv = false := by
  cases cmd <;> first
    | exact absurd h Bool.false_ne_true
    | rfl

lemma isPrintenv_of_isTftpOf {cmd : UbootCmd} {name : Text} (h : cmd.isTftpOf name = true) :
    cmd.isPrintenv = false := by
  cases cmd <;> first
    | exact absurd h Bool.false_ne_true
    | rfl

lemma isPrintenv_of_isFlashCmd {cmd : UbootCmd} (h : cmd.isFlashCmd = true) :
    cmd.isPrintenv = false := by
  cases cmd <;> first
    | exact absurd h Bool.false_ne_true
    | rfl

lemma not_tftp_flash_of_isPlain {cmd : UbootCmd} {name : Text} (h : cmd.isPlain = true) :
    cmd.isTftpOf name = false ∧ cmd.isFlashCmd = false := by
  cases cmd <;> first
    | exact absurd h Bool.false_ne_true
    | exact ⟨rfl, rfl⟩

lemma DownloadDialogue.noPrintenv {name : Text} {xs : List Exchange} {ok : Bool}
    (h : DownloadDialogue name xs ok) : ∀ x ∈ xs, x.1.isPrintenv = false :=
  fun x hx => isPrintenv_of_isTftpOf (h.getLast?.1 x hx).1

lemma RawDialogue.noPrintenv {flash : FlashKind} {name : Text} {offset len : ℕ}
    {xs : List Exchange} (h : RawDialogue flash name offset len xs) :
    ∀ x ∈ xs, x.1.isPrintenv = false := by
  cases h with
  | skipped hdownload => exact hdownload.noPrintenv
  | written hdownload hcmds =>
      intro x hx
      rcases List.mem_append.mp hx with hx | hx
      · exact hdownload.noPrintenv x hx
      · exact isPrintenv_of_isFlashCmd (forall_of_map_fst hcmds (isFlashCmd_rawCmds name) x hx).2

lemma VolumeDialogue.noPrintenv {name realName : Text} {realOff realSz len : ℕ}
    {xs : List Exchange} (h : VolumeDialogue name realName realOff realSz len xs) :
    ∀ x ∈ xs, x.1.isPrintenv = false := by
  cases h with
  | skipped hdownload => exact hdownload.noPrintenv
  | written hdownload hcmds =>
      intro x hx
      rcases List.mem_append.mp hx with hx | hx
      · exact hdownload.noPrintenv x hx
      · exact isPrintenv_of_isFlashCmd (forall_of_map_fst hcmds (isFlashCmd_ubiCmds name) x hx).2

variable {cfg : RestoreConfig}

variable (err) in
/-- What the search for the layout finds, and when its answers are good. -/
lemma LayoutDialogue.spec {xs : List Exchange} {layout? : Option Text}
    (h : LayoutDialogue py cfg xs layout?) (name : Text) :
    layoutOf py cfg xs = layout? ∧ ((∀ x ∈ xs, GoodAnswer py err x) ↔ layout? ≠ none) ∧
      ∀ x ∈ xs, x.1.isTftpOf name = false ∧ x.1.isFlashCmd = false := by
  cases h with
  | option hgiven =>
      refine ⟨if_neg (by simpa using hgiven), ⟨fun _ => Option.some_ne_none _, fun _ => ?_⟩, ?_⟩
      · exact fun x hx => absurd hx List.not_mem_nil
      · exact fun x hx => absurd hx List.not_mem_nil
  | bootargs hempty r hlayout =>
      refine ⟨?_, ⟨fun _ => Option.some_ne_none _, fun _ x hx => ?_⟩, fun x hx => ?_⟩
      · rw [layoutOf, if_pos (by simpa using hempty), ← hlayout]
        simp [layoutAnswers, UbootCmd.isPrintenv]
      · obtain rfl := List.mem_singleton.mp hx
        exact fun hflash => absurd hflash Bool.false_ne_true
      · obtain rfl := List.mem_singleton.mp hx
        exact ⟨rfl, rfl⟩
  | environment hempty r r' hbootargs =>
      refine ⟨?_, ⟨fun hgood => ?_, fun hne x hx => ?_⟩, fun x hx => ?_⟩
      · rw [layoutOf, if_pos (by simpa using hempty)]
        simp [layoutAnswers, UbootCmd.isPrintenv, hbootargs]
      · exact hgood (.printenvMtdparts, r') (by simp)
      · simp only [List.mem_cons, List.not_mem_nil, or_false] at hx
        rcases hx with rfl | rfl
        · exact fun hflash => absurd hflash Bool.false_ne_true
        · exact hne
      · simp only [List.mem_cons, List.not_mem_nil, or_false] at hx
        rcases hx with rfl | rfl <;> exact ⟨rfl, rfl⟩

variable (err) in
/-- What the loading of the layout comes to, and when its answers are good. -/
lemma LoadDialogue.spec {xs : List Exchange} {partmap? : Option Partmap}
    (h : LoadDialogue py cfg xs partmap?) (name : Text) :
    (partmap? = none → layoutOf py cfg xs = none) ∧
      (∀ partmap, partmap? = some partmap →
        ∃ layout, layoutOf py cfg xs = some layout ∧ ubiPartmap py layout = .ok partmap) ∧
      ((∀ x ∈ xs, GoodAnswer py err x) ↔ partmap? ≠ none) ∧
      ∀ x ∈ xs, x.1.isTftpOf name = false ∧ x.1.isFlashCmd = false := by
  cases h with
  | noLayout hlayout =>
      obtain ⟨hof, hgood, hother⟩ := hlayout.spec err name
      refine ⟨fun _ => hof, fun _ h => absurd h.symm (Option.some_ne_none _),
        ⟨fun h => ?_, fun h => absurd rfl h⟩, hother⟩
      exact absurd rfl (hgood.mp h)
  | loaded hlayout hplain hparsed =>
      rename_i xs ys layout partmap
      obtain ⟨hof, hgood, hother⟩ := hlayout.spec err name
      have hof' : layoutOf py cfg (xs ++ ys) = some layout := by
        rw [← hof, layoutOf, layoutOf, layoutAnswers_append,
          layoutAnswers_eq_none fun y hy => isPrintenv_of_isPlain (hplain y hy), Option.or_none]
      refine ⟨fun h => absurd h (Option.some_ne_none _), ?_,
        ⟨fun _ => Option.some_ne_none _, fun _ x hx => ?_⟩, fun x hx => ?_⟩
      · intro partmap' heq
        obtain rfl := Option.some.inj heq
        exact ⟨layout, hof', hparsed⟩
      · rcases List.mem_append.mp hx with hx | hx
        · exact hgood.mpr (Option.some_ne_none _) x hx
        · exact goodAnswer_of_isPlain (hplain x hx)
      · rcases List.mem_append.mp hx with hx | hx
        · exact hother x hx
        · exact not_tftp_flash_of_isPlain (hplain x hx)

/-! ## One turn, and the run -/

/-- What is known of the layout behind a stretch of the dialogue. -/
structure LayoutKnown (py : PyChars) (cfg : RestoreConfig) (partmap? : Option Partmap)
    (xs : List Exchange) : Prop where
  unknown : partmap? = none → layoutAnswers py xs = none
  known : ∀ partmap, partmap? = some partmap →
    ∃ layout, layoutOf py cfg xs = some layout ∧ ubiPartmap py layout = .ok partmap

lemma layoutOf_append {xs : List Exchange} {layout : Text}
    (h : layoutOf py cfg xs = some layout) (ys : List Exchange) :
    layoutOf py cfg (xs ++ ys) = some layout := by
  rw [layoutOf] at h ⊢
  split at h
  · rename_i hempty
    rw [if_pos hempty, layoutAnswers_append, h]
    rfl
  · rename_i hgiven
    rw [if_neg hgiven, h]

/-- Talk without a question for the layout changes nothing. -/
lemma LayoutKnown.append {partmap? : Option Partmap} {xs ys : List Exchange}
    (h : LayoutKnown py cfg partmap? xs) (hys : ∀ y ∈ ys, y.1.isPrintenv = false) :
    LayoutKnown py cfg partmap? (xs ++ ys) := by
  refine ⟨fun hnone => ?_, fun partmap hsome => ?_⟩
  · rw [layoutAnswers_append, h.unknown hnone, layoutAnswers_eq_none hys]
    rfl
  · obtain ⟨layout, hof, hparsed⟩ := h.known partmap hsome
    exact ⟨layout, layoutOf_append hof ys, hparsed⟩

/-- The layout behind its loading. -/
lemma LayoutKnown.load {partmap? : Option Partmap} {xs ys : List Exchange}
    (h : LayoutKnown py cfg none xs) (hload : LoadDialogue py cfg ys partmap?) :
    LayoutKnown py cfg partmap? (xs ++ ys) := by
  obtain ⟨hnone, hsome, -, -⟩ := hload.spec (fun _ => False) []
  have hanswers : layoutAnswers py (xs ++ ys) = layoutAnswers py ys := by
    rw [layoutAnswers_append, h.unknown rfl]
    rfl
  have hof : layoutOf py cfg (xs ++ ys) = layoutOf py cfg ys := by
    rw [layoutOf, layoutOf, hanswers]
  refine ⟨fun hpartmap => ?_, fun partmap hpartmap => ?_⟩
  · have hnone := hnone hpartmap
    rw [layoutOf] at hnone
    split at hnone
    · rw [hanswers, hnone]
    · cases hnone
  · rw [hof]
    exact hsome partmap hpartmap

variable (err) in
/-- The turn of a UBI partition: when it is restored, and what is known of the layout then. -/
lemma UbiDialogue.spec {idx : ℕ} {name : Text} {len : ℕ} {partmap? partmap?' : Option Partmap}
    {xs : List Exchange} (h : UbiDialogue py cfg idx name len partmap? partmap?' xs) :
    (Restored err name xs ↔ (∀ x ∈ xs, GoodAnswer py err x) ∧
      ∃ partmap, partmap?' = some partmap ∧ partmap.get? idx ≠ none) ∧
    ((∀ x ∈ xs, GoodAnswer py err x) → partmap?' ≠ none) ∧
    ∀ ys, LayoutKnown py cfg partmap? ys → LayoutKnown py cfg partmap?' (ys ++ xs) := by
  cases h with
  | noLayout hload =>
      obtain ⟨-, -, hgood, hother⟩ := hload.spec err name
      refine ⟨iff_of_false (not_restored_of_noTftp fun x hx => (hother x hx).1) ?_, hgood.mp,
        fun ys hys => hys.load hload⟩
      rintro ⟨-, partmap, hnone, -⟩
      cases hnone
  | unlisted hload hunlisted =>
      rename_i partmap
      have hknown : ∀ ys, LayoutKnown py cfg partmap? ys →
          LayoutKnown py cfg (some partmap) (ys ++ xs) := by
        intro ys hys
        rcases hload with ⟨rfl, rfl⟩ | ⟨rfl, hload⟩
        · exact hys.append fun x hx => absurd hx List.not_mem_nil
        · exact hys.load hload
      refine ⟨iff_of_false (not_restored_of_noTftp fun x hx => ?_) ?_,
        fun _ => Option.some_ne_none _, hknown⟩
      · rcases hload with ⟨rfl, rfl⟩ | ⟨rfl, hload⟩
        · exact absurd hx List.not_mem_nil
        · exact ((hload.spec err name).2.2.2 x hx).1
      · rintro ⟨-, partmap', heq, hlisted⟩
        obtain rfl := Option.some.inj heq
        exact hlisted hunlisted
  | listed hload hlisted hvolume =>
      rename_i partmap us vs realName realOff realSz
      have hus : (∀ x ∈ us, x.1.isTftpOf name = false ∧ x.1.isFlashCmd = false) ∧
          ∀ x ∈ us, GoodAnswer py err x := by
        rcases hload with ⟨-, rfl⟩ | ⟨-, hload⟩
        · exact ⟨fun x hx => absurd hx List.not_mem_nil, fun x hx => absurd hx List.not_mem_nil⟩
        · obtain ⟨-, -, hgood, hother⟩ := hload.spec err name
          exact ⟨hother, hgood.mpr (Option.some_ne_none _)⟩
      refine ⟨?_, fun _ => Option.some_ne_none _, fun ys hys => ?_⟩
      · rw [hvolume.restored_iff hus.1 hus.2]
        refine ⟨fun hgood => ⟨hgood, partmap, rfl, ?_⟩, fun h => h.1⟩
        rw [hlisted]
        exact Option.some_ne_none _
      · rw [← List.append_assoc]
        refine LayoutKnown.append ?_ hvolume.noPrintenv
        rcases hload with ⟨rfl, rfl⟩ | ⟨rfl, hload⟩
        · rw [List.append_nil]
          exact hys
        · exact hys.load hload

variable {flash : FlashKind} {partitions : List Partition} {offsets : Dict ℕ ℕ}

end

/-! ## The whole restore -/

/-- The partitions of a dump.  They are the files of a directory or the numbered blocks of a backup,
so that no name comes twice. -/
structure Dump where
  partitions : List Partition
  nodup : (partitions.map Prod.fst).Nodup

/-- The exchanges among the events. -/
def exchangesOf (t : List RestoreEvent) : List Exchange :=
  t.filterMap fun
    | .write x => some x
    | _ => none

lemma exchangesOf_spoken (xs : List Exchange) : exchangesOf (spoken xs) = xs := by
  rw [exchangesOf, spoken, List.filterMap_map]
  exact List.filterMap_some

lemma exchangesOf_append (t t' : List RestoreEvent) :
    exchangesOf (t ++ t') = exchangesOf t ++ exchangesOf t' := List.filterMap_append

lemma exchangesOf_turns (turns : List (ℕ × List Exchange)) :
    exchangesOf (turns.flatMap turnEvents) = turns.flatMap Prod.snd := by
  induction turns with
  | nil => rfl
  | cons turn turns ih =>
      rw [List.flatMap_cons, exchangesOf_append, ih, List.flatMap_cons]
      exact congrArg (· ++ _) (exchangesOf_spoken turn.2)

lemma mem_writeOrder {partitions : List Partition} {idx : ℕ} {part : Partition} :
    (idx, part) ∈ writeOrder partitions ↔ partitions[idx]? = some part := by
  have hmem : (idx, part) ∈ partitions.zipIdx.map Prod.swap ↔ partitions[idx]? = some part := by
    rw [← List.mk_mem_zipIdx_iff_getElem?]
    constructor
    · intro h
      obtain ⟨⟨part', idx'⟩, hmem, heq⟩ := List.mem_map.mp h
      obtain ⟨rfl, rfl⟩ := Prod.mk.inj heq
      exact hmem
    · exact fun h => List.mem_map.mpr ⟨_, h, rfl⟩
  rw [← hmem, writeOrder, List.mem_append, List.mem_filter, List.mem_filter]
  cases isBootPart idx part with
  | true => simp
  | false => simp

lemma nodup_writeOrder (partitions : List Partition) :
    ((writeOrder partitions).map Prod.fst).Nodup := by
  have hperm : (writeOrder partitions).Perm (partitions.zipIdx.map Prod.swap) := by
    have := List.filter_append_perm (fun p : ℕ × Partition => !isBootPart p.1 p.2)
      (partitions.zipIdx.map Prod.swap)
    simp only [Bool.not_not] at this
    exact this
  rw [(hperm.map Prod.fst).nodup_iff, List.map_map]
  have hsnd : (partitions.zipIdx.map (Prod.fst ∘ Prod.swap)) = partitions.zipIdx.map Prod.snd := rfl
  rw [hsnd, List.zipIdx_map_snd]
  exact List.nodup_range'

section

variable {py : PyChars} {cfg : RestoreConfig} {flash : FlashKind} {partitions : List Partition}
  {offsets : Dict ℕ ℕ}

end

/-- A NOR flash, in the shell of U-Boot. -/
def norConfig : RestoreConfig where
  console := .shell
  flashType := some .nor
  mtdparts := []
  deviceIp := "192.168.1.20".toList
  serverip := "192.168.1.1".toList

end Defib
