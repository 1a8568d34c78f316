import Defib.Restore.Run

/-!
# What a restore says to U-Boot

For each part of a restore, the commands it sends with their answers, over all runs.  A turn of the
loop over the partitions is a `RawDialogue` or a `UbiDialogue`; `restorePartitions_turns` says that
the loop is one turn after the other, each behind a note of its partition.
-/

namespace Defib

open Scripted

/-- The events of a stretch of the dialogue. -/
def spoken (xs : List Exchange) : List RestoreEvent := xs.map .write

@[simp] lemma spoken_nil : spoken [] = [] := rfl

lemma spoken_append (xs ys : List Exchange) : spoken (xs ++ ys) = spoken xs ++ spoken ys :=
  List.map_append

/-- One exchange. -/
lemma of_send {console : Console} {cmd : UbootCmd} {resp : Text} {t : List RestoreEvent}
    (h : Yields (send console cmd) resp t) :
    ∃ r : Response, resp = r.out ∧ t = spoken [(cmd, r)] := by
  obtain ⟨script, rest, h⟩ := h
  rw [send] at h
  split at h
  · injection h with h₁
    cases h₁
  · injection h with h₁ h₂ h₃
    exact ⟨_, (Except.ok.inj h₁).symm, h₃.symm⟩

/-- An exchange whose answer is not looked at. -/
lemma of_send_bind {α : Type} {console : Console} {cmd : UbootCmd} {f : Text → Restore α} {a : α}
    {t : List RestoreEvent} (h : Yields (send console cmd >>= f) a t) :
    ∃ (r : Response) (t' : List RestoreEvent), Yields (f r.out) a t' ∧
      t = spoken [(cmd, r)] ++ t' := by
  obtain ⟨resp, t₁, t₂, hsend, hf, rfl⟩ := h.of_bind
  obtain ⟨r, rfl, rfl⟩ := of_send hsend
  exact ⟨r, t₂, hf, rfl⟩

/-! ## Before the partitions -/

/-- The commands that neither download nor write nor ask for the layout. -/
def UbootCmd.isPlain : UbootCmd → Bool
  | nandInfo | sfProbe | mmcDev | setenvIpaddr _ | setenvServerip _ | ping _ | setenvMtdids _
  | setenvMtdparts _ | mtdparts | reset => true
  | _ => false

/-- A stretch of plain commands. -/
def IsPlainTalk (t : List RestoreEvent) : Prop :=
  ∃ xs : List Exchange, t = spoken xs ∧ ∀ x ∈ xs, x.1.isPlain = true

lemma isPlainTalk_nil : IsPlainTalk [] := ⟨[], rfl, fun _ h => absurd h List.not_mem_nil⟩

lemma isPlainTalk_singleton {cmd : UbootCmd} (h : cmd.isPlain = true) (r : Response) :
    IsPlainTalk (spoken [(cmd, r)]) := by
  refine ⟨_, rfl, fun x hx => ?_⟩
  obtain rfl := List.mem_singleton.mp hx
  exact h

lemma IsPlainTalk.append {t t' : List RestoreEvent} (h : IsPlainTalk t) (h' : IsPlainTalk t') :
    IsPlainTalk (t ++ t') := by
  obtain ⟨xs, rfl, hxs⟩ := h
  obtain ⟨xs', rfl, hxs'⟩ := h'
  refine ⟨xs ++ xs', (spoken_append xs xs').symm, fun x hx => ?_⟩
  rcases List.mem_append.mp hx with hx | hx
  · exact hxs x hx
  · exact hxs' x hx

lemma isPlainTalk_detectFlash {cfg : RestoreConfig} {flash : FlashKind} {t : List RestoreEvent}
    (h : Yields (detectFlash cfg) flash t) : IsPlainTalk t := by
  rw [detectFlash] at h
  split at h
  · obtain ⟨-, rfl⟩ := Yields.pure_iff.mp h
    exact isPlainTalk_nil
  obtain ⟨r₁, t₁, h₁, rfl⟩ := of_send_bind h
  refine (isPlainTalk_singleton rfl r₁).append ?_
  split at h₁
  · obtain ⟨-, rfl⟩ := Yields.pure_iff.mp h₁
    exact isPlainTalk_nil
  obtain ⟨r₂, t₂, h₂, rfl⟩ := of_send_bind h₁
  refine (isPlainTalk_singleton rfl r₂).append ?_
  split at h₂
  · obtain ⟨-, rfl⟩ := Yields.pure_iff.mp h₂
    exact isPlainTalk_nil
  obtain ⟨r₃, t₃, h₃, rfl⟩ := of_send_bind h₂
  refine (isPlainTalk_singleton rfl r₃).append ?_
  split at h₃
  · obtain ⟨-, rfl⟩ := Yields.pure_iff.mp h₃
    exact isPlainTalk_nil
  · exact absurd h₃ Yields.not_raise

lemma isPlainTalk_pingServer {cfg : RestoreConfig} {attempts : ℕ} {ok : Bool}
    {t : List RestoreEvent} (h : Yields (pingServer cfg attempts) ok t) : IsPlainTalk t := by
  induction attempts generalizing t with
  | zero =>
      obtain ⟨-, rfl⟩ := Yields.pure_iff.mp h
      exact isPlainTalk_nil
  | succ attempts ih =>
      rw [pingServer] at h
      obtain ⟨r, t', h', rfl⟩ := of_send_bind h
      refine (isPlainTalk_singleton rfl r).append ?_
      split at h'
      · obtain ⟨-, rfl⟩ := Yields.pure_iff.mp h'
        exact isPlainTalk_nil
      · exact ih h'

lemma isPlainTalk_setupNetwork {cfg : RestoreConfig} {u : Unit} {t : List RestoreEvent}
    (h : Yields (setupNetwork cfg) u t) : IsPlainTalk t := by
  rw [setupNetwork] at h
  obtain ⟨r₁, t₁, h₁, rfl⟩ := of_send_bind h
  refine (isPlainTalk_singleton rfl r₁).append ?_
  obtain ⟨r₂, t₂, h₂, rfl⟩ := of_send_bind h₁
  refine (isPlainTalk_singleton rfl r₂).append ?_
  obtain ⟨ok, t₃, t₄, hping, h₃, rfl⟩ := h₂.of_bind
  refine (isPlainTalk_pingServer hping).append ?_
  split at h₃
  · obtain ⟨-, rfl⟩ := Yields.pure_iff.mp h₃
    exact isPlainTalk_nil
  · exact absurd h₃ Yields.not_raise

/-! ## A raw partition -/

/-- A download, and whether the file is there. -/
inductive DownloadDialogue (name : Text) : List Exchange → Bool → Prop
  | tftpboot (r : Response) (hknown : unknownCommand r.out = false) :
      DownloadDialogue name [(.tftpboot ramAddr name, r)] (tftpOk r.out)
  | tftp (r r' : Response) (hunknown : unknownCommand r.out = true) :
      DownloadDialogue name [(.tftpboot ramAddr name, r), (.tftp ramAddr name, r')] (tftpOk r'.out)

lemma downloadDialogue {console : Console} {name : Text} {ok : Bool} {t : List RestoreEvent}
    (h : Yields (download console name) ok t) :
    ∃ xs, t = spoken xs ∧ DownloadDialogue name xs ok := by
  rw [download] at h
  obtain ⟨r, t₁, h₁, rfl⟩ := of_send_bind h
  split at h₁
  · rename_i hunknown
    obtain ⟨r', t₂, h₂, rfl⟩ := of_send_bind h₁
    obtain ⟨rfl, rfl⟩ := Yields.pure_iff.mp h₂
    exact ⟨_, rfl, .tftp r r' hunknown⟩
  · rename_i hknown
    obtain ⟨rfl, rfl⟩ := Yields.pure_iff.mp h₁
    exact ⟨_, rfl, .tftpboot r (by simpa using hknown)⟩

/-- The commands that erase and write a raw image. -/
def rawCmds (flash : FlashKind) (offset len : ℕ) : List UbootCmd :=
  match flash with
  | .nand => [.nandErase offset (roundUp 0x20000 len), .nandWrite ramAddr offset (roundUp 2048 len)]
  | .nor => [.sfErase offset (roundUp 0x10000 len), .sfWrite ramAddr offset len]
  | .emmc =>
      [.mmcErase (offset / 512) ((len + 511) / 512),
        .mmcWrite ramAddr (offset / 512) ((len + 511) / 512)]
  | .other => []

lemma of_send_pair {console : Console} {cmd cmd' : UbootCmd} {u : Unit} {t : List RestoreEvent}
    (h : Yields (do
      let _ ← send console cmd
      let _ ← send console cmd') u t) :
    ∃ ys : List Exchange, t = spoken ys ∧ ys.map Prod.fst = [cmd, cmd'] := by
  obtain ⟨r, t₁, h₁, rfl⟩ := of_send_bind h
  obtain ⟨r', t₂, h₂, rfl⟩ := of_send_bind h₁
  obtain ⟨-, rfl⟩ := Yields.pure_iff.mp h₂
  exact ⟨[(cmd, r), (cmd', r')], rfl, rfl⟩

lemma rawCmds_of_writeRaw {console : Console} {flash : FlashKind} {offset len : ℕ} {u : Unit}
    {t : List RestoreEvent} (h : Yields (writeRaw console flash offset len) u t) :
    ∃ ys : List Exchange, t = spoken ys ∧ ys.map Prod.fst = rawCmds flash offset len := by
  cases flash with
  | nand => exact of_send_pair h
  | nor => exact of_send_pair h
  | emmc => exact of_send_pair h
  | other =>
      obtain ⟨-, rfl⟩ := Yields.pure_iff.mp h
      exact ⟨[], rfl, rfl⟩

/-- The turn of a raw partition. -/
inductive RawDialogue (flash : FlashKind) (name : Text) (offset len : ℕ) : List Exchange → Prop
  | skipped {xs : List Exchange} (hdownload : DownloadDialogue name xs false) :
      RawDialogue flash name offset len xs
  | written {xs ys : List Exchange} (hdownload : DownloadDialogue name xs true)
      (hcmds : ys.map Prod.fst = rawCmds flash offset len) :
      RawDialogue flash name offset len (xs ++ ys)

lemma rawDialogue {console : Console} {flash : FlashKind} {name : Text} {offset len : ℕ} {u : Unit}
    {t : List RestoreEvent} (h : Yields (restoreRaw console flash name offset len) u t) :
    ∃ xs, t = spoken xs ∧ RawDialogue flash name offset len xs := by
  rw [restoreRaw] at h
  obtain ⟨ok, t₁, t₂, hdownload, h₁, rfl⟩ := h.of_bind
  obtain ⟨xs, rfl, hxs⟩ := downloadDialogue hdownload
  cases ok with
  | false =>
      obtain ⟨-, rfl⟩ := Yields.pure_iff.mp h₁
      exact ⟨xs, List.append_nil _, .skipped hxs⟩
  | true =>
      obtain ⟨ys, rfl, hys⟩ := rawCmds_of_writeRaw h₁
      exact ⟨xs ++ ys, (spoken_append xs ys).symm, .written hxs hys⟩

/-! ## A UBI partition -/

variable {py : PyChars}

/-- How the layout is found: by the option, in the boot arguments, in the environment, or not. -/
inductive LayoutDialogue (py : PyChars) (cfg : RestoreConfig) : List Exchange → Option Text → Prop
  | option (hgiven : cfg.mtdparts ≠ []) : LayoutDialogue py cfg [] (some cfg.mtdparts)
  | bootargs (hempty : cfg.mtdparts = []) (r : Response) {layout : Text}
      (hlayout : bootargsLayout py r.out = some layout) :
      LayoutDialogue py cfg [(.printenvBootargs, r)] (some layout)
  | environment (hempty : cfg.mtdparts = []) (r r' : Response)
      (hbootargs : bootargsLayout py r.out = none) :
      LayoutDialogue py cfg [(.printenvBootargs, r), (.printenvMtdparts, r')]
        (bootargsLayout py r'.out)

lemma layoutDialogue {cfg : RestoreConfig} {layout? : Option Text} {t : List RestoreEvent}
    (h : Yields (ubiLayout py cfg) layout? t) :
    ∃ xs, t = spoken xs ∧ LayoutDialogue py cfg xs layout? := by
  rw [ubiLayout] at h
  split at h
  · rename_i hempty
    rw [List.isEmpty_iff] at hempty
    obtain ⟨r, t₁, h₁, rfl⟩ := of_send_bind h
    split at h₁
    · rename_i layout hlayout
      obtain ⟨rfl, rfl⟩ := Yields.pure_iff.mp h₁
      exact ⟨_, rfl, .bootargs hempty r hlayout⟩
    · rename_i hbootargs
      obtain ⟨r', t₂, h₂, rfl⟩ := of_send_bind h₁
      obtain ⟨rfl, rfl⟩ := Yields.pure_iff.mp h₂
      exact ⟨_, rfl, .environment hempty r r' hbootargs⟩
  · rename_i hgiven
    obtain ⟨rfl, rfl⟩ := Yields.pure_iff.mp h
    exact ⟨[], rfl, .option (by simpa using hgiven)⟩

/-- How the layout is found and loaded. -/
inductive LoadDialogue (py : PyChars) (cfg : RestoreConfig) : List Exchange → Option Partmap → Prop
  | noLayout {xs : List Exchange} (hlayout : LayoutDialogue py cfg xs none) :
      LoadDialogue py cfg xs none
  | loaded {xs ys : List Exchange} {layout : Text} {partmap : Partmap}
      (hlayout : LayoutDialogue py cfg xs (some layout)) (hplain : ∀ y ∈ ys, y.1.isPlain = true)
      (hparsed : ubiPartmap py layout = .ok partmap) :
      LoadDialogue py cfg (xs ++ ys) (some partmap)

lemma loadDialogue {cfg : RestoreConfig} {partmap? : Option Partmap} {t : List RestoreEvent}
    (h : Yields (loadPartmap py cfg) partmap? t) :
    ∃ xs, t = spoken xs ∧ LoadDialogue py cfg xs partmap? := by
  rw [loadPartmap] at h
  obtain ⟨layout?, t₁, t₂, hlayout, h₁, rfl⟩ := h.of_bind
  obtain ⟨xs, rfl, hxs⟩ := layoutDialogue hlayout
  cases layout? with
  | none =>
      obtain ⟨rfl, rfl⟩ := Yields.pure_iff.mp h₁
      exact ⟨xs, List.append_nil _, .noLayout hxs⟩
  | some layout =>
      obtain ⟨r₁, t₃, h₂, rfl⟩ := of_send_bind h₁
      obtain ⟨r₂, t₄, h₃, rfl⟩ := of_send_bind h₂
      obtain ⟨r₃, t₅, h₄, rfl⟩ := of_send_bind h₃
      obtain ⟨partmap, t₆, t₇, hparsed, h₅, rfl⟩ := h₄.of_bind
      obtain ⟨rfl, rfl⟩ := Yields.pure_iff.mp h₅
      obtain ⟨hmap, rfl⟩ := hparsed.of_lift
      refine ⟨xs ++ [(.setenvMtdids (layout.takeWhile (· ≠ ':')), r₁), (.setenvMtdparts layout, r₂),
        (.mtdparts, r₃)], ?_, .loaded hxs ?_ hmap⟩
      · rw [spoken_append]
        rfl
      · intro y hy
        simp only [List.mem_cons, List.not_mem_nil, or_false] at hy
        rcases hy with rfl | rfl | rfl <;> rfl

/-- The commands that write a UBI volume. -/
def ubiCmds (realName : Text) (realOff realSz len : ℕ) : List UbootCmd :=
  [.nandErase realOff (realSize realOff realSz), .ubiPart realName,
    .ubiCreate realName, .ubiWrite ramAddr realName len]

/-- The part of a turn in which a UBI volume is downloaded and written. -/
inductive VolumeDialogue (name realName : Text) (realOff realSz len : ℕ) : List Exchange → Prop
  | skipped {xs : List Exchange} (hdownload : DownloadDialogue name xs false) :
      VolumeDialogue name realName realOff realSz len xs
  | written {xs ys : List Exchange} (hdownload : DownloadDialogue name xs true)
      (hcmds : ys.map Prod.fst = ubiCmds realName realOff realSz len) :
      VolumeDialogue name realName realOff realSz len (xs ++ ys)

lemma volumeDialogue {console : Console} {name realName : Text} {realOff realSz len : ℕ} {u : Unit}
    {t : List RestoreEvent}
    (h : Yields (writeUbi console name realName realOff realSz len) u t) :
    ∃ xs, t = spoken xs ∧ VolumeDialogue name realName realOff realSz len xs := by
  rw [writeUbi] at h
  obtain ⟨ok, t₁, t₂, hdownload, h₁, rfl⟩ := h.of_bind
  obtain ⟨xs, rfl, hxs⟩ := downloadDialogue hdownload
  cases ok with
  | false =>
      obtain ⟨-, rfl⟩ := Yields.pure_iff.mp h₁
      exact ⟨xs, List.append_nil _, .skipped hxs⟩
  | true =>
      obtain ⟨r₁, t₃, h₂, rfl⟩ := of_send_bind h₁
      obtain ⟨r₂, t₄, h₃, rfl⟩ := of_send_bind h₂
      obtain ⟨r₃, t₅, h₄, rfl⟩ := of_send_bind h₃
      obtain ⟨r₄, t₆, h₅, rfl⟩ := of_send_bind h₄
      obtain ⟨-, rfl⟩ := Yields.pure_iff.mp h₅
      refine ⟨xs ++ [(.nandErase realOff _, r₁), (.ubiPart realName, r₂), (.ubiCreate realName, r₃),
        (.ubiWrite ramAddr realName len, r₄)], ?_, .written hxs rfl⟩
      rw [spoken_append]
      rfl

/-- The turn of a UBI partition: the layout before and behind it, and what is said. -/
inductive UbiDialogue (py : PyChars) (cfg : RestoreConfig) (idx : ℕ) (name : Text) (len : ℕ) :
    Option Partmap → Option Partmap → List Exchange → Prop
  | noLayout {xs : List Exchange} (hload : LoadDialogue py cfg xs none) :
      UbiDialogue py cfg idx name len none none xs
  | unlisted {partmap? : Option Partmap} {partmap : Partmap} {xs : List Exchange}
      (hload : (partmap? = some partmap ∧ xs = []) ∨
        (partmap? = none ∧ LoadDialogue py cfg xs (some partmap)))
      (hunlisted : partmap.get? idx = none) :
      UbiDialogue py cfg idx name len partmap? (some partmap) xs
  | listed {partmap? : Option Partmap} {partmap : Partmap} {xs ys : List Exchange}
      {realName : Text} {realOff realSz : ℕ}
      (hload : (partmap? = some partmap ∧ xs = []) ∨
        (partmap? = none ∧ LoadDialogue py cfg xs (some partmap)))
      (hlisted : partmap.get? idx = some (realName, realOff, realSz))
      (hvolume : VolumeDialogue name realName realOff realSz len ys) :
      UbiDialogue py cfg idx name len partmap? (some partmap) (xs ++ ys)

lemma ubiDialogue {cfg : RestoreConfig} {partitions : List Partition}
    {partmap? partmap?' : Option Partmap} {name : Text} {len : ℕ} {t : List RestoreEvent}
    (h : Yields (restoreUbi py cfg partitions partmap? name len) partmap?' t) :
    ∃ xs, t = spoken xs ∧
      UbiDialogue py cfg (indexOfName partitions name) name len partmap? partmap?' xs := by
  rw [restoreUbi] at h
  obtain ⟨loaded, t₁, t₂, hload, h₁, rfl⟩ := h.of_bind
  have hcase : ∃ xs, t₁ = spoken xs ∧ ((partmap? = loaded ∧ partmap? ≠ none ∧ xs = []) ∨
      (partmap? = none ∧ LoadDialogue py cfg xs loaded)) := by
    cases partmap? with
    | some partmap =>
        obtain ⟨rfl, rfl⟩ := Yields.pure_iff.mp hload
        exact ⟨[], rfl, .inl ⟨rfl, nofun, rfl⟩⟩
    | none =>
        obtain ⟨xs, rfl, hxs⟩ := loadDialogue hload
        exact ⟨xs, rfl, .inr ⟨rfl, hxs⟩⟩
  obtain ⟨xs, rfl, hxs⟩ := hcase
  cases loaded with
  | none =>
      obtain ⟨rfl, rfl⟩ := Yields.pure_iff.mp h₁
      rcases hxs with ⟨heq, hne, -⟩ | ⟨rfl, hxs⟩
      · exact absurd heq hne
      · exact ⟨xs, List.append_nil _, .noLayout hxs⟩
  | some partmap =>
      have hknown : (partmap? = some partmap ∧ xs = []) ∨
          (partmap? = none ∧ LoadDialogue py cfg xs (some partmap)) :=
        hxs.imp_left fun h => ⟨h.1, h.2.2⟩
      dsimp only at h₁
      cases hget : partmap.get? (indexOfName partitions name) with
      | none =>
          rw [hget] at h₁
          obtain ⟨rfl, rfl⟩ := Yields.pure_iff.mp h₁
          exact ⟨xs, List.append_nil _, .unlisted hknown hget⟩
      | some entry =>
          obtain ⟨realName, realOff, realSz⟩ := entry
          rw [hget] at h₁
          obtain ⟨u, t₃, t₄, hvolume, h₂, rfl⟩ := h₁.of_bind
          obtain ⟨rfl, rfl⟩ := Yields.pure_iff.mp h₂
          obtain ⟨ys, rfl, hys⟩ := volumeDialogue hvolume
          refine ⟨xs ++ ys, ?_, .listed hknown hget hys⟩
          rw [List.append_nil, spoken_append]

/-! ## The turns -/

/-- The turn of a partition: the layout before and behind it, and what is said. -/
inductive TurnDialogue (py : PyChars) (cfg : RestoreConfig) (flash : FlashKind)
    (partitions : List Partition) (offsets : Dict ℕ ℕ) (idx : ℕ) (part : Partition) :
    Option Partmap → Option Partmap → List Exchange → Prop
  | raw {partmap? : Option Partmap} {offset : ℕ} {xs : List Exchange}
      (hraw : ubiVolume flash part.2 = none)
      (hoffset : partitionOffset offsets partmap? idx = .ok offset)
      (hsaid : RawDialogue flash part.1 offset part.2.length xs) :
      TurnDialogue py cfg flash partitions offsets idx part partmap? partmap? xs
  | ubi {partmap? partmap?' : Option Partmap} {data : List UInt8} {xs : List Exchange}
      (hvolume : ubiVolume flash part.2 = some (.ok data))
      (hsaid : UbiDialogue py cfg (indexOfName partitions part.1) part.1 data.length
        partmap? partmap?' xs) :
      TurnDialogue py cfg flash partitions offsets idx part partmap? partmap?' xs

variable {cfg : RestoreConfig} {flash : FlashKind} {partitions : List Partition}
  {offsets : Dict ℕ ℕ}

lemma turnDialogue {partmap? partmap?' : Option Partmap} {idx : ℕ} {part : Partition}
    {t : List RestoreEvent}
    (h : Yields (restorePartition py cfg flash partitions offsets partmap? idx part) partmap?' t) :
    ∃ xs, t = .note (.partition idx) :: spoken xs ∧
      TurnDialogue py cfg flash partitions offsets idx part partmap? partmap?' xs := by
  rw [restorePartition] at h
  obtain ⟨_, t₁, t₂, hnote, h₁, rfl⟩ := h.of_bind
  obtain rfl := hnote.of_note
  obtain ⟨offset, t₃, t₄, hlift, h₂, rfl⟩ := h₁.of_bind
  obtain ⟨hoffset, rfl⟩ := hlift.of_lift
  cases hvolume : ubiVolume flash part.2 with
  | some volume =>
      rw [hvolume] at h₂
      obtain ⟨data, t₅, t₆, hdata, h₃, rfl⟩ := h₂.of_bind
      obtain ⟨rfl, rfl⟩ := hdata.of_lift
      obtain ⟨xs, rfl, hxs⟩ := ubiDialogue h₃
      exact ⟨xs, rfl, .ubi hvolume hxs⟩
  | none =>
      rw [hvolume] at h₂
      obtain ⟨u, t₅, t₆, hraw, h₃, rfl⟩ := h₂.of_bind
      obtain ⟨rfl, rfl⟩ := Yields.pure_iff.mp h₃
      obtain ⟨xs, rfl, hxs⟩ := rawDialogue hraw
      refine ⟨xs, ?_, .raw hvolume hoffset hxs⟩
      rw [List.append_nil]
      rfl

/-- One turn after the other. -/
inductive TurnsDialogue (py : PyChars) (cfg : RestoreConfig) (flash : FlashKind)
    (partitions : List Partition) (offsets : Dict ℕ ℕ) :
    Option Partmap → List (ℕ × Partition) → List (ℕ × List Exchange) → Prop
  | nil {partmap? : Option Partmap} : TurnsDialogue py cfg flash partitions offsets partmap? [] []
  | cons {partmap? partmap?' : Option Partmap} {idx : ℕ} {part : Partition}
      {order : List (ℕ × Partition)} {xs : List Exchange} {turns : List (ℕ × List Exchange)}
      (hturn : TurnDialogue py cfg flash partitions offsets idx part partmap? partmap?' xs)
      (hturns : TurnsDialogue py cfg flash partitions offsets partmap?' order turns) :
      TurnsDialogue py cfg flash partitions offsets partmap? ((idx, part) :: order)
        ((idx, xs) :: turns)

/-- The events of a turn. -/
def turnEvents (turn : ℕ × List Exchange) : List RestoreEvent :=
  .note (.partition turn.1) :: spoken turn.2

/-- The loop is one turn after the other. -/
lemma restorePartitions_turns {partmap? : Option Partmap} {order : List (ℕ × Partition)} {u : Unit}
    {t : List RestoreEvent}
    (h : Yields (restorePartitions py cfg flash partitions offsets partmap? order) u t) :
    ∃ turns, t = turns.flatMap turnEvents ∧
      TurnsDialogue py cfg flash partitions offsets partmap? order turns := by
  induction order generalizing partmap? t with
  | nil =>
      obtain ⟨-, rfl⟩ := Yields.pure_iff.mp h
      exact ⟨[], rfl, .nil⟩
  | cons p order ih =>
      obtain ⟨idx, part⟩ := p
      rw [restorePartitions] at h
      obtain ⟨partmap?', t₁, t₂, hturn, hrest, rfl⟩ := h.of_bind
      obtain ⟨xs, rfl, hxs⟩ := turnDialogue hturn
      obtain ⟨turns, rfl, hturns⟩ := ih hrest
      exact ⟨(idx, xs) :: turns, rfl, .cons hxs hturns⟩

/-- **What a restore says.**  Plain talk, the turns of the partitions, and a reset. -/
lemma restore_dialogue {script : List (Reading Response)} {n : ℕ}
    (h : (restore py cfg partitions script).result = .ok n) :
    ∃ flash offsets xs turns r, (detectFlash cfg script).result = .ok flash ∧
      restoreOffsets py flash cfg.mtdparts (partitions.map fun part => part.2.length) =
        .ok offsets ∧
      (∀ x ∈ xs, x.1.isPlain = true) ∧
      TurnsDialogue py cfg flash partitions offsets none (writeOrder partitions) turns ∧
      (restore py cfg partitions script).trace =
        spoken xs ++ (turns.flatMap turnEvents ++ [.note .reset, .write (.reset, r)]) := by
  cases hflash : (detectFlash cfg script).result with
  | error e =>
      rw [restore, bind_of_error hflash] at h
      cases h
  | ok flash =>
      rw [restore, bind_of_ok hflash] at h ⊢
      rw [Outcome.prepend_result] at h
      have hrest := yields_of_result h
      obtain ⟨_, t₁, t₂, hnetwork, h₁, ht⟩ := hrest.of_bind
      obtain ⟨offsets, t₃, t₄, hlift, h₂, rfl⟩ := h₁.of_bind
      obtain ⟨hoffsets, rfl⟩ := hlift.of_lift
      obtain ⟨u, t₅, t₆, hloop, h₃, rfl⟩ := h₂.of_bind
      obtain ⟨turns, rfl, hturns⟩ := restorePartitions_turns hloop
      obtain ⟨_, t₇, t₈, hnote, h₄, rfl⟩ := h₃.of_bind
      obtain rfl := hnote.of_note
      obtain ⟨r, t₉, h₅, rfl⟩ := of_send_bind h₄
      obtain ⟨-, rfl⟩ := Yields.pure_iff.mp h₅
      obtain ⟨xs, hxs, hplain⟩ := (isPlainTalk_detectFlash (yields_of_result hflash)).append
        (isPlainTalk_setupNetwork hnetwork)
      refine ⟨flash, offsets, xs, turns, r, rfl, hoffsets, hplain, hturns, ?_⟩
      rw [Outcome.prepend_trace, ht, ← List.append_assoc, hxs]
      rfl

end Defib
