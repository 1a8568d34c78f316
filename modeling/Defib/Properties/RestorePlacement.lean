import Defib.Properties.RestoreSuccess
import Defib.Restore.Device

/-!
# Where a restore puts the partitions

A restore of raw partitions without a layout, on a device on which every command succeeds.  The
partitions follow each other without gaps, while erases and writes are rounded to blocks: a
partition may share an erase block with one that was written before, and on eMMC it may start
inside a block.

`restore_places_iff` says for which names and lengths every partition is found at its offset in the
end, whatever the contents: on NAND and NOR, when no erase block that a partition clears has bytes
of one that was written before it; on eMMC, when no partition starts inside a block.
`placeAll_flash` is one direction, `placeAll_ne_mark` and `placeAll_misplaced` are the other: a
marked byte that is lost.
-/

namespace Defib

open Scripted

/-! ## Shapes -/

/-- The names and lengths of the partitions of a dump. -/
structure Shape where
  parts : List (Text × ℕ)
  nodup : (parts.map Prod.fst).Nodup

/-- The dump has these names and lengths. -/
def Dump.HasShape (dump : Dump) (shape : Shape) : Prop :=
  (dump.partitions.map fun part => (part.1, part.2.length)) = shape.parts

/-- The order in which partitions with these names are written: the boot partition last. -/
def nameOrder (names : List Text) : List ℕ :=
  let order := names.zipIdx.map Prod.swap
  ((order.filter fun p => !isBootPart p.1 (p.2, [])) ++
    order.filter fun p => isBootPart p.1 (p.2, [])).map Prod.fst

namespace Shape

variable (shape : Shape)

/-- The length of partition `i`. -/
def len (i : ℕ) : ℕ := (shape.parts.map Prod.snd).getD i 0

/-- The sum of the lengths before partition `i`. -/
def off (i : ℕ) : ℕ := ((shape.parts.map Prod.snd).take i).sum

/-- The order in which the partitions are written. -/
def order : List ℕ := nameOrder (shape.parts.map Prod.fst)

/-- The erase blocks that partition `j` clears have no byte of partition `i`. -/
def Apart (block i j : ℕ) : Prop :=
  shape.len i = 0 ∨ shape.len j = 0 ∨ shape.off i + shape.len i ≤ shape.off j / block * block ∨
    roundUp block (shape.off j + roundUp block (shape.len j)) ≤ shape.off i

/-- The lengths for which every partition is found in its place. -/
def Fits : FlashKind → Prop
  | .nand => shape.order.Pairwise (shape.Apart 0x20000)
  | .nor => shape.order.Pairwise (shape.Apart 0x10000)
  | .emmc => ∀ i, shape.len i ≠ 0 → 512 ∣ shape.off i
  | .other => ∀ i, shape.len i = 0

lemma off_succ (i : ℕ) : shape.off (i + 1) = shape.off i + shape.len i := by
  rw [off, off, len, List.take_add_one, List.sum_append, List.getD_eq_getElem?_getD]
  cases (shape.parts.map Prod.snd)[i]? with
  | none => rfl
  | some n => simp

/-- Partitions follow each other. -/
lemma off_add_len_le {i j : ℕ} (h : i < j) : shape.off i + shape.len i ≤ shape.off j := by
  induction j, h using Nat.le_induction with
  | base => rw [shape.off_succ]
  | succ j _ ih => rw [shape.off_succ]; omega

end Shape

/-! ## Writing an image -/

/-- Where an image is erased and written. -/
structure RawGeometry where
  block : ℕ
  start : ℕ
  eraseLen : ℕ
  writeLen : ℕ

/-- Where an image of this length is erased and written. -/
def rawGeometry : FlashKind → ℕ → ℕ → RawGeometry
  | .nand, off, len => ⟨0x20000, off, roundUp 0x20000 len, roundUp 2048 len⟩
  | .nor, off, len => ⟨0x10000, off, roundUp 0x10000 len, len⟩
  | .emmc, off, len =>
      ⟨512, off / 512 * 512, (len + 511) / 512 * 512, (len + 511) / 512 * 512⟩
  | .other, _, _ => ⟨1, 0, 0, 0⟩

namespace Device

/-- Load an image, erase and write. -/
def place (erased : UInt8) (g : RawGeometry) (data : List UInt8) (d : Device) : Device :=
  ((d.load ramAddr data).erase erased g.block g.start g.eraseLen).write ramAddr g.start g.writeLen

lemma load_ram (d : Device) (data : List UInt8) (k : ℕ) :
    (d.load ramAddr data).ram (ramAddr + k) =
      if k < data.length then data.getD k 0 else d.ram (ramAddr + k) := by
  by_cases hk : k < data.length
  · rw [if_pos hk, load]
    dsimp only
    rw [if_pos ⟨by omega, by omega⟩, Nat.add_sub_cancel_left]
  · rw [if_neg hk, load]
    dsimp only
    rw [if_neg (by omega)]

lemma place_ram (erased : UInt8) (g : RawGeometry) (data : List UInt8) (d : Device) :
    (d.place erased g data).ram = (d.load ramAddr data).ram := rfl

lemma place_flash (erased : UInt8) (g : RawGeometry) (data : List UInt8) (d : Device) (x : ℕ) :
    (d.place erased g data).flash x =
      if g.start ≤ x ∧ x < g.start + g.writeLen then
        (d.load ramAddr data).ram (ramAddr + (x - g.start))
      else if BlockOverlaps g.block g.start g.eraseLen x then erased else d.flash x := rfl

end Device

/-- An answer with which a download works. -/
def DownloadOk : Exchange → Prop
  | (.tftpboot _ _, r) => unknownCommand r.out = true ∨ tftpOk r.out = true
  | (.tftp _ _, r) => tftpOk r.out = true
  | _ => True

/-- A download that works puts the file into RAM. -/
lemma execAll_download {erased : UInt8} {files : Dict Text (List UInt8)} {name : Text}
    {data : List UInt8} (hfile : files.get? name = some data) {xs : List Exchange} {ok : Bool}
    (h : DownloadDialogue name xs ok) (d : Device) :
    d.execAll erased files xs = d.load ramAddr data := by
  cases h with
  | tftpboot r hknown =>
      change (if unknownCommand r.out = true then d else _) = _
      rw [if_neg (by simp [hknown]), hfile]
      rfl
  | tftp r r' hunknown =>
      change Device.load (if unknownCommand r.out = true then d else _) _ _ = _
      rw [if_pos hunknown, hfile]
      rfl

lemma downloadDialogue_ok {name : Text} {xs : List Exchange} {ok : Bool}
    (h : DownloadDialogue name xs ok) (hgood : ∀ x ∈ xs, DownloadOk x) : ok = true := by
  cases h with
  | tftpboot r hknown =>
      rcases hgood _ List.mem_cons_self with hunknown | hok
      · rw [hknown] at hunknown
        cases hunknown
      · exact hok
  | tftp r r' hunknown => exact hgood _ (List.mem_cons_of_mem _ List.mem_cons_self)

lemma exists_pair_of_map_fst {ys : List Exchange} {cmd cmd' : UbootCmd}
    (h : ys.map Prod.fst = [cmd, cmd']) : ∃ r r', ys = [(cmd, r), (cmd', r')] := by
  obtain ⟨y, y', rfl⟩ : ∃ y y', ys = [y, y'] :=
    List.length_eq_two.mp (by rw [← List.length_map (f := Prod.fst), h]; rfl)
  obtain ⟨rfl, htail⟩ := List.cons.inj h
  obtain ⟨rfl, -⟩ := List.cons.inj htail
  exact ⟨y.2, y'.2, rfl⟩

/-- The commands for an image erase and write. -/
lemma execAll_rawCmds {erased : UInt8} {files : Dict Text (List UInt8)} {flash : FlashKind}
    {offset len : ℕ} {ys : List Exchange} (hys : ys.map Prod.fst = rawCmds flash offset len)
    (data : List UInt8) (d : Device) :
    (d.load ramAddr data).execAll erased files ys =
      d.place erased (rawGeometry flash offset len) data := by
  cases flash with
  | nand =>
      obtain ⟨r, r', rfl⟩ := exists_pair_of_map_fst hys
      rfl
  | nor =>
      obtain ⟨r, r', rfl⟩ := exists_pair_of_map_fst hys
      rfl
  | emmc =>
      obtain ⟨r, r', rfl⟩ := exists_pair_of_map_fst hys
      rfl
  | other =>
      obtain rfl : ys = [] := List.map_eq_nil_iff.mp hys
      refine Device.ext (funext fun x => ?_) rfl
      rw [Device.place_flash, if_neg (by simp [rawGeometry]),
        if_neg (by simp [rawGeometry, BlockOverlaps])]
      rfl

/-- The turn of a raw partition. -/
lemma execAll_raw {erased : UInt8} {files : Dict Text (List UInt8)} {flash : FlashKind}
    {name : Text} {data : List UInt8} (hfile : files.get? name = some data) {offset : ℕ}
    {xs : List Exchange} (h : RawDialogue flash name offset data.length xs)
    (hgood : ∀ x ∈ xs, DownloadOk x) (d : Device) :
    d.execAll erased files xs = d.place erased (rawGeometry flash offset data.length) data := by
  cases h with
  | skipped hdownload => exact absurd (downloadDialogue_ok hdownload hgood) (by decide)
  | written hdownload hcmds =>
      rename_i xs ys
      rw [Device.execAll, List.foldl_append, ← Device.execAll, ← Device.execAll,
        execAll_download hfile hdownload, execAll_rawCmds hcmds]

/-! ## Images that stay -/

namespace Device

/-- The device after the partitions of an order; `content i` is the data of partition `i`. -/
def placeAll (erased : UInt8) (flash : FlashKind) (shape : Shape) (content : ℕ → List UInt8)
    (d : Device) (order : List ℕ) : Device :=
  order.foldl
    (fun d i => d.place erased (rawGeometry flash (shape.off i) (shape.len i)) (content i)) d

end Device

/-- What is in no erase block of an image stays. -/
lemma place_flash_of_clear {erased : UInt8} {flash : FlashKind} {off len x : ℕ} {data : List UInt8}
    {d : Device}
    (h : len = 0 ∨
      x < (rawGeometry flash off len).start / (rawGeometry flash off len).block *
        (rawGeometry flash off len).block ∨
      roundUp (rawGeometry flash off len).block
        ((rawGeometry flash off len).start + (rawGeometry flash off len).eraseLen) ≤ x) :
    (d.place erased (rawGeometry flash off len) data).flash x = d.flash x := by
  rw [Device.place_flash]
  cases flash <;> simp only [rawGeometry, roundUp, BlockOverlaps, lt_min_iff, max_lt_iff] at h ⊢ <;>
    rw [if_neg (by omega), if_neg (by omega)]

/-- An image that starts where it should is found there. -/
lemma place_flash_self {erased : UInt8} {flash : FlashKind} (hflash : flash ≠ .other)
    {off k : ℕ} {data : List UInt8} {d : Device} (hk : k < data.length)
    (hstart : (rawGeometry flash off data.length).start = off) :
    (d.place erased (rawGeometry flash off data.length) data).flash (off + k) =
      data.getD k 0 := by
  have hwritten : k < (rawGeometry flash off data.length).writeLen := by
    cases flash <;> simp only [rawGeometry, roundUp] at hstart ⊢ <;> first
      | omega
      | exact absurd rfl hflash
  rw [Device.place_flash, hstart, if_pos ⟨by omega, by omega⟩, Nat.add_sub_cancel_left,
    Device.load_ram, if_pos hk]

namespace Shape

variable (shape : Shape)

/-- Partition `j` clears no byte of partition `i`. -/
def Clear (flash : FlashKind) (i j : ℕ) : Prop :=
  let g := rawGeometry flash (shape.off j) (shape.len j)
  shape.len i = 0 ∨ shape.len j = 0 ∨ shape.off i + shape.len i ≤ g.start / g.block * g.block ∨
    roundUp g.block (g.start + g.eraseLen) ≤ shape.off i

end Shape

/-- **What was written stays.**  If every image starts where it should and later images do not
clear earlier ones, every image is found in the end. -/
lemma placeAll_flash {erased : UInt8} {flash : FlashKind} (hflash : flash ≠ .other) {shape : Shape}
    {content : ℕ → List UInt8} (hcontent : ∀ i, (content i).length = shape.len i) {order : List ℕ}
    (hstart : ∀ i ∈ order, shape.len i ≠ 0 →
      (rawGeometry flash (shape.off i) (shape.len i)).start = shape.off i)
    (hclear : order.Pairwise (shape.Clear flash)) {i : ℕ} (hi : i ∈ order) {k : ℕ}
    (hk : k < shape.len i) (d : Device) :
    (d.placeAll erased flash shape content order).flash (shape.off i + k) =
      (content i).getD k 0 := by
  -- later images leave the byte alone
  have hkeep : ∀ (order : List ℕ) (d : Device), (∀ j ∈ order, shape.Clear flash i j) →
      (d.placeAll erased flash shape content order).flash (shape.off i + k) =
        d.flash (shape.off i + k) := by
    intro order
    induction order with
    | nil => exact fun d _ => rfl
    | cons j order ih =>
        intro d hclear
        rw [Device.placeAll, List.foldl_cons, ← Device.placeAll,
          ih _ fun j' hj' => hclear j' (List.mem_cons_of_mem _ hj')]
        refine place_flash_of_clear ?_
        rcases hclear j List.mem_cons_self with h | h | h | h
        · omega
        · exact .inl h
        · exact .inr (.inl (by omega))
        · exact .inr (.inr (by omega))
  induction order generalizing d with
  | nil => cases hi
  | cons j order ih =>
      rw [List.pairwise_cons] at hclear
      rw [Device.placeAll, List.foldl_cons, ← Device.placeAll]
      by_cases hij : i = j
      · subst hij
        rw [hkeep order _ hclear.1, ← hcontent]
        refine place_flash_self hflash (by rw [hcontent]; exact hk) ?_
        rw [hcontent]
        exact hstart i List.mem_cons_self (by omega)
      · exact ih (fun i' hi' => hstart i' (List.mem_cons_of_mem _ hi')) hclear.2
          ((List.mem_cons.mp hi).resolve_left hij) _

/-! ## A byte that is lost -/

/-- The value is in the content of partition `i` at position `p` only. -/
def MarkedAt (content : ℕ → List UInt8) (v : UInt8) (i p : ℕ) : Prop :=
  ∀ j k, k < (content j).length → (content j).getD k 0 = v → j = i ∧ k = p

section

variable {erased v : UInt8} {flash : FlashKind} {shape : Shape} {content : ℕ → List UInt8} {i p : ℕ}

variable (erased) in
lemma place_ram_mark (hmark : MarkedAt content v i p) {d : Device}
    (hram : ∀ k, d.ram (ramAddr + k) = v → k = p) (g : RawGeometry) (j k : ℕ)
    (h : (d.place erased g (content j)).ram (ramAddr + k) = v) : k = p := by
  rw [Device.place_ram, Device.load_ram] at h
  split at h
  · rename_i hk
    exact (hmark j k hk h).2
  · exact hram k h

/-- An image that writes its byte `p` elsewhere does not put the mark here. -/
lemma place_flash_ne_mark (hmark : MarkedAt content v i p) (herased : v ≠ erased) {d : Device}
    (hram : ∀ k, d.ram (ramAddr + k) = v → k = p) {g : RawGeometry} {j x : ℕ}
    (hwrite : g.start ≤ x → x < g.start + g.writeLen → x - g.start ≠ p)
    (hflash : d.flash x ≠ v ∨ BlockOverlaps g.block g.start g.eraseLen x) :
    (d.place erased g (content j)).flash x ≠ v := by
  rw [Device.place_flash]
  split
  · rename_i hx
    intro hv
    exact hwrite hx.1 hx.2 (place_ram_mark erased hmark hram g j _ hv)
  · split
    · exact herased.symm
    · rename_i hclear
      exact hflash.resolve_right hclear

/-- A mark that is not there does not come back. -/
lemma placeAll_ne_mark (hmark : MarkedAt content v i p) (herased : v ≠ erased) {order : List ℕ}
    {x : ℕ} (hwrite : ∀ j ∈ order, ∀ g, g = rawGeometry flash (shape.off j) (shape.len j) →
      g.start ≤ x → x < g.start + g.writeLen → x - g.start ≠ p) {d : Device}
    (hram : ∀ k, d.ram (ramAddr + k) = v → k = p) (hflash : d.flash x ≠ v) :
    (d.placeAll erased flash shape content order).flash x ≠ v := by
  induction order generalizing d with
  | nil => exact hflash
  | cons j order ih =>
      rw [Device.placeAll, List.foldl_cons, ← Device.placeAll]
      refine ih (fun j' hj' => hwrite j' (List.mem_cons_of_mem _ hj'))
        (place_ram_mark erased hmark hram _ j) ?_
      exact place_flash_ne_mark hmark herased hram (hwrite j List.mem_cons_self _ rfl) (.inl hflash)

lemma placeAll_ram_mark (hmark : MarkedAt content v i p) {order : List ℕ} {d : Device}
    (hram : ∀ k, d.ram (ramAddr + k) = v → k = p) (k : ℕ)
    (h : (d.placeAll erased flash shape content order).ram (ramAddr + k) = v) : k = p := by
  induction order generalizing d with
  | nil => exact hram k h
  | cons j order ih =>
      rw [Device.placeAll, List.foldl_cons, ← Device.placeAll] at h
      exact ih (place_ram_mark erased hmark hram _ j) h

/-- Two partitions with bytes do not start at one place. -/
lemma eq_of_off_eq {j : ℕ} (hoff : shape.off i = shape.off j) (hi : shape.len i ≠ 0)
    (hj : shape.len j ≠ 0) : i = j := by
  rcases Nat.lt_trichotomy i j with h | h | h
  · have := shape.off_add_len_le h
    omega
  · exact h
  · have := shape.off_add_len_le h
    omega

lemma writeLen_eq_zero {off len : ℕ} (h : len = 0) :
    (rawGeometry flash off len).writeLen = 0 := by
  cases flash <;> simp only [rawGeometry, roundUp] <;> omega

/-- **A mark in a block that is cleared later is lost.** -/
lemma placeAll_misplaced (hmark : MarkedAt content v i p) (herased : v ≠ erased)
    (hp : p < shape.len i) (hstart : ∀ off len, (rawGeometry flash off len).start = off)
    {before behind : List ℕ} {j : ℕ} (hnodup : i ∉ j :: behind)
    (hoverlap : BlockOverlaps (rawGeometry flash (shape.off j) (shape.len j)).block (shape.off j)
      (rawGeometry flash (shape.off j) (shape.len j)).eraseLen (shape.off i + p)) {d : Device}
    (hram : ∀ k, d.ram (ramAddr + k) = v → k = p) :
    (d.placeAll erased flash shape content (before ++ j :: behind)).flash (shape.off i + p) ≠
      v := by
  -- an image that writes the mark's position at this address is partition `i`
  have hwrite : ∀ j' ∈ j :: behind, ∀ g, g = rawGeometry flash (shape.off j') (shape.len j') →
      g.start ≤ shape.off i + p → shape.off i + p < g.start + g.writeLen →
      shape.off i + p - g.start ≠ p := by
    rintro j' hj' _ rfl hge hlt hpos
    rw [hstart] at hge hlt hpos
    have hlen : shape.len j' ≠ 0 := by
      intro hzero
      rw [writeLen_eq_zero hzero] at hlt
      omega
    obtain rfl := eq_of_off_eq (i := i) (j := j') (by omega) (by omega) hlen
    exact hnodup hj'
  rw [Device.placeAll, List.foldl_append, List.foldl_cons, ← Device.placeAll, ← Device.placeAll]
  have hram' : ∀ k, (d.placeAll erased flash shape content before).ram (ramAddr + k) = v → k = p :=
    placeAll_ram_mark hmark hram
  refine placeAll_ne_mark hmark herased (fun j' hj' => hwrite j' (List.mem_cons_of_mem _ hj'))
    (place_ram_mark erased hmark hram' _ j) ?_
  refine place_flash_ne_mark hmark herased hram' (hwrite j List.mem_cons_self _ rfl) (.inr ?_)
  rw [hstart]
  exact hoverlap

end

/-! ## Lengths that fit -/

/-- The write order depends on the names only. -/
lemma map_fst_writeOrder (partitions : List Partition) :
    (writeOrder partitions).map Prod.fst = nameOrder (partitions.map Prod.fst) := by
  have hswap : (partitions.map Prod.fst).zipIdx.map Prod.swap =
      (partitions.zipIdx.map Prod.swap).map fun p => (p.1, p.2.1) := by
    rw [List.zipIdx_map, List.map_map, List.map_map]
    rfl
  simp only [nameOrder, writeOrder]
  rw [hswap]
  generalize partitions.zipIdx.map Prod.swap = order
  rw [List.filter_map, List.filter_map, ← List.map_append, List.map_map]
  rfl

lemma Shape.nodup_order (shape : Shape) : shape.order.Nodup := by
  have hnames : shape.parts.map Prod.fst =
      (shape.parts.map fun part => (part.1, ([] : List UInt8))).map Prod.fst := by
    rw [List.map_map]
    rfl
  rw [Shape.order, hnames, ← map_fst_writeOrder]
  exact nodup_writeOrder _

/-- Lengths that fit let every image start where it should and clear no earlier one. -/
lemma Shape.Fits.clear {shape : Shape} {flash : FlashKind} (h : shape.Fits flash)
    (hflash : flash ≠ .other) :
    (∀ i, shape.len i ≠ 0 →
      (rawGeometry flash (shape.off i) (shape.len i)).start = shape.off i) ∧
      shape.order.Pairwise (shape.Clear flash) := by
  cases flash with
  | nand => exact ⟨fun _ _ => rfl, h⟩
  | nor => exact ⟨fun _ _ => rfl, h⟩
  | emmc =>
      refine ⟨fun i hi => Nat.div_mul_cancel (h i hi), shape.nodup_order.imp fun {i j} hne => ?_⟩
      by_cases hi : shape.len i = 0
      · exact .inl hi
      by_cases hj : shape.len j = 0
      · exact .inr (.inl hj)
      refine .inr (.inr ?_)
      have hdvdi := h i hi
      have hdvdj := h j hj
      simp only [rawGeometry, roundUp]
      rcases Nat.lt_or_gt_of_ne hne with hlt | hgt
      · have := shape.off_add_len_le hlt
        exact .inl (by omega)
      · have := shape.off_add_len_le hgt
        exact .inr (by omega)
  | other => exact absurd rfl hflash

/-- A list that is not ordered has two entries in the wrong order. -/
lemma exists_split_of_not_pairwise {α : Type} {R : α → α → Prop} {xs : List α}
    (h : ¬ xs.Pairwise R) : ∃ as a bs b cs, xs = as ++ a :: (bs ++ b :: cs) ∧ ¬ R a b := by
  induction xs with
  | nil => exact absurd List.Pairwise.nil h
  | cons x xs ih =>
      rw [List.pairwise_cons, not_and_or] at h
      rcases h with h | h
      · push Not at h
        obtain ⟨b, hb, hR⟩ := h
        obtain ⟨bs, cs, rfl⟩ := List.append_of_mem hb
        exact ⟨[], x, bs, b, cs, rfl, hR⟩
      · obtain ⟨as, a, bs, b, cs, rfl, hR⟩ := ih h
        exact ⟨x :: as, a, bs, b, cs, rfl, hR⟩

/-- Partitions that are not apart share an erase block that is cleared. -/
lemma Shape.exists_overlap {shape : Shape} {block i j : ℕ}
    (hblock : block = 0x20000 ∨ block = 0x10000) (h : ¬ shape.Apart block i j) :
    ∃ p < shape.len i,
      BlockOverlaps block (shape.off j) (roundUp block (shape.len j)) (shape.off i + p) := by
  simp only [Shape.Apart, not_or, not_le] at h
  obtain ⟨hi, hj, hbelow, habove⟩ := h
  refine ⟨max (shape.off i) (shape.off j / block * block) - shape.off i, ?_, ?_⟩
  · omega
  · simp only [BlockOverlaps, roundUp, lt_min_iff, max_lt_iff] at habove ⊢
    rcases hblock with rfl | rfl <;> omega

/-- Where the lengths do not fit, there is a place where a mark is lost. -/
lemma Shape.exists_lost_mark {shape : Shape} {flash : FlashKind} (h : ¬ shape.Fits flash)
    {erased v : UInt8} (herased : v ≠ erased) :
    ∃ i p, p < shape.len i ∧ ∀ (content : ℕ → List UInt8) (d : Device), MarkedAt content v i p →
      (∀ k, d.ram (ramAddr + k) = v → k = p) → (∀ x, d.flash x ≠ v) →
      (d.placeAll erased flash shape content shape.order).flash (shape.off i + p) ≠ v := by
  have hshared : ∀ block, (block = 0x20000 ∨ block = 0x10000) →
      (∀ off len, (rawGeometry flash off len).start = off ∧
        (rawGeometry flash off len).block = block ∧
        (rawGeometry flash off len).eraseLen = roundUp block len) →
      ¬ shape.order.Pairwise (shape.Apart block) →
      ∃ i p, p < shape.len i ∧ ∀ (content : ℕ → List UInt8) (d : Device), MarkedAt content v i p →
        (∀ k, d.ram (ramAddr + k) = v → k = p) → (∀ x, d.flash x ≠ v) →
        (d.placeAll erased flash shape content shape.order).flash (shape.off i + p) ≠ v := by
    intro block hblock hgeometry hnot
    obtain ⟨as, i, bs, j, cs, horder, hapart⟩ := exists_split_of_not_pairwise hnot
    obtain ⟨p, hp, hoverlap⟩ := Shape.exists_overlap hblock hapart
    refine ⟨i, p, hp, fun content d hmark hram _ => ?_⟩
    have hnodup : i ∉ j :: cs := by
      have := shape.nodup_order
      rw [horder, List.nodup_append] at this
      have hi := (List.nodup_cons.mp this.2.1).1
      exact fun hmem => hi (List.mem_append_right _ hmem)
    have hsplit : shape.order = (as ++ i :: bs) ++ j :: cs := by
      rw [horder, List.append_assoc, List.cons_append]
    rw [hsplit]
    refine placeAll_misplaced hmark herased hp (fun off len => (hgeometry off len).1) hnodup ?_ hram
    rw [(hgeometry _ _).2.1, (hgeometry _ _).2.2]
    exact hoverlap
  cases flash with
  | nand => exact hshared 0x20000 (.inl rfl) (fun _ _ => ⟨rfl, rfl, rfl⟩) h
  | nor => exact hshared 0x10000 (.inr rfl) (fun _ _ => ⟨rfl, rfl, rfl⟩) h
  | emmc =>
      simp only [Shape.Fits, not_forall] at h
      obtain ⟨i, hi, hoff⟩ := h
      refine ⟨i, 0, by omega, fun content d hmark hram hflash => ?_⟩
      refine placeAll_ne_mark hmark herased ?_ hram (hflash _)
      -- images start at blocks, the partition does not
      rintro j - _ rfl hge hlt hpos
      simp only [rawGeometry] at hge hpos
      exact hoff ⟨shape.off j / 512, by omega⟩
  | other =>
      simp only [Shape.Fits, not_forall] at h
      obtain ⟨i, hi⟩ := h
      refine ⟨i, 0, by omega, fun content d hmark hram hflash => ?_⟩
      refine placeAll_ne_mark hmark herased ?_ hram (hflash _)
      rintro j - _ rfl hge hlt hpos
      simp only [rawGeometry] at hlt
      omega

/-! ## The run -/

/-- The data of the partitions, by index. -/
def Dump.content (dump : Dump) (i : ℕ) : List UInt8 := ((dump.partitions[i]?).map Prod.snd).getD []

lemma Dump.HasShape.len_eq {dump : Dump} {shape : Shape} (h : dump.HasShape shape) (i : ℕ) :
    (dump.content i).length = shape.len i := by
  rw [Shape.len, ← h, List.map_map, List.getD_eq_getElem?_getD, List.getElem?_map, Dump.content]
  cases dump.partitions[i]? with
  | none => rfl
  | some part => rfl

lemma Dump.HasShape.order_eq {dump : Dump} {shape : Shape} (h : dump.HasShape shape) :
    (writeOrder dump.partitions).map Prod.fst = shape.order := by
  rw [map_fst_writeOrder, Shape.order, ← h, List.map_map]
  rfl

lemma Dump.HasShape.lens_eq {dump : Dump} {shape : Shape} (h : dump.HasShape shape) :
    (dump.partitions.map fun part => part.2.length) = shape.parts.map Prod.snd := by
  rw [← h, List.map_map]
  rfl

section

variable {py : PyChars} {cfg : RestoreConfig} {flash : FlashKind} {partitions : List Partition}
  {offsets : Dict ℕ ℕ}

/-- The device after the turns of raw partitions. -/
lemma execAll_turns (erased : UInt8) {files : Dict Text (List UInt8)} {shape : Shape}
    {content : ℕ → List UInt8} {order : List (ℕ × Partition)} {turns : List (ℕ × List Exchange)}
    (h : TurnsDialogue py cfg flash partitions offsets none order turns)
    (hraw : ∀ p ∈ order, ubiVolume flash p.2.2 = none)
    (hoffset : ∀ p ∈ order, offsets.get? p.1 = some (shape.off p.1))
    (hfile : ∀ p ∈ order, files.get? p.2.1 = some p.2.2)
    (hcontent : ∀ p ∈ order, content p.1 = p.2.2 ∧ p.2.2.length = shape.len p.1)
    (hgood : ∀ x ∈ turns.flatMap Prod.snd, DownloadOk x) (d : Device) :
    d.execAll erased files (turns.flatMap Prod.snd) =
      d.placeAll erased flash shape content (order.map Prod.fst) := by
  generalize hnone : (none : Option Partmap) = partmap? at h
  induction h generalizing d with
  | nil => rfl
  | cons hturn hturns ih =>
      rename_i partmap?₀ partmap?' idx part order xs turns
      subst hnone
      rw [List.flatMap_cons] at hgood ⊢
      have hxs := fun x hx => hgood x (List.mem_append_left _ hx)
      have hhead := hraw (idx, part) List.mem_cons_self
      cases hturn with
      | ubi hvolume _ =>
          rw [hhead] at hvolume
          cases hvolume
      | raw hvolume hat hsaid =>
          rename_i offset
          have hat' : offset = shape.off idx := by
            rw [partitionOffset, hoffset (idx, part) List.mem_cons_self] at hat
            exact (Except.ok.inj hat).symm
          subst hat'
          obtain ⟨hdata, hlen⟩ := hcontent (idx, part) List.mem_cons_self
          rw [Device.execAll, List.foldl_append, ← Device.execAll, ← Device.execAll,
            execAll_raw (hfile (idx, part) List.mem_cons_self) hsaid hxs,
            ih (fun p hp => hraw p (List.mem_cons_of_mem _ hp))
              (fun p hp => hoffset p (List.mem_cons_of_mem _ hp))
              (fun p hp => hfile p (List.mem_cons_of_mem _ hp))
              (fun p hp => hcontent p (List.mem_cons_of_mem _ hp))
              (fun x hx => hgood x (List.mem_append_right _ hx)) _ rfl,
            List.map_cons, Device.placeAll, Device.placeAll, List.foldl_cons, hdata, ← hlen]

end

lemma exec_of_isPlain {erased : UInt8} {files : Dict Text (List UInt8)} (d : Device) {x : Exchange}
    (h : x.1.isPlain = true) : d.exec erased files x = d := by
  obtain ⟨cmd, r⟩ := x
  cases cmd <;> first
    | exact absurd h Bool.false_ne_true
    | rfl

lemma execAll_of_isPlain {erased : UInt8} {files : Dict Text (List UInt8)} (d : Device)
    {xs : List Exchange} (h : ∀ x ∈ xs, x.1.isPlain = true) : d.execAll erased files xs = d := by
  induction xs with
  | nil => rfl
  | cons x xs ih =>
      rw [Device.execAll, List.foldl_cons, exec_of_isPlain d (h x List.mem_cons_self)]
      exact ih fun x' hx' => h x' (List.mem_cons_of_mem _ hx')

/-- The device after a restore of raw partitions without a layout. -/
lemma execAll_restore {py : PyChars} {erased : UInt8} {flash : FlashKind} {cfg : RestoreConfig}
    {dump : Dump} {shape : Shape} {script : List (Reading Response)} {n : ℕ}
    (hshape : dump.HasShape shape) (hraw : ∀ part ∈ dump.partitions, ubiVolume flash part.2 = none)
    (hlayout : cfg.mtdparts = []) (hflash : (detectFlash cfg script).result = .ok flash)
    (h : (restore py cfg dump.partitions script).result = .ok n)
    (hgood : ∀ x ∈ exchangesOf (restore py cfg dump.partitions script).trace, DownloadOk x)
    (d : Device) :
    d.execAll erased dump.partitions
        (exchangesOf (restore py cfg dump.partitions script).trace) =
      d.placeAll erased flash shape dump.content shape.order := by
  obtain ⟨flash', offsets, xs, turns, r, hflash', hoffsets, hplain, hturns, htrace⟩ :=
    restore_dialogue h
  obtain rfl := Except.ok.inj (hflash.symm.trans hflash')
  rw [htrace, exchangesOf_append, exchangesOf_append, exchangesOf_spoken,
    exchangesOf_turns] at hgood ⊢
  have hmem : ∀ p ∈ writeOrder dump.partitions, dump.partitions[p.1]? = some p.2 :=
    fun p hp => mem_writeOrder.mp hp
  have hcum : offsets = cumulativeOffsets 0 0 (shape.parts.map Prod.snd) := by
    rw [hlayout, hshape.lens_eq] at hoffsets
    exact (Except.ok.inj hoffsets).symm
  have hturns' : d.execAll erased dump.partitions (turns.flatMap Prod.snd) =
      d.placeAll erased flash shape dump.content
        ((writeOrder dump.partitions).map Prod.fst) := execAll_turns erased hturns
    (fun p hp => hraw p.2 (List.mem_of_getElem? (hmem p hp)))
    (fun p hp => by
      have hlt : p.1 < (shape.parts.map Prod.snd).length := by
        rw [← hshape.lens_eq, List.length_map]
        exact (List.getElem?_eq_some_iff.mp (hmem p hp)).1
      have hget := get?_cumulativeOffsets _ 0 0 hlt
      rw [Nat.zero_add, Nat.zero_add] at hget
      rw [hcum, hget]
      rfl)
    (fun p hp => Dict.get?_eq_some_of_mem dump.nodup (List.mem_of_getElem? (hmem p hp)))
    (fun p hp => by
      have hcontent : dump.content p.1 = p.2.2 := by
        rw [Dump.content, hmem p hp]
        rfl
      exact ⟨hcontent, hcontent ▸ hshape.len_eq p.1⟩)
    (fun x hx => hgood x (List.mem_append_right _ (List.mem_append_left _ hx))) d
  rw [Device.execAll, List.foldl_append, List.foldl_append, ← Device.execAll, ← Device.execAll,
    ← Device.execAll, execAll_of_isPlain d hplain, hturns', hshape.order_eq]
  refine execAll_of_isPlain _ fun x hx => ?_
  obtain rfl : x = (.reset, r) := List.mem_singleton.mp hx
  rfl

/-! ## A run on which every command succeeds -/

/-- An answer that pleases every question. -/
def goodResponse : Response := ⟨true, encodeAscii "is alive, done".toList⟩

/-- On a script of `k` such answers or more the program ends with a result as described, having
heard no other answer. -/
def Answered {α : Type} (k : ℕ) (p : Restore α) (q : α → Prop) : Prop :=
  ∀ n, k ≤ n → ∃ a m t, p (List.replicate n (.item goodResponse)) =
      ⟨.ok a, List.replicate m (.item goodResponse), t⟩ ∧
    n ≤ m + k ∧ q a ∧ ∀ x ∈ exchangesOf t, x.2 = goodResponse

namespace Answered

variable {α β : Type}

lemma pure {q : α → Prop} {a : α} (h : q a) : Answered 0 (Pure.pure a : Restore α) q :=
  fun n _ => ⟨a, n, [], rfl, le_rfl, h, fun _ hx => absurd hx List.not_mem_nil⟩

lemma bind {k l : ℕ} {p : Restore α} {q : α → Prop} {f : α → Restore β} {q' : β → Prop}
    (hp : Answered k p q) (hf : ∀ a, q a → Answered l (f a) q') :
    Answered (k + l) (p >>= f) q' := by
  intro n hn
  obtain ⟨a, m, t, hrun, hm, hq, hgood⟩ := hp n (by omega)
  obtain ⟨b, m', t', hrun', hm', hq', hgood'⟩ := hf a hq m (by omega)
  refine ⟨b, m', t ++ t', ?_, by omega, hq', fun x hx => ?_⟩
  · rw [bind_apply, hrun]
    dsimp only
    rw [hrun']
  · rw [exchangesOf_append] at hx
    rcases List.mem_append.mp hx with hx | hx
    · exact hgood x hx
    · exact hgood' x hx

lemma mono {k k' : ℕ} {p : Restore α} {q : α → Prop} (h : Answered k p q) (hk : k ≤ k') :
    Answered k' p q := by
  intro n hn
  obtain ⟨a, m, t, hrun, hm, hq, hgood⟩ := h n (by omega)
  exact ⟨a, m, t, hrun, by omega, hq, hgood⟩

lemma send (cmd : UbootCmd) : Answered 1 (Defib.send .shell cmd) (· = goodResponse.out) := by
  intro n hn
  obtain ⟨n, rfl⟩ := Nat.exists_eq_add_of_le' hn
  refine ⟨_, n, [.write (cmd, goodResponse)], ?_, le_rfl, rfl, fun x hx => ?_⟩
  · rw [Defib.send, if_neg (by simp), List.replicate_succ]
    rfl
  · obtain rfl : x = (cmd, goodResponse) := List.mem_singleton.mp hx
    rfl

lemma note (n : RestoreNote) : Answered 0 (Scripted.note n : Restore Unit) fun _ => True :=
  fun m _ => ⟨(), m, [.note n], rfl, le_rfl, trivial, fun _ hx => absurd hx List.not_mem_nil⟩

end Answered

section

variable {py : PyChars} {cfg : RestoreConfig} (hshell : cfg.console = .shell)

include hshell

lemma answered_setupNetwork : Answered 3 (setupNetwork cfg) fun _ => True := by
  have hping : Answered 1 (pingServer cfg 5) (· = true) := by
    rw [pingServer, hshell]
    refine Answered.bind (l := 0) (.send _) ?_
    rintro _ rfl
    rw [if_pos (by decide +kernel)]
    exact .pure rfl
  rw [setupNetwork, hshell]
  refine Answered.bind (k := 1) (l := 2) (.send _) fun _ _ => ?_
  refine Answered.bind (k := 1) (l := 1) (.send _) fun _ _ => ?_
  refine Answered.bind (k := 1) (l := 0) hping ?_
  rintro _ rfl
  exact .pure trivial

lemma answered_restoreRaw (flash : FlashKind) (name : Text) (offset len : ℕ) :
    Answered 3 (restoreRaw cfg.console flash name offset len) fun _ => True := by
  have hdownload : Answered 1 (download cfg.console name) (· = true) := by
    rw [download, hshell]
    refine Answered.bind (l := 0) (.send _) ?_
    rintro _ rfl
    rw [if_neg (by decide +kernel)]
    exact .pure (by decide +kernel)
  have hpair : ∀ cmd cmd' : UbootCmd, Answered 2 (do
      let _ ← send .shell cmd
      let _ ← send .shell cmd') fun _ => True := by
    intro cmd cmd'
    refine Answered.bind (k := 1) (l := 1) (.send _) fun _ _ => ?_
    exact Answered.bind (k := 1) (l := 0) (.send _) fun _ _ => .pure trivial
  rw [restoreRaw]
  refine Answered.bind (k := 1) (l := 2) hdownload ?_
  rintro _ rfl
  rw [if_pos rfl, hshell]
  cases flash with
  | nand => exact hpair _ _
  | nor => exact hpair _ _
  | emmc => exact hpair _ _
  | other => exact (Answered.pure trivial).mono (Nat.zero_le 2)

lemma answered_restorePartitions {flash : FlashKind} {partitions : List Partition}
    {offsets : Dict ℕ ℕ} {order : List (ℕ × Partition)}
    (hraw : ∀ p ∈ order, ubiVolume flash p.2.2 = none)
    (hoffset : ∀ p ∈ order, offsets.get? p.1 ≠ none) :
    Answered (3 * order.length) (restorePartitions py cfg flash partitions offsets none order)
      fun _ => True := by
  induction order with
  | nil => exact .pure trivial
  | cons p order ih =>
      obtain ⟨idx, part⟩ := p
      obtain ⟨offset, hget⟩ :=
        Option.ne_none_iff_exists'.mp (hoffset (idx, part) List.mem_cons_self)
      have hturn : Answered 3 (restorePartition py cfg flash partitions offsets none idx part)
          (· = none) := by
        rw [restorePartition]
        refine Answered.bind (k := 0) (l := 3) (.note _) fun _ _ => ?_
        have hlift : Scripted.lift (partitionOffset offsets none idx) =
            (pure offset : Restore ℕ) := by
          rw [partitionOffset, hget]
          rfl
        rw [hlift, pure_bind, hraw (idx, part) List.mem_cons_self]
        refine Answered.bind (k := 3) (l := 0)
          (answered_restoreRaw hshell flash part.1 offset part.2.length) fun _ _ => .pure rfl
      rw [restorePartitions, List.length_cons, Nat.mul_succ, Nat.add_comm]
      refine Answered.bind hturn ?_
      rintro _ rfl
      exact ih (fun p hp => hraw p (List.mem_cons_of_mem _ hp))
        fun p hp => hoffset p (List.mem_cons_of_mem _ hp)

variable (py) in
/-- There is a run on which every command succeeds. -/
lemma exists_answered_restore {flash : FlashKind} (hflash : cfg.flashType = some flash)
    (hlayout : cfg.mtdparts = []) {partitions : List Partition}
    (hraw : ∀ part ∈ partitions, ubiVolume flash part.2 = none) :
    ∃ script, (detectFlash cfg script).result = .ok flash ∧
      (restore py cfg partitions script).result = .ok partitions.length ∧
      ∀ x ∈ exchangesOf (restore py cfg partitions script).trace, x.2 = goodResponse := by
  have hdetect : detectFlash cfg = pure flash := by rw [detectFlash, hflash]
  have hrun : Answered (3 + (3 * (writeOrder partitions).length + (0 + 1)))
      (restore py cfg partitions) (· = partitions.length) := by
    rw [restore, hdetect, pure_bind]
    refine Answered.bind (answered_setupNetwork hshell) fun _ _ => ?_
    have hlift : Scripted.lift (restoreOffsets py flash cfg.mtdparts
        (partitions.map fun part => part.2.length)) =
          (pure (cumulativeOffsets 0 0 (partitions.map fun part => part.2.length)) :
            Restore (Dict ℕ ℕ)) := by
      rw [hlayout]
      rfl
    rw [hlift, pure_bind]
    refine Answered.bind (answered_restorePartitions hshell
      (fun p hp => hraw p.2 (List.mem_of_getElem? (mem_writeOrder.mp hp))) fun p hp => ?_)
      fun _ _ => ?_
    · have hlt : p.1 < (partitions.map fun part => part.2.length).length := by
        rw [List.length_map]
        exact (List.getElem?_eq_some_iff.mp (mem_writeOrder.mp hp)).1
      have hget := get?_cumulativeOffsets _ 0 0 hlt
      rw [Nat.zero_add] at hget
      rw [hget]
      exact Option.some_ne_none _
    · refine Answered.bind (.note _) fun _ _ => ?_
      rw [hshell]
      exact Answered.bind (k := 1) (l := 0) (.send _) fun _ _ => .pure rfl
  obtain ⟨n, m, t, h, -, rfl, hgood⟩ := hrun _ le_rfl
  refine ⟨List.replicate (3 + (3 * (writeOrder partitions).length + (0 + 1)))
    (.item goodResponse), ?_, ?_, ?_⟩
  · rw [hdetect]
    rfl
  · rw [h]
  · rw [h]
    exact hgood

end

/-! ## The theorem -/

/-- Every restore of raw partitions of this shape without a layout, in which every download works,
leaves every partition at the sum of the lengths before it. -/
def PlacesAll (py : PyChars) (erased : UInt8) (flash : FlashKind) (shape : Shape) : Prop :=
  ∀ (cfg : RestoreConfig) (dump : Dump) (script : List (Reading Response)) (n : ℕ) (d : Device),
    dump.HasShape shape → (∀ part ∈ dump.partitions, ubiVolume flash part.2 = none) →
    cfg.mtdparts = [] → (detectFlash cfg script).result = .ok flash →
    (restore py cfg dump.partitions script).result = .ok n →
    (∀ x ∈ exchangesOf (restore py cfg dump.partitions script).trace, DownloadOk x) →
    ∀ i part, dump.partitions[i]? = some part → ∀ k < part.2.length,
      (d.execAll erased dump.partitions
        (exchangesOf (restore py cfg dump.partitions script).trace)).flash (shape.off i + k) =
          part.2.getD k 0

/-- Data of this length with one byte that is not zero, if any. -/
def markedData (v : UInt8) (p? : Option ℕ) (len : ℕ) : List UInt8 :=
  (List.range len).map fun k => if p? = some k then v else 0

lemma length_markedData (v : UInt8) (p? : Option ℕ) (len : ℕ) :
    (markedData v p? len).length = len := by
  rw [markedData, List.length_map, List.length_range]

lemma markedData_getElem? (v : UInt8) (p? : Option ℕ) {len k : ℕ} (hk : k < len) :
    (markedData v p? len)[k]? = some (if p? = some k then v else 0) := by
  rw [markedData, List.getElem?_map, List.getElem?_range hk]
  rfl

/-- It is not a UBI image: the magics start with two bytes that are not zero. -/
lemma ubiVolume_markedData (flash : FlashKind) (v : UInt8) (p? : Option ℕ) (len : ℕ) :
    ubiVolume flash (markedData v p? len) = none := by
  have hmagic : ∀ magic : List UInt8, magic[0]? ≠ some 0 → magic[1]? ≠ some 0 →
      ¬ (decide ((markedData v p? len).length ≥ 4) &&
        (markedData v p? len).take 4 == magic) = true := by
    intro magic h₀ h₁ h
    rw [Bool.and_eq_true, decide_eq_true_eq, beq_iff_eq, length_markedData] at h
    obtain ⟨hlen, rfl⟩ := h
    rw [List.getElem?_take_of_lt (by omega), markedData_getElem? v p? (by omega)] at h₀ h₁
    have hp₀ : p? = some 0 := by
      by_contra hne
      exact h₀ (by rw [if_neg hne])
    have hp₁ : p? = some 1 := by
      by_contra hne
      exact h₁ (by rw [if_neg hne])
    rw [hp₀] at hp₁
    cases hp₁
  rw [ubiVolume, isUbiImage, isUbifsImage, if_neg (hmagic ubiEcMagic (by decide) (by decide)),
    if_neg (hmagic ubifsMagic (by decide) (by decide)), ite_self]

namespace Shape

variable (shape : Shape) (v : UInt8) (i p : ℕ)

/-- Partitions of this shape with one byte that is not zero: byte `p` of partition `i`. -/
def markedPartitions : List Partition :=
  shape.parts.mapIdx fun j part =>
    (part.1, markedData v (if j = i then some p else none) part.2)

lemma markedPartitions_getElem? (j : ℕ) :
    (shape.markedPartitions v i p)[j]? = shape.parts[j]?.map fun part =>
      (part.1, markedData v (if j = i then some p else none) part.2) := by
  rw [markedPartitions, List.getElem?_mapIdx]

lemma map_markedPartitions :
    ((shape.markedPartitions v i p).map fun part => (part.1, part.2.length)) = shape.parts := by
  refine List.ext_getElem? fun j => ?_
  rw [List.getElem?_map, markedPartitions_getElem?]
  cases shape.parts[j]? with
  | none => rfl
  | some part => simp [length_markedData]

/-- The dump of these partitions. -/
def markedDump : Dump where
  partitions := shape.markedPartitions v i p
  nodup := by
    have hnames : (shape.markedPartitions v i p).map Prod.fst = shape.parts.map Prod.fst := by
      rw [← shape.map_markedPartitions v i p, List.map_map]
      rfl
    rw [hnames]
    exact shape.nodup

lemma markedDump_content (j : ℕ) :
    (shape.markedDump v i p).content j =
      markedData v (if j = i then some p else none) (shape.len j) := by
  rw [Dump.content, markedDump, markedPartitions_getElem?, len, List.getD_eq_getElem?_getD,
    List.getElem?_map]
  cases shape.parts[j]? with
  | none => rfl
  | some part => rfl

/-- The byte is found nowhere else. -/
lemma markedAt_markedDump {v : UInt8} (hv : v ≠ 0) :
    MarkedAt (shape.markedDump v i p).content v i p := by
  intro j k hk hbyte
  rw [markedDump_content] at hk hbyte
  rw [length_markedData] at hk
  rw [List.getD_eq_getElem?_getD, markedData_getElem? v _ hk, Option.getD_some] at hbyte
  by_cases hj : j = i
  · rw [if_pos hj] at hbyte
    by_cases hkp : some p = some k
    · exact ⟨hj, (Option.some.inj hkp).symm⟩
    · rw [if_neg hkp] at hbyte
      exact absurd hbyte.symm hv
  · rw [if_neg hj, if_neg (Option.some_ne_none k).symm] at hbyte
    exact absurd hbyte.symm hv

end Shape

/-- A run of a restore of raw partitions in which every command succeeds. -/
lemma exists_good_restore (py : PyChars) (flash : FlashKind) {partitions : List Partition}
    (hraw : ∀ part ∈ partitions, ubiVolume flash part.2 = none) :
    ∃ (cfg : RestoreConfig) (script : List (Reading Response)), cfg.mtdparts = [] ∧
      (detectFlash cfg script).result = .ok flash ∧
      (restore py cfg partitions script).result = .ok partitions.length ∧
      ∀ x ∈ exchangesOf (restore py cfg partitions script).trace, DownloadOk x := by
  let cfg : RestoreConfig := ⟨.shell, some flash, [], [], []⟩
  have hshell : cfg.console = .shell := rfl
  obtain ⟨script, hdetect, hresult, hgood⟩ := exists_answered_restore py hshell rfl rfl hraw
  refine ⟨cfg, script, rfl, hdetect, hresult, fun x hx => ?_⟩
  have hok : tftpOk goodResponse.out = true := by decide +kernel
  obtain ⟨cmd, r⟩ := x
  obtain rfl : r = goodResponse := hgood _ hx
  cases cmd with
  | tftpboot addr name => exact .inr hok
  | tftp addr name => exact hok
  | _ => trivial

/-- Where the lengths fit, every partition is in its place. -/
lemma placesAll_of_fits (py : PyChars) (erased : UInt8) {flash : FlashKind} {shape : Shape}
    (hfits : shape.Fits flash) : PlacesAll py erased flash shape := by
  intro cfg dump script n d hshape hraw hlayout hdetect hresult hgood i part hpart k hk
  have hcontent : dump.content i = part.2 := by
    rw [Dump.content, hpart]
    rfl
  have hlen : part.2.length = shape.len i := hcontent ▸ hshape.len_eq i
  have hflash : flash ≠ .other := by
    rintro rfl
    have := hfits i
    omega
  obtain ⟨hstart, hclear⟩ := hfits.clear hflash
  have hi : i ∈ shape.order := by
    rw [← hshape.order_eq]
    exact List.mem_map.mpr ⟨(i, part), mem_writeOrder.mpr hpart, rfl⟩
  rw [execAll_restore hshape hraw hlayout hdetect hresult hgood, ← hcontent]
  exact placeAll_flash hflash hshape.len_eq (fun j _ => hstart j) hclear hi (by omega) d

/-- Where they do not fit, a dump with one marked byte loses it. -/
lemma fits_of_placesAll {py : PyChars} {erased : UInt8} {flash : FlashKind} {shape : Shape}
    (hplaces : PlacesAll py erased flash shape) : shape.Fits flash := by
  by_contra hfits
  -- a byte that neither erased nor empty flash reads as
  obtain ⟨v, hv, herased⟩ : ∃ v : UInt8, v ≠ 0 ∧ v ≠ erased := by
    by_cases h : erased = 1
    · exact ⟨2, by decide, by rw [h]; decide⟩
    · exact ⟨1, by decide, fun h' => h h'.symm⟩
  obtain ⟨i, p, hp, hlost⟩ := Shape.exists_lost_mark hfits herased
  set dump := shape.markedDump v i p with hdump
  have hshape : dump.HasShape shape := shape.map_markedPartitions v i p
  have hraw : ∀ part ∈ dump.partitions, ubiVolume flash part.2 = none := by
    intro part hpart
    obtain ⟨j, hj, rfl⟩ := List.mem_mapIdx.mp hpart
    exact ubiVolume_markedData flash v _ _
  obtain ⟨cfg, script, hlayout, hdetect, hresult, hgood⟩ := exists_good_restore py flash hraw
  obtain ⟨part, hpart⟩ : ∃ part, dump.partitions[i]? = some part := by
    refine Option.ne_none_iff_exists'.mp fun hnone => ?_
    have hlen := hshape.len_eq i
    rw [Dump.content, hnone] at hlen
    rw [← hlen] at hp
    exact absurd hp (Nat.not_lt_zero p)
  have hcontent : part.2 = markedData v (some p) (shape.len i) := by
    have h := shape.markedDump_content v i p i
    rw [← hdump, Dump.content, hpart, if_pos rfl] at h
    exact h
  have hbyte := hplaces cfg dump script _ ⟨fun _ => 0, fun _ => 0⟩ hshape hraw hlayout hdetect
    hresult hgood i part hpart p (by rw [hcontent, length_markedData]; exact hp)
  rw [execAll_restore hshape hraw hlayout hdetect hresult hgood, hcontent,
    List.getD_eq_getElem?_getD, markedData_getElem? v _ hp, if_pos rfl] at hbyte
  refine hlost dump.content _ (shape.markedAt_markedDump i p hv) ?_ ?_ hbyte
  · exact fun k hk => absurd hk.symm hv
  · exact fun x => hv.symm

/-- **A restore puts every partition of a shape in its place exactly when the lengths fit.** -/
theorem restore_places_iff (py : PyChars) (erased : UInt8) (flash : FlashKind) (shape : Shape) :
    PlacesAll py erased flash shape ↔ shape.Fits flash :=
  ⟨fits_of_placesAll, placesAll_of_fits py erased⟩

lemma nodup_bootEnv : (["boot".toList, "env".toList]).Nodup := by decide

/-- Two partitions of one byte each. -/
def bootEnvDump : Dump := ⟨[("boot".toList, [1]), ("env".toList, [2])], nodup_bootEnv⟩

/-- On NOR the boot partition is written last, and the erase for it clears the other one: every
command succeeds, success is reported, and the byte is gone. -/
theorem restore_clears_neighbour :
    let run := restore .ascii norConfig bootEnvDump.partitions
      (List.replicate 10 (.item goodResponse))
    run.result = .ok 2 ∧ (exchangesOf run.trace).map Prod.snd = List.replicate 10 goodResponse ∧
      ((⟨fun _ => 0, fun _ => 0⟩ : Device).execAll 0xFF bootEnvDump.partitions
        (exchangesOf run.trace)).flash (0 + 1) = 0xFF ∧
      bootEnvDump.content 1 = [2] := by
  refine ⟨by decide +kernel, by decide +kernel, by decide +kernel, rfl⟩

end Defib
