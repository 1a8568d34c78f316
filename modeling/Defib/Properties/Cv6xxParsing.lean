import Defib.Boot.Cv6xxImage

/-!
# The two parsers of CV6xx boot files

The parsers of the host and of the browser read the same fields and accept nearly the same files.
They differ where an index of the board mapping is not in the table, where the mapping is missing,
and where the DDR section runs past the end of the file: `parsersAgree_iff` says exactly when they
agree.
-/

namespace Defib

/-- Both parsers reject a file, or both accept it and make the same images of it. -/
structure ParsersAgree (file : List UInt8) : Prop where
  accepts : (∃ images, webImages file = .ok images) ↔ ∃ images, cliImages file = .ok images
  images_eq : ∀ web cli, webImages file = .ok web → cliImages file = .ok cli →
    web.gsl = cli.gsl ∧ web.ddrTable = cli.ddrTable ∧ web.uboot = cli.uboot

lemma parsersAgree_iff_toOption {file : List UInt8} :
    ParsersAgree file ↔ (webImages file).toOption = (cliImages file).toOption := by
  constructor
  · rintro ⟨haccepts, himages⟩
    cases hweb : webImages file with
    | error e =>
        cases hcli : cliImages file with
        | error e' => rfl
        | ok cli =>
            obtain ⟨web, hok⟩ := haccepts.mpr ⟨cli, hcli⟩
            rw [hweb] at hok
            cases hok
    | ok web =>
        obtain ⟨cli, hcli⟩ := haccepts.mp ⟨web, hweb⟩
        obtain ⟨hgsl, hddr, huboot⟩ := himages web cli hweb hcli
        have heq : web = cli := by
          cases web
          cases cli
          simp_all
        rw [hcli, heq]
  · intro h
    cases hweb : webImages file with
    | error e =>
        rw [hweb] at h
        cases hcli : cliImages file with
        | error e' => exact ⟨by simp [hweb, hcli], by simp [hweb]⟩
        | ok cli =>
            rw [hcli] at h
            cases h
    | ok web =>
        rw [hweb] at h
        cases hcli : cliImages file with
        | error e =>
            rw [hcli] at h
            cases h
        | ok cli =>
            rw [hcli] at h
            obtain rfl : web = cli := Option.some.inj h
            refine ⟨by simp [hweb, hcli], fun images images' hok hok' => ?_⟩
            rw [hweb] at hok
            rw [hcli] at hok'
            cases hok
            cases hok'
            exact ⟨rfl, rfl, rfl⟩

namespace Layout

/-- The browser picks the host's table: the index is in the table, or there is a single one, or
the tables the two pick have the same bytes. -/
def SelectsSame (L : Layout) (file : List UInt8) (m : UInt8) : Prop :=
  m.toNat < L.tableCount ∨ L.tableCount = 1 ∨
    (L.webTable file m).rightpad L.tableSize 0 = L.table file 0

/-- The board mapping and the DDR section lie inside the file, and both parsers pick the same
table. -/
structure Complete (L : Layout) (file : List UInt8) : Prop where
  header : (L.header file).length = 2048
  table : ∃ m, L.mapped file = some m ∧ L.SelectsSame file m ∧
    (L.table file (L.cliIndex m)).length = L.tableSize

end Layout

lemma sliceAt_of_nonneg (data : List UInt8) (k n : ℕ) :
    Web.sliceAt data (some (k : ℤ)) (some ((k : ℤ) + n)) = (data.drop k).take n := by
  have hstart : Web.relativeIndex data.length (some (k : ℤ)) = min k data.length := by
    rw [Web.relativeIndex, if_neg (by omega), Int.toNat_natCast]
  have hstop : Web.relativeIndex data.length (some ((k : ℤ) + n)) = min (k + n) data.length := by
    rw [Web.relativeIndex, if_neg (by omega)]
    congr 1
  have hdrop : data.drop (min k data.length) = data.drop k := by
    rw [List.drop_eq_drop_iff]
    omega
  rw [Web.sliceAt, hstart, hstop, hdrop, List.take_eq_take_iff, List.length_drop]
  omega

variable {L : Layout} {file : List UInt8} {m : UInt8}

/-- An index that the host keeps, or a single table. -/
lemma webTable_eq_table (h : m.toNat < L.tableCount ∨ L.tableCount = 1) :
    L.webTable file m = L.table file (L.cliIndex m) := by
  have hindex : min (m.toNat : ℤ) ((L.tableCount : ℤ) - 1) = (L.cliIndex m : ℕ) := by
    rw [Layout.cliIndex]
    split <;> omega
  have hoffset : L.webOffset m =
      ((L.gslSize + 2048 + L.offset32 + L.cliIndex m * L.tableSize : ℕ) : ℤ) := by
    rw [Layout.webOffset, hindex]
    push_cast
    rfl
  rw [Layout.webTable, hoffset, sliceAt_of_nonneg, Layout.table]

lemma rightpad_eq_self {bytes : List UInt8} {n : ℕ} (h : bytes.length = n) :
    bytes.rightpad n 0 = bytes := by simp [List.rightpad, h]

/-- The DDR sections are the same exactly if that of the host is complete and the tables are the
same. -/
lemma ddrSection_eq_iff {header table table' : List UInt8} {n k : ℕ} (hheader : header.length ≤ n)
    (htable : table.length ≤ k) (htable' : table'.length ≤ k) :
    header.rightpad n 0 ++ table'.rightpad k 0 = header ++ table ↔
      header.length = n ∧ table.length = k ∧ table'.rightpad k 0 = table := by
  constructor
  · intro h
    have hlength := congrArg List.length h
    rw [List.length_append, List.length_append, List.length_rightpad,
      List.length_rightpad] at hlength
    have hfull : header.length = n := by omega
    rw [rightpad_eq_self hfull] at h
    exact ⟨hfull, by omega, List.append_cancel_left h⟩
  · rintro ⟨hfull, -, heq⟩
    rw [rightpad_eq_self hfull, heq]

lemma webImages_eq_cliImages_iff :
    some (L.webImages file) = L.cliImages file ↔ L.Complete file := by
  have hheader : (L.header file).length ≤ 2048 := by simp [Layout.header]
  have htable : ∀ i, (L.table file i).length ≤ L.tableSize := fun i => by simp [Layout.table]
  have hweb : ∀ m, (L.webTable file m).length ≤ L.tableSize := fun m =>
    length_sliceAt_le file (L.webOffset m) L.tableSize
  rw [Layout.cliImages, Layout.webImages]
  cases hmapped : L.mapped file with
  | none =>
      constructor
      · intro h
        cases h
      · rintro ⟨-, m, hm, -⟩
        rw [hmapped] at hm
        cases hm
  | some m =>
      have hiff := ddrSection_eq_iff hheader (htable (L.cliIndex m)) (hweb m)
      simp only [Option.map_some, Option.getD_some, Option.some.injEq, BootImages.mk.injEq,
        true_and, and_true, hiff]
      constructor
      · rintro ⟨hfull, hlength, heq⟩
        refine ⟨hfull, m, hmapped, ?_, hlength⟩
        by_cases hlt : m.toNat < L.tableCount
        · exact .inl hlt
        · rw [Layout.cliIndex, if_neg hlt] at heq
          exact .inr (.inr heq)
      · rintro ⟨hfull, m', hm', hsame, hlength⟩
        obtain rfl : m = m' := Option.some.inj (hmapped.symm.trans hm')
        have hkeep : m.toNat < L.tableCount ∨ L.tableCount = 1 →
            (L.webTable file m).rightpad L.tableSize 0 = L.table file (L.cliIndex m) := by
          intro h
          rw [webTable_eq_table h, rightpad_eq_self hlength]
        refine ⟨hfull, hlength, ?_⟩
        by_cases hlt : m.toNat < L.tableCount
        · exact hkeep (.inl hlt)
        · rcases hsame with hlt' | hone | heq
          · exact absurd hlt' hlt
          · exact hkeep (.inr hone)
          · rw [Layout.cliIndex, if_neg hlt]
            exact heq

/-- **When the two parsers agree.** -/
theorem parsersAgree_iff (file : List UInt8) :
    ParsersAgree file ↔ ∀ L, layout file = some L → L.Complete file := by
  rw [parsersAgree_iff_toOption, webImages_toOption, cliImages_toOption]
  cases layout file with
  | none => simp
  | some L =>
      rw [Option.map_some, Option.bind_some, webImages_eq_cliImages_iff]
      simp

/-- A boot file with two DDR tables of two bytes, `mapped` being the first entry of the board
mapping. -/
def twoTables (mapped : UInt8) : List UInt8 := List.flatten
  [List.replicate 2048 0, packU32 cv6xxGslMagic, List.replicate 32 0, packU32 0,
    List.replicate 2008 0, packU32 cv6xxDdrParamsMagic, List.replicate 28 0,
    -- the offset, the size and the number of the tables
    packU32 0, packU32 2, packU32 2,
    packU32 cv6xxUbootMagic, List.replicate 32 0, packU32 0,
    List.replicate 216 0, [mapped], List.replicate 723 0, [0x11, 0x11], [0x22, 0x22]]

/-- An index past the tables: the browser sends the last table, and the host the first. -/
theorem parsers_differ_past_the_tables : ¬ ParsersAgree (twoTables 2) := by
  have hlayout : layout (twoTables 2) = some ⟨3072, 0, 2, 2, 4140, 0⟩ := by decide +kernel
  have hmapped : Layout.mapped ⟨3072, 0, 2, 2, 4140, 0⟩ (twoTables 2) = some 2 := by decide +kernel
  have htables : (Layout.webTable ⟨3072, 0, 2, 2, 4140, 0⟩ (twoTables 2) 2).rightpad 2 0 ≠
      Layout.table ⟨3072, 0, 2, 2, 4140, 0⟩ (twoTables 2) 0 := by decide +kernel
  rw [parsersAgree_iff_toOption, webImages_toOption, cliImages_toOption, hlayout, Option.map_some,
    Option.bind_some, webImages_eq_cliImages_iff]
  rintro ⟨-, m, hm, hsame, -⟩
  obtain rfl : 2 = m := Option.some.inj (hmapped.symm.trans hm)
  rcases hsame with hlt | hone | heq
  · exact absurd hlt (by decide)
  · exact absurd hone (by decide)
  · exact htables heq

end Defib
