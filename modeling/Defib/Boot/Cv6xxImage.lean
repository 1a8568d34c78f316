import Mathlib.Data.List.Basic
import Mathlib.Tactic.Common
import Defib.Boot.Web
import Defib.Wire.Packet

/-!
# Boot files of the CV6xx

A boot file has three sections, found through each other: a GSL that starts the file, DDR
parameters with a table for every kind of board, and U-Boot, which is searched for.  Two parsers
take it apart, `parse_cv6xx_boot` with `build_ddr_table` in `protocol/hisilicon_cv6xx.py` and
`parseCv6xxBoot` in `web/protocol.js`.

Both read the same fields (`layout`), and `cliImages_toOption` and `webImages_toOption` say what
each makes of them.
-/

namespace Defib

/-- `CV6XX_GSL_MAGIC`. -/
def cv6xxGslMagic : ℕ := 0x4BB4D22D
/-- `CV6XX_DDR_PARAMS_MAGIC`. -/
def cv6xxDdrParamsMagic : ℕ := 0x4B87A52D
/-- `CV6XX_UBOOT_MAGIC`. -/
def cv6xxUbootMagic : ℕ := 0x4BF01E2D

/-- What a parser makes of a boot file: the bytes to send in each stage. -/
structure BootImages where
  gsl : List UInt8
  ddrTable : List UInt8
  uboot : List UInt8
  deriving DecidableEq, Repr

/-- Go on if a condition holds. -/
def require (cond : Prop) [Decidable cond] (err : String) : Except String Unit :=
  if cond then .ok () else .error err

/-! ## The parser of the host -/

namespace HiSiliconCV6xx

/-- `struct.unpack("<I", bytes)[0]`. -/
def structUnpackLe32 (bytes : List UInt8) : Except String ℕ :=
  if bytes.length = 4 then .ok (readLe32 bytes)
  else .error "unpack requires a buffer of 4 bytes"

/-- `bytes.find(sub)`. -/
def findBytes (sub : List UInt8) : List UInt8 → Option ℕ
  | [] => if sub = [] then some 0 else none
  | b :: bs => if sub.isPrefixOf (b :: bs) then some 0 else (findBytes sub bs).map (· + 1)

/-- A number in the format `08X`. -/
def hex08X (n : ℕ) : String :=
  String.ofList (((Nat.toDigits 16 n).map Char.toUpper).leftpad 8 '0')

/-- `CV6xxBootParts`. -/
structure Cv6xxBootParts where
  gslData : List UInt8
  gslSize : ℕ
  paramsStart : ℕ
  offset32 : ℕ
  tableCount : ℕ
  tableSize : ℕ
  boardMapping : List UInt8
  ubootData : List UInt8
  fileData : List UInt8
  deriving DecidableEq, Repr

/-- `parse_cv6xx_boot`. -/
def parseCv6xxBoot (fileData : List UInt8) : Except String Cv6xxBootParts := do
  let magicGsl ← structUnpackLe32 ((fileData.drop 2048).take 4)
  require (magicGsl = cv6xxGslMagic) ("Invalid GSL magic: expected 0x" ++ hex08X cv6xxGslMagic ++
    ", got 0x" ++ hex08X magicGsl)
  let gslLen ← structUnpackLe32 ((fileData.drop 2084).take 4)
  let gslSize := gslLen + 3072
  let paramsStart := gslSize + 1024
  let magicParams ← structUnpackLe32 ((fileData.drop paramsStart).take 4)
  require (magicParams = cv6xxDdrParamsMagic) ("Invalid DDR params magic: expected 0x" ++
    hex08X cv6xxDdrParamsMagic ++ ", got 0x" ++ hex08X magicParams)
  let offset32 ← structUnpackLe32 ((fileData.drop (paramsStart + 32)).take 4)
  let tableSize ← structUnpackLe32 ((fileData.drop (paramsStart + 36)).take 4)
  let tableCount ← structUnpackLe32 ((fileData.drop (paramsStart + 40)).take 4)
  match findBytes (packU32 cv6xxUbootMagic) (fileData.drop paramsStart) with
  | none => .error ("U-Boot magic 0x" ++ hex08X cv6xxUbootMagic ++ " not found")
  | some i =>
      let ubootMagicOffset := paramsStart + i
      let ubootLen ← structUnpackLe32 ((fileData.drop (ubootMagicOffset + 36)).take 4)
      let ubootSize := ubootLen + 1024
      pure {
        gslData := fileData.take gslSize
        gslSize := gslSize
        paramsStart := paramsStart
        offset32 := offset32
        tableCount := tableCount
        tableSize := tableSize
        boardMapping := (fileData.drop (paramsStart + 300)).take 8
        ubootData := (fileData.drop ubootMagicOffset).take ubootSize
        fileData := fileData }

/-- `build_ddr_table`.  Indexing an empty mapping raises. -/
def buildDdrTable (parts : Cv6xxBootParts) (boardId : ℕ) : Except String (List UInt8) :=
  let mapping := parts.boardMapping
  match mapping[if boardId < mapping.length then boardId else 0]? with
  | none => .error "index out of range"
  | some mapped =>
      let mappedIndex := if mapped.toNat ≥ parts.tableCount then 0 else mapped.toNat
      let tableOffset := parts.gslSize + 2048 + parts.offset32 + mappedIndex * parts.tableSize
      .ok ((parts.fileData.drop parts.gslSize).take 2048 ++
        (parts.fileData.drop tableOffset).take parts.tableSize)

end HiSiliconCV6xx

/-- The images of `parse_cv6xx_boot(file)` and `build_ddr_table(parts, 0)`. -/
def cliImages (file : List UInt8) : Except String BootImages := do
  let parts ← HiSiliconCV6xx.parseCv6xxBoot file
  let ddrTable ← HiSiliconCV6xx.buildDdrTable parts 0
  pure ⟨parts.gslData, ddrTable, parts.ubootData⟩

/-! ## The parser of the browser -/

namespace Web

/-- `view.getUint32(pos, true)`. -/
def getUint32 (data : List UInt8) (pos : ℕ) : Except String ℕ :=
  if pos + 4 ≤ data.length then .ok (readLe32 (data.drop pos))
  else .error "Offset is outside the bounds of the DataView"

/-- A number in the format of `toString(16)`. -/
def toString16 (n : ℕ) : String := String.ofList (Nat.toDigits 16 n)

/-- The search for U-Boot, from where it starts.  It ends four bytes before the end, so that the
last four are not looked at. -/
def searchUboot : List UInt8 → Option ℕ
  | b₀ :: b₁ :: b₂ :: b₃ :: b₄ :: bs =>
      if b₀ = 0x2D ∧ b₁ = 0x1E ∧ b₂ = 0xF0 ∧ b₃ = 0x4B then some 0
      else (searchUboot (b₁ :: b₂ :: b₃ :: b₄ :: bs)).map (· + 1)
  | _ => none

/-- An argument of `slice`.  `NaN`, here `none`, is 0, and a negative number counts from the
end. -/
def relativeIndex (length : ℕ) : Option ℤ → ℕ
  | none => 0
  | some k => if k < 0 then (length + k).toNat else min k.toNat length

/-- `data.slice(start, stop)`, for numbers that may be negative or `NaN`. -/
def sliceAt (data : List UInt8) (start stop : Option ℤ) : List UInt8 :=
  (data.drop (relativeIndex data.length start)).take
    (relativeIndex data.length stop - relativeIndex data.length start)

/-- `buf.set(src, offset)`. -/
def setBytes (buf src : List UInt8) (offset : ℕ) : Except String (List UInt8) :=
  if offset + src.length ≤ buf.length then
    .ok (buf.take offset ++ src ++ buf.drop (offset + src.length))
  else .error "offset is out of bounds"

/-- The sections of `parseCv6xxBoot`. -/
structure Cv6xxParts where
  gslData : List UInt8
  gslSize : ℕ
  ddrTable : List UInt8
  ubootData : List UInt8
  tableCount : ℕ
  tableSize : ℕ
  deriving DecidableEq, Repr

def parseCv6xxBoot (data : List UInt8) : Except String Cv6xxParts := do
  let gslMagic ← getUint32 data 2048
  require (gslMagic = 0x4BB4D22D) ("Invalid GSL magic: 0x" ++ toString16 gslMagic)
  let gslLen ← getUint32 data 2084
  let gslSize := gslLen + 3072
  let gslData := slice data 0 gslSize
  let paramsStart := gslSize + 1024
  let paramsMagic ← getUint32 data paramsStart
  require (paramsMagic = 0x4B87A52D) ("Invalid DDR params magic: 0x" ++ toString16 paramsMagic)
  let offset32 ← getUint32 data (paramsStart + 32)
  let tableSize ← getUint32 data (paramsStart + 36)
  let tableCount ← getUint32 data (paramsStart + 40)
  let boardMapping := slice data (paramsStart + 300) (paramsStart + 308)
  match searchUboot (data.drop paramsStart) with
  | none => .error "U-Boot magic not found"
  | some i =>
      let ubootOffset := paramsStart + i
      let ubootLen ← getUint32 data (ubootOffset + 36)
      let ubootData := slice data ubootOffset (ubootOffset + ubootLen + 1024)
      -- the first entry of an empty mapping is `undefined`, and the minimum `NaN`
      let mappedIdx : Option ℤ :=
        boardMapping.head?.map fun b => min (b.toNat : ℤ) ((tableCount : ℤ) - 1)
      let ddrBuf := List.replicate (2048 + tableSize) 0
      let ddrBuf ← setBytes ddrBuf (slice data gslSize (gslSize + 2048)) 0
      let tblOff : Option ℤ := mappedIdx.map fun i => gslSize + 2048 + offset32 + i * tableSize
      let ddrBuf ← setBytes ddrBuf (sliceAt data tblOff (tblOff.map (· + tableSize))) 2048
      pure ⟨gslData, gslSize, ddrBuf, ubootData, tableCount, tableSize⟩

end Web

/-- The images of the browser's parser. -/
def webImages (file : List UInt8) : Except String BootImages := do
  let parts ← Web.parseCv6xxBoot file
  pure ⟨parts.gslData, parts.ddrTable, parts.ubootData⟩

/-! ## The fields both read -/

/-- The little-endian number at a position, if it lies inside the file. -/
def u32At (file : List UInt8) (pos : ℕ) : Option ℕ :=
  if pos + 4 ≤ file.length then some (readLe32 (file.drop pos)) else none

/-- Where the sections are. -/
structure Layout where
  gslSize : ℕ
  offset32 : ℕ
  tableSize : ℕ
  tableCount : ℕ
  ubootOffset : ℕ
  ubootLen : ℕ
  deriving DecidableEq, Repr

/-- The layout of a file in which every field lies inside the file and the three magic numbers are
found. -/
def layout (file : List UInt8) : Option Layout := do
  let magicGsl ← u32At file 2048
  guard (magicGsl = cv6xxGslMagic)
  let gslLen ← u32At file 2084
  let paramsStart := gslLen + 3072 + 1024
  let magicParams ← u32At file paramsStart
  guard (magicParams = cv6xxDdrParamsMagic)
  let offset32 ← u32At file (paramsStart + 32)
  let tableSize ← u32At file (paramsStart + 36)
  let tableCount ← u32At file (paramsStart + 40)
  let i ← HiSiliconCV6xx.findBytes (packU32 cv6xxUbootMagic) (file.drop paramsStart)
  let ubootLen ← u32At file (paramsStart + i + 36)
  pure ⟨gslLen + 3072, offset32, tableSize, tableCount, paramsStart + i, ubootLen⟩

namespace Layout

variable (L : Layout) (file : List UInt8)

def gsl : List UInt8 := file.take L.gslSize

def uboot : List UInt8 := (file.drop L.ubootOffset).take (L.ubootLen + 1024)

/-- What precedes the table in the DDR section. -/
def header : List UInt8 := (file.drop L.gslSize).take 2048

/-- The first entry of the board mapping. -/
def mapped : Option UInt8 := file[L.gslSize + 1324]?

/-- The DDR table of an index, as far as it lies inside the file. -/
def table (i : ℕ) : List UInt8 :=
  (file.drop (L.gslSize + 2048 + L.offset32 + i * L.tableSize)).take L.tableSize

/-- Where the browser looks for its DDR table. -/
def webOffset (m : UInt8) : ℤ :=
  L.gslSize + 2048 + L.offset32 + min (m.toNat : ℤ) ((L.tableCount : ℤ) - 1) * L.tableSize

/-- The browser's DDR table, as far as it lies inside the file. -/
def webTable (m : UInt8) : List UInt8 :=
  Web.sliceAt file (some (L.webOffset m)) (some (L.webOffset m + L.tableSize))

end Layout

section

variable {α β : Type}

@[simp] lemma toOption_bind (x : Except String α) (f : α → Except String β) :
    (x >>= f).toOption = x.toOption.bind fun a => (f a).toOption := by
  cases x <;> rfl

@[simp] lemma toOption_require (cond : Prop) [Decidable cond] (err : String) :
    (require cond err).toOption = guard cond := by
  by_cases h : cond <;> simp [require, h, Except.toOption, guard]

end

@[simp] lemma toOption_getUint32 (file : List UInt8) (pos : ℕ) :
    (Web.getUint32 file pos).toOption = u32At file pos := by
  rw [Web.getUint32, u32At]
  split <;> rfl

/-- A fixed-width read raises when the image is too short for it. -/
lemma structUnpackLe32_eq (file : List UInt8) (pos : ℕ) :
    HiSiliconCV6xx.structUnpackLe32 ((file.drop pos).take 4) =
      match u32At file pos with
      | some n => .ok n
      | none => .error "unpack requires a buffer of 4 bytes" := by
  have hlength : ((file.drop pos).take 4).length = 4 ↔ pos + 4 ≤ file.length := by
    rw [List.length_take, List.length_drop]
    omega
  rw [HiSiliconCV6xx.structUnpackLe32, u32At]
  by_cases h : pos + 4 ≤ file.length
  · rw [if_pos (hlength.mpr h), if_pos h, readLe32_take le_rfl]
  · rw [if_neg (mt hlength.mp h), if_neg h]

@[simp] lemma toOption_structUnpackLe32 (file : List UInt8) (pos : ℕ) :
    (HiSiliconCV6xx.structUnpackLe32 ((file.drop pos).take 4)).toOption = u32At file pos := by
  rw [structUnpackLe32_eq]
  cases u32At file pos with
  | none => rfl
  | some n => rfl

/-! ## The two searches -/

lemma findBytes_le {sub file : List UInt8} {i : ℕ}
    (h : HiSiliconCV6xx.findBytes sub file = some i) : i + sub.length ≤ file.length := by
  induction file generalizing i with
  | nil =>
      rw [HiSiliconCV6xx.findBytes] at h
      split at h
      · rename_i hsub
        cases h
        simp [hsub]
      · cases h
  | cons b bs ih =>
      rw [HiSiliconCV6xx.findBytes] at h
      split at h
      · rename_i hinit
        cases h
        simpa using (List.isPrefixOf_iff_prefix.mp hinit).length_le
      · obtain ⟨j, hj, rfl⟩ := Option.map_eq_some_iff.mp h
        have := ih hj
        rw [List.length_cons]
        omega

/-- **The browser finds what the host finds**, except at the very end of the file. -/
lemma searchUboot_eq (file : List UInt8) :
    Web.searchUboot file =
      (HiSiliconCV6xx.findBytes (packU32 cv6xxUbootMagic) file).filter
        fun i => i + 4 < file.length := by
  have hmagic : packU32 cv6xxUbootMagic = [0x2D, 0x1E, 0xF0, 0x4B] := by decide
  fun_induction Web.searchUboot file with
  | case1 b₀ b₁ b₂ b₃ b₄ bs h =>
      obtain ⟨rfl, rfl, rfl, rfl⟩ := h
      rw [hmagic, HiSiliconCV6xx.findBytes, if_pos (by simp)]
      simp [Option.filter]
  | case2 b₀ b₁ b₂ b₃ b₄ bs h ih =>
      have hinit : ¬ List.isPrefixOf [0x2D, 0x1E, 0xF0, 0x4B]
          (b₀ :: b₁ :: b₂ :: b₃ :: b₄ :: bs) := by
        intro hp
        simp only [List.isPrefixOf, Bool.and_eq_true, beq_iff_eq, and_true] at hp
        exact h ⟨hp.1.symm, hp.2.1.symm, hp.2.2.1.symm, hp.2.2.2.symm⟩
      rw [ih, hmagic]
      conv_rhs => rw [HiSiliconCV6xx.findBytes, if_neg hinit]
      cases HiSiliconCV6xx.findBytes [0x2D, 0x1E, 0xF0, 0x4B] (b₁ :: b₂ :: b₃ :: b₄ :: bs) with
      | none => rfl
      | some i =>
          simp only [Option.filter, Option.map_some, List.length_cons]
          by_cases hlt : i + 4 < bs.length + 4
          · rw [if_pos (by simpa using hlt), if_pos (by simp; omega)]
            rfl
          · rw [if_neg (by simpa using hlt), if_neg (by simp; omega)]
            rfl
  | case3 file h =>
      have hshort : file.length ≤ 4 := by
        rcases file with _ | ⟨b₀, _ | ⟨b₁, _ | ⟨b₂, _ | ⟨b₃, _ | ⟨b₄, bs⟩⟩⟩⟩⟩
        · simp
        · simp
        · simp
        · simp
        · simp
        · exact absurd rfl (h b₀ b₁ b₂ b₃ b₄ bs)
      symm
      rw [Option.filter_eq_none_iff]
      intro i hi
      have := findBytes_le hi
      rw [hmagic] at this
      simp at this ⊢
      omega

/-! ## What the parsers make of a layout -/

/-- The index of the host: one that is not in the table is reset to 0. -/
def Layout.cliIndex (L : Layout) (m : UInt8) : ℕ := if m.toNat < L.tableCount then m.toNat else 0

/-- The images of the host.  Without a mapping there are none. -/
def Layout.cliImages (L : Layout) (file : List UInt8) : Option BootImages :=
  (L.mapped file).map fun m =>
    ⟨L.gsl file, L.header file ++ L.table file (L.cliIndex m), L.uboot file⟩

/-- The images of the browser, whose DDR section always has its full size. -/
def Layout.webImages (L : Layout) (file : List UInt8) : BootImages :=
  ⟨L.gsl file,
    (L.header file).rightpad 2048 0 ++
      (((L.mapped file).map (L.webTable file)).getD []).rightpad L.tableSize 0,
    L.uboot file⟩

@[simp] lemma toOption_buildDdrTable (parts : HiSiliconCV6xx.Cv6xxBootParts) :
    (HiSiliconCV6xx.buildDdrTable parts 0).toOption = parts.boardMapping[0]?.map fun m =>
      (parts.fileData.drop parts.gslSize).take 2048 ++
        (parts.fileData.drop (parts.gslSize + 2048 + parts.offset32 +
          (if m.toNat < parts.tableCount then m.toNat else 0) * parts.tableSize)).take
          parts.tableSize := by
  rw [HiSiliconCV6xx.buildDdrTable]
  simp only [ite_self]
  cases parts.boardMapping[0]? with
  | none => rfl
  | some m =>
      by_cases hlt : m.toNat < parts.tableCount
      · simp [hlt, Nat.not_le.mpr hlt, Except.toOption]
      · simp [hlt, Nat.not_lt.mp hlt, Except.toOption]

/-- What `parse_cv6xx_boot` makes of a file with this layout. -/
def Layout.parts (L : Layout) (file : List UInt8) : HiSiliconCV6xx.Cv6xxBootParts where
  gslData := L.gsl file
  gslSize := L.gslSize
  paramsStart := L.gslSize + 1024
  offset32 := L.offset32
  tableCount := L.tableCount
  tableSize := L.tableSize
  boardMapping := (file.drop (L.gslSize + 1024 + 300)).take 8
  ubootData := L.uboot file
  fileData := file

/-- **What the parser makes of a layout.** -/
lemma HiSiliconCV6xx.parseCv6xxBoot_toOption (file : List UInt8) :
    (HiSiliconCV6xx.parseCv6xxBoot file).toOption = (layout file).map fun L => L.parts file := by
  rw [HiSiliconCV6xx.parseCv6xxBoot, layout, Option.map_eq_bind]
  simp only [toOption_bind, toOption_structUnpackLe32, toOption_require, Option.bind_eq_bind,
    Option.bind_assoc]
  refine Option.bind_congr fun magicGsl _ => Option.bind_congr fun _ _ =>
    Option.bind_congr fun gslLen _ => Option.bind_congr fun magicParams _ =>
    Option.bind_congr fun _ _ => Option.bind_congr fun offset32 _ =>
    Option.bind_congr fun tableSize _ => Option.bind_congr fun tableCount _ => ?_
  cases HiSiliconCV6xx.findBytes (packU32 cv6xxUbootMagic) (file.drop (gslLen + 3072 + 1024)) with
  | none => rfl
  | some i =>
      simp only [toOption_bind, toOption_structUnpackLe32, Option.bind_some]
      exact Option.bind_congr fun ubootLen _ => rfl

/-- **The host's parser.** -/
lemma cliImages_toOption (file : List UInt8) :
    (cliImages file).toOption = (layout file).bind fun L => L.cliImages file := by
  rw [cliImages, toOption_bind, HiSiliconCV6xx.parseCv6xxBoot_toOption, Option.bind_map]
  refine Option.bind_congr fun L _ => ?_
  have hmapped : (L.parts file).boardMapping[0]? = L.mapped file := by
    simp [Layout.parts, Layout.mapped]
  rw [Function.comp_apply, toOption_bind, toOption_buildDdrTable, hmapped, Layout.cliImages]
  cases L.mapped file with
  | none => rfl
  | some m => rfl

lemma length_sliceAt_le (data : List UInt8) (off : ℤ) (n : ℕ) :
    (Web.sliceAt data (some off) (some (off + n))).length ≤ n := by
  rw [Web.sliceAt, List.length_take]
  refine le_trans (Nat.min_le_left _ _) ?_
  simp only [Web.relativeIndex]
  split <;> split <;> omega

/-- The buffer of the DDR section, with both parts set in it. -/
lemma setBytes_ddrBuf {header table : List UInt8} {tableSize : ℕ} (hheader : header.length ≤ 2048)
    (htable : table.length ≤ tableSize) :
    (do
      let buf ← Web.setBytes (List.replicate (2048 + tableSize) 0) header 0
      Web.setBytes buf table 2048) =
      .ok (header.rightpad 2048 0 ++ table.rightpad tableSize 0) := by
  have hfirst : Web.setBytes (List.replicate (2048 + tableSize) 0) header 0 =
      .ok (header.rightpad 2048 0 ++ List.replicate tableSize 0) := by
    rw [Web.setBytes, if_pos (by rw [List.length_replicate]; omega)]
    simp only [List.take_zero, List.nil_append, Nat.zero_add, List.drop_replicate, List.rightpad,
      List.append_assoc, List.replicate_append_replicate]
    rw [show 2048 + tableSize - header.length = 2048 - header.length + tableSize by omega]
  have hlength : (header.rightpad 2048 (0 : UInt8)).length = 2048 := by
    rw [List.length_rightpad]
    omega
  rw [hfirst]
  change Web.setBytes (header.rightpad 2048 0 ++ List.replicate tableSize 0) table 2048 = _
  rw [Web.setBytes, if_pos (by rw [List.length_append, hlength, List.length_replicate]; omega),
    List.take_left' hlength, ← List.drop_drop, List.drop_left' hlength, List.drop_replicate,
    List.append_assoc]
  rfl

/-- The DDR section of the browser. -/
lemma toOption_ddrSection {β : Type} (L : Layout) (file : List UInt8)
    (f : List UInt8 → Option β) :
    ((Web.setBytes (List.replicate (2048 + L.tableSize) 0) (L.header file) 0).toOption.bind
      fun buf => (Web.setBytes buf (Web.sliceAt file ((L.mapped file).map L.webOffset)
        (((L.mapped file).map L.webOffset).map (· + (L.tableSize : ℤ)))) 2048).toOption.bind f) =
      f (L.webImages file).ddrTable := by
  have hheader : (L.header file).length ≤ 2048 := by simp [Layout.header]
  have htable : Web.sliceAt file ((L.mapped file).map L.webOffset)
      (((L.mapped file).map L.webOffset).map (· + (L.tableSize : ℤ))) =
        ((L.mapped file).map (L.webTable file)).getD [] := by
    cases L.mapped file with
    | none => simp [Web.sliceAt]
    | some m => rfl
  have hlength : (((L.mapped file).map (L.webTable file)).getD []).length ≤ L.tableSize := by
    cases L.mapped file with
    | none => simp
    | some m => exact length_sliceAt_le file (L.webOffset m) L.tableSize
  have hset := congrArg Except.toOption (setBytes_ddrBuf hheader hlength)
  rw [toOption_bind] at hset
  rw [htable, ← Option.bind_assoc, hset]
  rfl

/-- **The browser's parser.** -/
lemma webImages_toOption (file : List UInt8) :
    (webImages file).toOption = (layout file).map fun L => L.webImages file := by
  rw [webImages, Web.parseCv6xxBoot, layout, Option.map_eq_bind]
  simp only [toOption_bind, toOption_getUint32, toOption_require, Option.bind_eq_bind,
    Option.bind_assoc]
  refine Option.bind_congr fun magicGsl _ => Option.bind_congr fun _ _ =>
    Option.bind_congr fun gslLen _ => Option.bind_congr fun magicParams _ =>
    Option.bind_congr fun _ _ => Option.bind_congr fun offset32 _ =>
    Option.bind_congr fun tableSize _ => Option.bind_congr fun tableCount _ => ?_
  rw [searchUboot_eq]
  cases hfind : HiSiliconCV6xx.findBytes (packU32 cv6xxUbootMagic)
      (file.drop (gslLen + 3072 + 1024)) with
  | none => rfl
  | some i =>
      by_cases hlt : i + 4 < (file.drop (gslLen + 3072 + 1024)).length
      · rw [Option.filter, if_pos (by simpa using hlt)]
        simp only [toOption_bind, toOption_getUint32, Option.bind_assoc, Option.bind_some]
        refine Option.bind_congr fun ubootLen _ => ?_
        have hmapped : (Web.slice file (gslLen + 3072 + 1024 + 300)
            (gslLen + 3072 + 1024 + 308)).head? = file[gslLen + 3072 + 1324]? := by
          rw [Web.slice, Nat.add_sub_add_left]
          simp [List.head?_take]
        have hgsl : Web.slice file 0 (gslLen + 3072) = file.take (gslLen + 3072) := rfl
        have hheader : Web.slice file (gslLen + 3072) (gslLen + 3072 + 2048) =
            (file.drop (gslLen + 3072)).take 2048 := by
          rw [Web.slice, Nat.add_sub_cancel_left]
        have huboot : Web.slice file (gslLen + 3072 + 1024 + i)
            (gslLen + 3072 + 1024 + i + ubootLen + 1024) =
            (file.drop (gslLen + 3072 + 1024 + i)).take (ubootLen + 1024) := by
          rw [Web.slice, Nat.add_assoc _ ubootLen, Nat.add_sub_cancel_left]
        rw [hmapped, hgsl, hheader, huboot, Option.map_map]
        exact toOption_ddrSection ⟨gslLen + 3072, offset32, tableSize, tableCount,
          gslLen + 3072 + 1024 + i, ubootLen⟩ file fun ddrTable => some (BootImages.mk
            (file.take (gslLen + 3072)) ddrTable
            ((file.drop (gslLen + 3072 + 1024 + i)).take (ubootLen + 1024)))
      · -- the magic number ends the file, and the length of U-Boot is missing
        have hnone : u32At file (gslLen + 3072 + 1024 + i + 36) = none := by
          rw [List.length_drop] at hlt
          rw [u32At, if_neg (by omega)]
        rw [Option.filter, if_neg (by simpa using hlt)]
        simp only [Option.bind_some, hnone, Option.bind_none]
        rfl

end Defib
