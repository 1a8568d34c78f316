import Mathlib.Algebra.Group.Nat.Defs
import Mathlib.Data.Nat.Basic
import Mathlib.Tactic.Common

/-!
# The platform the agent runs on

The agent is one program built for ten SoCs.  `Soc` collects the constants a build gets from
`agent/Makefile`, `Probe` what the hardware answers while `main` looks for a flash, and
`Board.boot` is that search: `flash_init` of the SPI driver first, then, where the SoC has an
eMMC controller, the card.  Its result are the two globals every handler reads, `flash_readable`
and `flash_info`.

`boot_cases` says once which flashes can be identified: a NOR of 1 to 64 MiB, the one supported
SPI NAND of 128 MiB, or an eMMC card with the capacity its registers give.
-/

namespace Defib

/-! ## Builds -/

/-- The SPI flash driver a build links, `SPI_DRIVER`. -/
inductive SpiDriver
  | fmc100
  | hisfc350
  deriving DecidableEq, Repr

/-- The per-SoC constants of `agent/Makefile` that the handlers use. -/
structure Soc where
  uartBase : ℕ
  flashMem : ℕ
  fmcBase : ℕ
  ramBase : ℕ
  crgBase : ℕ
  emmcBase : Option ℕ := none
  ioCtrl0Base : Option ℕ := none
  /-- `BOOTROM_BASE` and `BOOTROM_SIZE`. -/
  bootrom : Option (ℕ × ℕ) := none
  spiDriver : SpiDriver := .fmc100
  deriving DecidableEq, Repr

def hi3516ev300 : Soc where
  uartBase := 0x12040000
  flashMem := 0x14000000
  fmcBase := 0x10000000
  ramBase := 0x40000000
  crgBase := 0x12010000

def hi3516ev200 : Soc where
  uartBase := 0x12040000
  flashMem := 0x14000000
  fmcBase := 0x10000000
  ramBase := 0x40000000
  crgBase := 0x12010000

def gk7205v200 : Soc where
  uartBase := 0x12040000
  flashMem := 0x14000000
  fmcBase := 0x10000000
  ramBase := 0x40000000
  crgBase := 0x12010000

def gk7205v300 : Soc where
  uartBase := 0x12040000
  flashMem := 0x14000000
  fmcBase := 0x10000000
  ramBase := 0x40000000
  crgBase := 0x12010000

def hi3516cv300 : Soc where
  uartBase := 0x12100000
  flashMem := 0x14000000
  fmcBase := 0x10000000
  ramBase := 0x80000000
  crgBase := 0x12010000

/-- The only build with an eMMC reader. -/
def hi3516cv500 : Soc where
  uartBase := 0x120A0000
  flashMem := 0x14000000
  fmcBase := 0x10000000
  ramBase := 0x80000000
  crgBase := 0x12010000
  emmcBase := some 0x10100000
  ioCtrl0Base := some 0x10ff0000
  bootrom := some (0x04000000, 0x10000)

def hi3518ev200 : Soc where
  uartBase := 0x12100000
  flashMem := 0x14000000
  fmcBase := 0x10000000
  ramBase := 0x80000000
  crgBase := 0x12010000

/-- The only build whose flash window lies below the peripheral block. -/
def hi3516cv610 : Soc where
  uartBase := 0x11040000
  flashMem := 0x0F000000
  fmcBase := 0x10000000
  ramBase := 0x40000000
  crgBase := 0x11010000

def hi3519v101 : Soc where
  uartBase := 0x12100000
  flashMem := 0x14000000
  fmcBase := 0x10000000
  ramBase := 0x80000000
  crgBase := 0x12010000

def hi3520dv200 : Soc where
  uartBase := 0x20080000
  flashMem := 0x58000000
  fmcBase := 0x10010000
  ramBase := 0x80000000
  crgBase := 0x20030000
  spiDriver := .hisfc350

/-- Every SoC the Makefile supports. -/
def socs : List Soc :=
  [hi3516ev300, hi3516ev200, gk7205v200, gk7205v300, hi3516cv300, hi3516cv500, hi3518ev200,
    hi3516cv610, hi3519v101, hi3520dv200]

lemma hi3516ev300_mem : hi3516ev300 ∈ socs := List.mem_cons_self

/-! ## Flash identification -/

/-- `flash_type`. -/
inductive FlashType
  | nor
  | nand
  | emmc
  deriving DecidableEq, Repr

/-- `flash_info_t`, without the identification bytes that only `CMD_INFO` reports. -/
structure FlashInfo where
  size : ℕ
  sectorSize : ℕ
  pageSize : ℕ
  flashType : FlashType
  deriving DecidableEq, Repr

/-- The zero-initialised static. -/
def FlashInfo.zero : FlashInfo := ⟨0, 0, 0, .nor⟩

/-- What an eMMC card reports during identification: the OCR capacity bit and the two CSD words
its size is read from. -/
structure EmmcCard where
  highCapacity : Bool
  csd1 : ℕ
  csd2 : ℕ
  deriving DecidableEq, Repr

/-- What the hardware answers while `main` looks for a flash. -/
structure Probe where
  /-- The version register of the SPI flash controller. -/
  version : ℕ
  /-- The first three bytes `READ ID` returns, by chip select. -/
  jedecId : ℕ → UInt8 × UInt8 × UInt8
  /-- The card, if `emmc_init` succeeds. -/
  emmc : Option EmmcCard

/-- `detect_size`, the same function in both drivers. -/
def detectSize (id2 : UInt8) : ℕ :=
  if 0x14 ≤ id2 ∧ id2 ≤ 0x1A then 2 ^ id2.toNat else 0x1000000

/-- `nand_identify`. -/
def nandIdentify (id : UInt8 × UInt8 × UInt8) : Bool :=
  (id.1 == 0xC2 && id.2.1 == 0x12) || (id.2.1 == 0xC2 && id.2.2 == 0x12)

/-- The 64 KiB sector, 256 byte page geometry both drivers report for a NOR. -/
def norInfo (id2 : UInt8) : FlashInfo := ⟨detectSize id2, 0x10000, 256, .nor⟩

/-- The geometry of the one supported SPI NAND. -/
def nandInfo : FlashInfo := ⟨128 * 1024 * 1024, 64 * 2048, 2048, .nand⟩

/-- `flash_init` of `spi_flash.c`: the info it leaves behind and whether it returns `0`. -/
def flashInitFmc100 (p : Probe) : FlashInfo × Bool :=
  if p.version ≠ 0x100 then (.zero, false)
  else
    let id := p.jedecId 0
    if nandIdentify id then (nandInfo, true)
    else (norInfo id.2.2, id.1 != 0x00 && id.1 != 0xFF)

/-- Whether a chip select of the HISFC350 answers with a JEDEC id. -/
def jedecValid (id : UInt8 × UInt8 × UInt8) : Bool :=
  (id.1 ||| id.2.1 ||| id.2.2) != 0 && (id.1 &&& id.2.1 &&& id.2.2) != 0xFF

/-- `flash_init` of `spi_flash_hisfc350.c`, which scans chip select 1 before 0. -/
def flashInitHisfc350 (p : Probe) : FlashInfo × Bool :=
  if p.version ≠ 0x350 then (.zero, false)
  else if jedecValid (p.jedecId 1) then (norInfo (p.jedecId 1).2.2, true)
  else if jedecValid (p.jedecId 0) then (norInfo (p.jedecId 0).2.2, true)
  else (.zero, false)

/-- `emmc_capacity_bytes` after `emmc_card_identify`. -/
def emmcCapacityBytes (card : EmmcCard) : ℕ :=
  if card.highCapacity then 0xFFFFFE00
  else
    let csize := card.csd1 % 1024 * 4 + card.csd2 / 2 ^ 30 % 4
    let mult := card.csd1 / 2 ^ 15 % 8
    let rblen := card.csd2 / 2 ^ 16 % 16
    if 9 ≤ rblen ∧ rblen ≤ 12 then (csize + 1) * 2 ^ (mult + 2) * 2 ^ rblen else 0

/-- The info `main` fills in for a card. -/
def emmcInfo (card : EmmcCard) : FlashInfo where
  size := if emmcCapacityBytes card > 0xFFFFFFFF then 0xFFFFFFFF else emmcCapacityBytes card
  sectorSize := 512
  pageSize := 512
  flashType := .emmc

/-- A board: a build of the agent on the hardware it probes. -/
structure Board where
  soc : Soc
  soc_mem : soc ∈ socs
  probe : Probe

namespace Board

/-- `flash_init` of the driver the build links. -/
def flashInit (b : Board) : FlashInfo × Bool :=
  match b.soc.spiDriver with
  | .fmc100 => flashInitFmc100 b.probe
  | .hisfc350 => flashInitHisfc350 b.probe

/-- The part of `main` before its loop: `flash_info` and `flash_readable`. -/
def boot (b : Board) : FlashInfo × Bool :=
  let r := b.flashInit
  match r.2, b.soc.emmcBase, b.probe.emmc with
  | false, some _, some card => (emmcInfo card, true)
  | _, _, _ => r

/-- The global `flash_info`. -/
def flashInfo (b : Board) : FlashInfo := b.boot.1

/-- The global `flash_readable`. -/
def flashReadable (b : Board) : Bool := b.boot.2

end Board

/-! ## The memory maps -/

/-- A flash window of up to 128 MiB lies below RAM. -/
lemma Board.flashMem_add_le (b : Board) :
    b.soc.flashMem + 2 ^ 27 ≤ b.soc.ramBase ∧ b.soc.ramBase ≤ 0x80000000 := by
  have h : ∀ soc ∈ socs, soc.flashMem + 2 ^ 27 ≤ soc.ramBase ∧ soc.ramBase ≤ 0x80000000 := by
    decide
  exact h _ b.soc_mem

/-- The mask ROM, where a build reads it, lies below the flash window. -/
lemma Board.bootrom_le (b : Board) : ∀ w ∈ b.soc.bootrom, w.1 + w.2 ≤ b.soc.flashMem := by
  have h : ∀ soc ∈ socs, ∀ w ∈ soc.bootrom.toList, w.1 + w.2 ≤ soc.flashMem := by decide
  intro w hw
  exact h _ b.soc_mem w (by simpa using hw)

/-- The controllers only some builds have lie in the common peripheral block. -/
lemma Board.extra_bases (b : Board) :
    ∀ base ∈ b.soc.emmcBase.toList ++ b.soc.ioCtrl0Base.toList,
      0x10000000 ≤ base ∧ base + 0x1000 ≤ 0x13000000 := by
  have h : ∀ soc ∈ socs, ∀ base ∈ soc.emmcBase.toList ++ soc.ioCtrl0Base.toList,
      0x10000000 ≤ base ∧ base + 0x1000 ≤ 0x13000000 := by
    decide
  exact h _ b.soc_mem

/-- Where there is an eMMC reader, every controller lies below the flash window. -/
lemma Board.le_flashMem_of_emmc (b : Board) (hbase : b.soc.emmcBase.isSome = true) :
    0x13000000 ≤ b.soc.flashMem ∧ b.soc.fmcBase + 0x1000 ≤ b.soc.flashMem ∧
      b.soc.crgBase + 0x1000 ≤ b.soc.flashMem ∧ b.soc.uartBase + 0x1000 ≤ b.soc.flashMem ∧
      b.soc.spiDriver = .fmc100 := by
  have h : ∀ soc ∈ socs, soc.emmcBase.isSome = true →
      0x13000000 ≤ soc.flashMem ∧ soc.fmcBase + 0x1000 ≤ soc.flashMem ∧
        soc.crgBase + 0x1000 ≤ soc.flashMem ∧ soc.uartBase + 0x1000 ≤ soc.flashMem ∧
        soc.spiDriver = .fmc100 := by
    decide
  exact h _ b.soc_mem hbase

/-! ## Which flashes can be identified -/

/-- The NOR geometries: 64 KiB sectors, 256 byte pages, a power of two from 1 to 64 MiB. -/
def FlashInfo.IsNor (info : FlashInfo) : Prop :=
  info.flashType = .nor ∧ info.sectorSize = 0x10000 ∧ info.pageSize = 256 ∧
    ∃ k, 20 ≤ k ∧ k ≤ 26 ∧ info.size = 2 ^ k

/-- What a card on a build with an eMMC reader is reported as. -/
def Board.IsEmmc (b : Board) : Prop :=
  ∃ card, b.probe.emmc = some card ∧ b.soc.emmcBase.isSome ∧ b.flashInfo = emmcInfo card

lemma detectSize_eq (id2 : UInt8) : ∃ k, 20 ≤ k ∧ k ≤ 26 ∧ detectSize id2 = 2 ^ k := by
  by_cases h : 0x14 ≤ id2 ∧ id2 ≤ 0x1A
  · have hlo : 20 ≤ id2.toNat := UInt8.le_iff_toNat_le.mp h.1
    have hhi : id2.toNat ≤ 26 := UInt8.le_iff_toNat_le.mp h.2
    exact ⟨id2.toNat, hlo, hhi, if_pos h⟩
  · exact ⟨24, by omega, by omega, by simp [detectSize, h]⟩

lemma norInfo_isNor (id2 : UInt8) : (norInfo id2).IsNor :=
  ⟨rfl, rfl, rfl, detectSize_eq id2⟩

lemma FlashInfo.IsNor.size_bounds {info : FlashInfo} (h : info.IsNor) :
    2 ^ 20 ≤ info.size ∧ info.size ≤ 2 ^ 26 := by
  obtain ⟨-, -, -, k, hlo, hhi, hsize⟩ := h
  rw [hsize]
  exact ⟨Nat.pow_le_pow_right (by omega) hlo, Nat.pow_le_pow_right (by omega) hhi⟩

lemma flashInitFmc100_cases (p : Probe) (h : (flashInitFmc100 p).2 = true) :
    (flashInitFmc100 p).1.IsNor ∨ (flashInitFmc100 p).1 = nandInfo := by
  simp only [flashInitFmc100] at h ⊢
  by_cases hversion : p.version ≠ 0x100
  · simp [hversion] at h
  · rw [if_neg hversion]
    by_cases hnand : nandIdentify (p.jedecId 0) = true
    · rw [if_pos hnand]
      exact .inr rfl
    · rw [if_neg hnand]
      exact .inl (norInfo_isNor _)

lemma flashInitHisfc350_isNor (p : Probe) (h : (flashInitHisfc350 p).2 = true) :
    (flashInitHisfc350 p).1.IsNor := by
  unfold flashInitHisfc350 at h ⊢
  by_cases hversion : p.version ≠ 0x350
  · simp [hversion] at h
  · rw [if_neg hversion] at h ⊢
    by_cases hcs1 : jedecValid (p.jedecId 1) = true
    · rw [if_pos hcs1]
      exact norInfo_isNor _
    · rw [if_neg hcs1] at h ⊢
      by_cases hcs0 : jedecValid (p.jedecId 0) = true
      · rw [if_pos hcs0]
        exact norInfo_isNor _
      · simp [hcs0] at h

lemma Board.boot_of_flashInit {b : Board} (h : b.flashInit.2 = true) : b.boot = b.flashInit := by
  simp only [Board.boot, h]

/-- **The identifiable flashes.** -/
lemma Board.boot_cases (b : Board) (h : b.flashReadable = true) :
    b.flashInfo.IsNor ∨ (b.flashInfo = nandInfo ∧ b.soc.spiDriver = .fmc100) ∨ b.IsEmmc := by
  have hinit : b.flashInit.2 = true → b.flashInit.1.IsNor ∨
      (b.flashInit.1 = nandInfo ∧ b.soc.spiDriver = .fmc100) := by
    intro hok
    unfold Board.flashInit at hok ⊢
    cases hdriver : b.soc.spiDriver with
    | fmc100 =>
        rw [hdriver] at hok
        exact (flashInitFmc100_cases _ hok).imp_right fun h => ⟨h, rfl⟩
    | hisfc350 =>
        rw [hdriver] at hok
        exact .inl (flashInitHisfc350_isNor _ hok)
  unfold Board.flashReadable at h
  unfold Board.IsEmmc Board.flashInfo
  cases hok : b.flashInit.2 with
  | true =>
      rw [Board.boot_of_flashInit hok]
      rcases hinit hok with hnor | hnand
      · exact .inl hnor
      · exact .inr (.inl hnand)
  | false =>
      -- the SPI driver found nothing, so the board booted from a card
      simp only [Board.boot, hok] at h ⊢
      cases hbase : b.soc.emmcBase with
      | none => simp [hbase, hok] at h
      | some base =>
          cases hcard : b.probe.emmc with
          | none => simp [hbase, hcard, hok] at h
          | some card => exact .inr (.inr ⟨card, rfl, rfl, rfl⟩)

lemma emmcInfo_size_lt (card : EmmcCard) : (emmcInfo card).size < 2 ^ 32 := by
  simp only [emmcInfo]
  split <;> omega

lemma Board.flashInfo_size_lt (b : Board) (h : b.flashReadable = true) :
    b.flashInfo.size < 2 ^ 32 := by
  rcases b.boot_cases h with hnor | ⟨hnand, -⟩ | ⟨card, -, -, hinfo⟩
  · have := hnor.size_bounds
    omega
  · rw [hnand]
    decide
  · rw [hinfo]
    exact emmcInfo_size_lt card

/-! ## Geometry -/

/-- The geometry of an identified flash, with what every identification guarantees. -/
structure Geometry where
  size : ℕ
  sectorSize : ℕ
  pageSize : ℕ
  size_lt : size < 2 ^ 32
  sector_pos : 0 < sectorSize
  /-- A sector fits the buffers of `handle_flash_stream`, which lie 128 KiB apart. -/
  sector_le : sectorSize ≤ 0x20000
  page_pos : 0 < pageSize
  page_dvd : pageSize ∣ sectorSize

lemma Board.flashInfo_sector (b : Board) (h : b.flashReadable = true) :
    0 < b.flashInfo.sectorSize ∧ b.flashInfo.sectorSize ≤ 0x20000 ∧ 0 < b.flashInfo.pageSize ∧
      b.flashInfo.pageSize ∣ b.flashInfo.sectorSize := by
  rcases b.boot_cases h with ⟨-, hsector, hpage, -⟩ | ⟨hnand, -⟩ | ⟨card, -, -, hinfo⟩
  · rw [hsector, hpage]
    decide
  · rw [hnand]
    decide
  · rw [hinfo]
    simp only [emmcInfo]
    decide

/-- `flash_info` once `flash_readable` is set. -/
def Board.geometry (b : Board) : Option Geometry :=
  if h : b.flashReadable = true then
    some {
      size := b.flashInfo.size
      sectorSize := b.flashInfo.sectorSize
      pageSize := b.flashInfo.pageSize
      size_lt := b.flashInfo_size_lt h
      sector_pos := (b.flashInfo_sector h).1
      sector_le := (b.flashInfo_sector h).2.1
      page_pos := (b.flashInfo_sector h).2.2.1
      page_dvd := (b.flashInfo_sector h).2.2.2 }
  else none

/-- A board with a 16 MiB NOR. -/
def norBoard (soc : Soc) (hsoc : soc ∈ socs) : Board :=
  ⟨soc, hsoc, ⟨0x100, fun _ => (0xEF, 0x40, 0x18), none⟩⟩

end Defib
