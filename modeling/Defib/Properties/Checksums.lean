import Defib.Agent.FlashDriver
import Defib.Agent.Hisfc350

/-!
# Checksums

The agent's `crc32` looks bytes up in a table, `zlib.crc32` of the host is the register that is
clocked bit by bit.  `agent_crc32_is_zlib` says that they are one function, that the agent's may be
continued where it stopped, and what follows for the two `flash_crc32`, which do so chunk by chunk:
their result is the checksum of all that their chunks hold.
-/

namespace Defib

open ReflectedCrc

/-- Every entry of the table is eight steps of the recurrence. -/
lemma crc32Table_eq :
    crc32Table =
      (List.range 256).map fun i => (bitSteps crcPoly 8 (BitVec.ofNat 32 i)).toNat := by
  have hlength : crc32Table.length = 256 := by decide +kernel
  apply List.ext_getElem
  · rw [hlength, List.length_map, List.length_range]
  · intro i hi hi'
    rw [List.length_map, List.length_range] at hi'
    have hwide : (BitVec.ofNat 8 i).setWidth 32 = BitVec.ofNat 32 i := by
      apply BitVec.eq_of_toNat_eq
      rw [BitVec.toNat_setWidth, BitVec.toNat_ofNat, BitVec.toNat_ofNat]
      omega
    have hentry := crc32Table_getD i hi'
    rw [List.getD_eq_getElem _ _ hi, tableEntry, hwide] at hentry
    rw [hentry, List.getElem_map, List.getElem_range]

/-- **A banked walk accumulates** the checksum of what it visits. -/
lemma Hisfc350.flashWalkBanked_crc32 (ps : List (ℕ × ℕ)) (buf : List UInt8) (s : Hisfc350) :
    (Hisfc350.flashWalkBanked crc32 ps (crc32 0 buf) s).1 =
      crc32 0 (Hisfc350.flashWalkBanked (fun buf bytes => buf ++ bytes) ps buf s).1 := by
  induction ps generalizing buf s with
  | nil => rfl
  | cons p ps ih =>
      rw [Hisfc350.flashWalkBanked, Hisfc350.flashWalkBanked]
      rw [← crc32_append, ih]

/-- What `flash_crc32` of the HISFC350 returns is the checksum of what `flash_read` returns. -/
lemma Hisfc350.flashCrc32_eq_flashRead (s : Hisfc350) (addr len : ℕ) :
    (s.flashCrc32 addr len).1 = zlibCrc32 (s.flashRead addr len).1 := by
  rw [Hisfc350.flashCrc32, Hisfc350.flashRead, ← crc32_zero]
  split_ifs
  · have hwalk := Hisfc350.flashWalkBanked_crc32 (Hisfc350.bankChunks addr len) [] s
    rwa [crc32_nil] at hwalk
  · rfl

/-- **The agent's checksum is the host's**, and it accumulates. -/
theorem agent_crc32_is_zlib :
    (crc32Table =
        (List.range 256).map fun i => (bitSteps crcPoly 8 (BitVec.ofNat 32 i)).toNat) ∧
      (∀ d, crc32 0 d = zlibCrc32 d) ∧
      (∀ a b, crc32 (crc32 0 a) b = crc32 0 (a ++ b)) ∧
      (∀ (b : Board) (m : Machine) (addr len : ℕ), flashCrc32Fmc100 b m addr len =
        zlibCrc32 (((Cut.upTo 256 (by decide)).pieces addr len).flatMap fun p =>
          spiRead b m p.1 p.2)) ∧
      ∀ (s : Hisfc350) (addr len : ℕ),
        (s.flashCrc32 addr len).1 = zlibCrc32 (s.flashRead addr len).1 := by
  refine ⟨crc32Table_eq, crc32_zero, fun a b => (crc32_append 0 a b).symm, fun b m addr len => ?_,
    Hisfc350.flashCrc32_eq_flashRead⟩
  rw [flashCrc32Fmc100, foldl_crc32 (fun p => spiRead b m p.1 p.2), crc32_zero]

end Defib
