import Defib.Dump.MdReply

/-!
# What the two parsers read from a reply to `md.b`

`parse_md_output` counts pairs of digits and goes on over white space, so a last line of fewer than
sixteen bytes takes two digits at the beginning of its text column for one byte more.
`parseMdLine` of the browser wants white space behind each pair, and the trimmed line has none when
the text column is blank: sixteen bytes `0x20` lose the last of them.

Replies without such lines are read right by both, and only they are.
-/

namespace Defib

namespace MdDump

variable (d : MdDump)

lemma length_bytes {k : ℕ} (h : 16 * k < d.data.length) :
    ((d.line k h).bytes d.ram).length = min 16 (d.data.length - 16 * k) := Store.length_load ..

lemma mem_pieces {p : ℕ × List UInt8} (hp : p ∈ d.pieces) :
    ∃ k h, p = (d.address + 16 * k, (d.line k h).bytes d.ram ++
      absorbed (16 - (d.line k h).count) ((d.line k h).tail d.ram)) := by
  obtain ⟨l, hl, rfl⟩ := List.mem_map.mp hp
  obtain ⟨k, h, rfl⟩ := d.mem_lines.mp hl
  exact ⟨k, h, rfl⟩

lemma line_mem_pieces {k : ℕ} (h : 16 * k < d.data.length) :
    (d.address + 16 * k, (d.line k h).bytes d.ram ++
      absorbed (16 - (d.line k h).count) ((d.line k h).tail d.ram)) ∈ d.pieces :=
  List.mem_map_of_mem (d.mem_lines.mpr ⟨k, h, rfl⟩)

lemma address_le {p : ℕ × List UInt8} (hp : p ∈ d.pieces) : d.address ≤ p.1 := by
  obtain ⟨k, h, rfl⟩ := d.mem_pieces hp
  exact Nat.le_add_right _ _

/-- The lines come in the order of their addresses. -/
lemma pairwise_pieces : d.pieces.Pairwise fun p q => p.1 ≤ q.1 := by
  rw [pieces, List.pairwise_map, lines, List.pairwise_ofFn]
  intro i j hij
  exact Nat.add_le_add_left (Nat.mul_le_mul_left 16 (Nat.le_of_lt hij)) d.address

lemma insertionSort_pieces : (d.pieces.insertionSort fun p q => p.1 ≤ q.1) = d.pieces :=
  d.pairwise_pieces.insertionSort_eq

lemma length_pos : 0 < d.data.length := List.length_pos_iff.mpr d.data_ne

/-- The first line is the one of the address. -/
lemma head_pieces : ∀ p ∈ d.pieces.head?, p.1 = d.address := by
  intro p hp
  obtain ⟨ps, hcons⟩ := List.head?_eq_some_iff.mp hp
  have hfirst := d.line_mem_pieces (k := 0) d.length_pos
  have hsorted := d.pairwise_pieces
  have hle := d.address_le (List.mem_of_mem_head? hp)
  rw [hcons] at hfirst hsorted
  rcases List.mem_cons.mp hfirst with rfl | hmem
  · rfl
  · have : p.1 ≤ d.address + 16 * 0 := List.rel_of_pairwise_cons hsorted hmem
    omega

/-- Where no line takes its text column for bytes, the pieces are those of the RAM. -/
lemma plain_pieces (h : ∀ l ∈ d.lines, l.Plain d.ram) {p : ℕ × List UInt8} (hp : p ∈ d.pieces) :
    ∃ k, 16 * k < d.data.length ∧ p.1 = d.address + 16 * k ∧
      p.2.length = min 16 (d.data.length - 16 * k) ∧ d.ram.load p.1 p.2.length = p.2 := by
  obtain ⟨k, hk, rfl⟩ := d.mem_pieces hp
  have hplain := h _ (d.mem_lines.mpr ⟨k, hk, rfl⟩)
  have hnil := (MdLine.absorbed_eq_nil_iff_plain (Nat.succ_pos _)).mpr hplain
  have hlen := d.length_bytes hk
  rw [hnil, List.append_nil]
  exact ⟨k, hk, rfl, hlen, by rw [hlen]; rfl⟩

/-- **The lines take the dump apart** when none takes its text column for bytes. -/
lemma assemble_pieces (h : ∀ l ∈ d.lines, l.Plain d.ram) : assemble 0 d.pieces = d.data := by
  have hpieces : PiecesOf d.ram d.pieces := by
    intro p hp
    obtain ⟨k, hk, -, hlen, hload⟩ := d.plain_pieces h hp
    refine ⟨List.length_pos_iff.mp ?_, hload⟩
    rw [hlen]
    omega
  have hgapless : Gapless d.address d.pieces := by
    refine ⟨fun p hp => d.address_le hp, fun i hi hend => ?_⟩
    obtain ⟨p, hp, hlt⟩ := hend
    obtain ⟨k, hk, hlabel, hlen, -⟩ := d.plain_pieces h hp
    have hin : 16 * ((i - d.address) / 16) < d.data.length := by omega
    refine ⟨_, d.line_mem_pieces hin, ?_, ?_⟩
    · change d.address + 16 * ((i - d.address) / 16) ≤ i
      omega
    · rw [List.length_append, d.length_bytes hin]
      omega
  have hlength : (assemble 0 d.pieces).length = d.data.length := by
    apply Nat.le_antisymm
    · refine length_assemble_le 0 (fun p hp => d.address_le hp) d.head_pieces fun p hp => ?_
      obtain ⟨k, hk, hlabel, hlen, -⟩ := d.plain_pieces h hp
      omega
    · have hpos := d.length_pos
      have hlast : 16 * ((d.data.length - 1) / 16) < d.data.length := by omega
      have hroom := le_length_assemble 0 d.pairwise_pieces d.head_pieces (d.line_mem_pieces hlast)
      rw [List.length_append, d.length_bytes hlast] at hroom
      omega
  rw [assemble_eq_load 0 hpieces d.pairwise_pieces hgapless, hlength, d.load_ram]

/-- A line that takes its text column for bytes makes the dump longer. -/
lemma plain_of_length (h : (assemble 0 d.pieces).length = d.data.length) :
    ∀ l ∈ d.lines, l.Plain d.ram := by
  intro l hl
  obtain ⟨k, hk, rfl⟩ := d.mem_lines.mp hl
  have hroom := le_length_assemble 0 d.pairwise_pieces d.head_pieces (d.line_mem_pieces hk)
  rw [List.length_append, d.length_bytes hk, h] at hroom
  rw [← MdLine.absorbed_eq_nil_iff_plain (Nat.succ_pos _)]
  by_cases hfull : (d.line k hk).count = 16
  · rw [hfull]
    rfl
  · have hcount : (d.line k hk).count = min 16 (d.data.length - 16 * k) := rfl
    apply List.eq_nil_of_length_eq_zero
    omega

lemma parseMdOutput_reply {crlf : Bool} {echo prompt : Text} (hecho : OtherLine echo)
    (hprompt : OtherLine prompt) :
    parseMdOutput (d.reply crlf echo prompt) = assemble 0 d.pieces := by
  rw [parseMdOutput, d.mdEntries_reply hecho hprompt, d.insertionSort_pieces]

end MdDump

open MdDump in
/-- **A reply is read right by both parsers** exactly when no line takes its text column for bytes
and no line has a blank one. -/
theorem md_replies_read_iff (d : MdDump) (crlf : Bool) {echo prompt : Text}
    (hecho : OtherLine echo) (hprompt : OtherLine prompt) :
    (parseMdOutput (d.reply crlf echo prompt) = d.data ∧
        ∀ line ∈ d.replyLines echo prompt, Web.parseMdLine line = parseMdLine line) ↔
      ∀ l ∈ d.lines, l.Plain d.ram ∧ l.Visible d.ram := by
  rw [d.parseMdOutput_reply hecho hprompt]
  have hpad : ∀ l ∈ d.lines, 0 < l.pad := by
    intro l hl
    obtain ⟨k, hk, rfl⟩ := d.mem_lines.mp hl
    exact Nat.succ_pos _
  have hmem : ∀ l ∈ d.lines, l.text d.ram ∈ d.replyLines echo prompt := fun l hl =>
    List.mem_append_left _ (List.mem_cons_of_mem _ (List.mem_map_of_mem hl))
  constructor
  · rintro ⟨hdata, hlines⟩ l hl
    have hplain := d.plain_of_length (congrArg List.length hdata) l hl
    exact ⟨hplain, (MdLine.web_parseMdLine_eq_iff (hpad l hl) hplain).mp (hlines _ (hmem l hl))⟩
  · intro h
    refine ⟨d.assemble_pieces fun l hl => (h l hl).1, fun line hline => ?_⟩
    rcases List.mem_append.mp hline with hline | hline
    · rcases List.mem_cons.mp hline with rfl | hline
      · rw [hecho.web_parseMdLine_eq_none, hecho.parseMdLine_eq_none]
      · obtain ⟨l, hl, rfl⟩ := List.mem_map.mp hline
        exact (MdLine.web_parseMdLine_eq_iff (hpad l hl) (h l hl).1).mpr (h l hl).2
    · rw [List.mem_singleton.mp hline, hprompt.web_parseMdLine_eq_none,
        hprompt.parseMdLine_eq_none]

/-! ## Replies -/

def mdEcho : Text := "md.b 0x82000000 0x10".toList

def mdPrompt : Text := "OpenIPC # ".toList

lemma otherLine_mdEcho : OtherLine mdEcho :=
  OtherLine.of_no_colon (forall_mem_of_all (by decide)) (by decide)

lemma otherLine_mdPrompt : OtherLine mdPrompt :=
  OtherLine.of_no_colon (forall_mem_of_all (by decide)) (by decide)

/-- `82000000: 61 62                                              ab` -/
def letters : MdDump := ⟨0x82000000, [0x61, 0x62], List.cons_ne_nil _ _, by decide⟩

/-- Sixteen blanks. -/
def blanks : MdDump := ⟨0x82000000, List.replicate 16 0x20, List.cons_ne_nil _ _, by decide⟩

/-- The letters of a hexadecimal number are taken for a byte, and the last of sixteen blanks is
missing in the browser. -/
theorem md_replies_misread :
    OtherLine mdEcho ∧ OtherLine mdPrompt ∧
      parseMdOutput (letters.reply true mdEcho mdPrompt) = [0x61, 0x62, 0xab] ∧
      parseMdOutput (letters.reply true mdEcho mdPrompt) ≠ letters.data ∧
      ∃ line ∈ blanks.replyLines mdEcho mdPrompt, Web.parseMdLine line ≠ parseMdLine line := by
  refine ⟨otherLine_mdEcho, otherLine_mdPrompt, by decide, by decide, ?_⟩
  exact ⟨(blanks.line 0 (by decide)).text blanks.ram, by decide, by decide⟩

/-- Seventeen bytes, the last of them on a line of its own. -/
def seventeen : MdDump :=
  ⟨0x82000000, List.range' 1 17 |>.map UInt8.ofNat, List.cons_ne_nil _ _, by decide⟩

theorem md_replies_read_iff_seventeen :
    (parseMdOutput (seventeen.reply true mdEcho mdPrompt) = seventeen.data ∧
        ∀ line ∈ seventeen.replyLines mdEcho mdPrompt,
          Web.parseMdLine line = parseMdLine line) ↔
      ∀ l ∈ seventeen.lines, l.Plain seventeen.ram ∧ l.Visible seventeen.ram :=
  md_replies_read_iff seventeen true otherLine_mdEcho otherLine_mdPrompt

end Defib
