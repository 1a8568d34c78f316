import Defib.Dump.DumpFlash

/-!
# Where the bytes of a dump come to lie

The device shows its RAM, which does not change, in lines that are right; but lines may be missing
from a reply, and others may come that were asked for earlier.  `parse_md_output` takes the lowest
address it finds for the beginning of the block and fills gaps with zeros, and `dump_flash` compares
the CRC of the data only when it has as many bytes as it asked for.

So a block is right when the reply it is taken from begins at its address and has no gap
(`Lands`), and an error is counted for it when the data has the length asked for and a CRC that
differs (`Caught`).  `Block.Placed` says that one of the two comes before the attempts are used up.
-/

namespace Defib

/-! ## The device -/

/-- Every line that is taken for data is one that the device prints for its RAM. -/
def ShowsRam (ram : Store UInt8) (text : Text) : Prop :=
  ∀ line ∈ splitlines text, parseMdLine line = none ∨ ∃ l : MdLine, line = l.text ram

/-- A device whose RAM does not change and whose `crc32` command works. -/
structure DumpDevice.Works (device : DumpDevice) (ram : Store UInt8) : Prop where
  hasCrc32 : ∀ n text, device.reply n .crcProbe = .ok text →
    lowerContains text "unknown command".toList = false
  crc : ∀ n addr size, ∃ text, device.reply n (.crc32 addr size) = .ok text ∧
    getDeviceCrc32 text = some (zlibCrc32 (ram.load addr size)).toNat
  shows : ∀ n addr size text, device.reply n (.md addr size) = .ok text → ShowsRam ram text

/-! ## The replies to `md.b` -/

/-- The lines begin at the address and leave no gap, and none has a text column that is taken for
bytes. -/
structure Lands (ram : Store UInt8) (addr : ℕ) (text : Text) : Prop where
  ne_nil : parseMdOutput text ≠ []
  gapless : Gapless addr (mdEntries text)
  plain : ∀ l : MdLine, l.text ram ∈ splitlines text → l.Plain ram

/-- As many bytes as were asked for, with a CRC that is not the one of the RAM. -/
def Caught (ram : Store UInt8) (addr remaining : ℕ) (text : Text) : Prop :=
  (parseMdOutput text).length = remaining ∧
    zlibCrc32 (parseMdOutput text) ≠ zlibCrc32 (ram.load addr remaining)

/-- A transport error, or a reply without data. -/
def NoData : Except Text Text → Prop
  | .error _ => True
  | .ok text => parseMdOutput text = []

/-- With so many retries left, a reply lands or is caught, and there is no data in those before. -/
def Placed (ram : Store UInt8) (addr remaining : ℕ) : ℕ → List (Except Text Text) → Prop
  | _, [] => True
  | left, reply :: replies =>
      (∃ text, reply = .ok text ∧ (Lands ram addr text ∨ Caught ram addr remaining text)) ∨
        NoData reply ∧ 0 < left ∧ Placed ram addr remaining (left - 1) replies

def Block.Placed (ram : Store UInt8) (b : Block) : Prop :=
  Defib.Placed ram b.addr b.remaining maxRetries b.replies

/-- Every byte is the one of the RAM that belongs where it is written. -/
def Block.Faithful (ram : Store UInt8) (ramAddr : ℕ) (b : Block) : Prop :=
  ∀ i x, b.data[i]? = some x → x = ram (ramAddr + (b.pos + i))

variable {ram : Store UInt8} {text : Text}

/-- The parsed lines are pieces of the RAM. -/
lemma piecesOf_mdEntries (hshows : ShowsRam ram text)
    (hplain : ∀ l : MdLine, l.text ram ∈ splitlines text → l.Plain ram) :
    PiecesOf ram (mdEntries text) := by
  intro p hp
  obtain ⟨line, hline, hparse⟩ := List.mem_filterMap.mp hp
  rcases hshows line hline with hnone | ⟨l, rfl⟩
  · rw [hnone] at hparse
    cases hparse
  · rw [MdLine.parseMdLine_text (hplain l hline)] at hparse
    cases hparse
    have hlen : (l.bytes ram).length = l.count := Store.length_load ..
    exact ⟨List.length_pos_iff.mp (by rw [hlen]; exact l.count_pos), by rw [hlen]; rfl⟩

/-- **A reply that lands** is parsed to a window of the RAM. -/
lemma Lands.parse_eq {addr : ℕ} (h : Lands ram addr text) (hshows : ShowsRam ram text) :
    parseMdOutput text = ram.load addr (parseMdOutput text).length := by
  have hmem : ∀ p, p ∈ (mdEntries text).insertionSort (fun p q => p.1 ≤ q.1) ↔ p ∈ mdEntries text :=
    fun p => List.mem_insertionSort _
  refine assemble_eq_load 0 (fun p hp => ?_) (List.pairwise_insertionSort _ _) ⟨fun p hp => ?_, ?_⟩
  · exact piecesOf_mdEntries hshows h.plain p ((hmem p).mp hp)
  · exact h.gapless.base_le p ((hmem p).mp hp)
  · rintro i hi ⟨p, hp, hlt⟩
    obtain ⟨q, hq, hholds⟩ := h.gapless.holds i hi ⟨p, (hmem p).mp hp, hlt⟩
    exact ⟨q, (hmem q).mpr hq, hholds⟩

/-! ## One attempt -/

variable {device : DumpDevice} {hasCrc32 last : Bool} {addr remaining : ℕ} {c : DumpCounts}

lemma checkCrc_reply {reply : Except Text Text} {data : List UInt8} :
    (checkCrc device last addr remaining reply data c).reply = reply := by
  unfold checkCrc
  grind

lemma attempt_reply : (attempt device hasCrc32 last addr remaining c).reply =
    device.reply c.sent (.md addr remaining) := by
  unfold attempt
  have := @checkCrc_reply
  grind

/-- An attempt counts errors and takes none back. -/
lemma attempt_errors_le :
    c.errors ≤ (attempt device hasCrc32 last addr remaining c).counts.errors := by
  unfold attempt checkCrc
  grind [DumpCounts.send, DumpCounts.retry]

variable (hasCrc32) in
/-- Without data another attempt follows, if there is one left. -/
lemma attempt_noData (h : NoData (device.reply c.sent (.md addr remaining))) :
    (attempt device hasCrc32 false addr remaining c).again = true ∧
      (attempt device hasCrc32 false addr remaining c).counts.errors = c.errors := by
  unfold attempt
  cases hreply : device.reply c.sent (.md addr remaining) with
  | error e => exact ⟨rfl, rfl⟩
  | ok text =>
      rw [hreply] at h
      have hlen : (parseMdOutput text).length = 0 := List.length_eq_zero_iff.mpr h
      dsimp only
      rw [if_pos hlen]
      exact ⟨rfl, rfl⟩

variable (hasCrc32 last) in
/-- A reply that lands is accepted. -/
lemma attempt_lands (hworks : device.Works ram)
    (hreply : device.reply c.sent (.md addr remaining) = .ok text) (h : Lands ram addr text) :
    (attempt device hasCrc32 last addr remaining c).again = false ∧
      (attempt device hasCrc32 last addr remaining c).data = parseMdOutput text := by
  have hparse := h.parse_eq (hworks.shows _ _ _ _ hreply)
  unfold attempt
  rw [hreply]
  dsimp only
  rw [if_neg (mt List.length_eq_zero_iff.mp h.ne_nil)]
  by_cases hcheck : hasCrc32 = true ∧ (parseMdOutput text).length = remaining
  · rw [if_pos hcheck]
    obtain ⟨resp, hresp, hcrc⟩ := hworks.crc c.send.sent addr remaining
    have hsame : zlibCrc32 (ram.load addr remaining) = zlibCrc32 (parseMdOutput text) := by
      rw [hcheck.2] at hparse
      rw [← hparse]
    unfold checkCrc
    rw [hresp]
    dsimp only
    rw [hcrc, hsame]
    dsimp only
    rw [if_pos rfl]
    exact ⟨rfl, rfl⟩
  · rw [if_neg hcheck]
    exact ⟨rfl, rfl⟩

/-- A reply that is caught counts an error. -/
lemma attempt_caught (hworks : device.Works ram) (hremaining : 0 < remaining)
    (hreply : device.reply c.sent (.md addr remaining) = .ok text)
    (h : Caught ram addr remaining text) :
    c.errors < (attempt device true last addr remaining c).counts.errors := by
  obtain ⟨hlen, hcrc⟩ := h
  obtain ⟨resp, hresp, hdevice⟩ := hworks.crc c.send.sent addr remaining
  have hdiffers :
      (zlibCrc32 (ram.load addr remaining)).toNat ≠ (zlibCrc32 (parseMdOutput text)).toNat :=
    fun heq => hcrc (BitVec.eq_of_toNat_eq heq.symm)
  unfold attempt
  rw [hreply]
  dsimp only
  rw [if_neg (by omega), if_pos ⟨rfl, hlen⟩]
  unfold checkCrc
  rw [hresp]
  dsimp only
  rw [hdevice]
  dsimp only
  rw [if_neg hdiffers]
  split
  · exact Nat.lt_succ_self c.errors
  · exact Nat.lt_succ_self c.errors

/-- What an attempt leaves that is the last, or that no other follows. -/
lemma attempt_ne_nil (hremaining : 0 < remaining)
    (h : (attempt device hasCrc32 last addr remaining c).again = false ∨ last = true) :
    (attempt device hasCrc32 last addr remaining c).data ≠ [] := by
  have hzeros : List.replicate remaining (0 : UInt8) ≠ [] :=
    List.length_pos_iff.mp (by rwa [List.length_replicate])
  revert h
  unfold attempt checkCrc
  grind [List.length_eq_zero_iff]

/-! ## All attempts at a block -/

lemma attempts_errors_le (left : ℕ) :
    c.errors ≤ (attempts device hasCrc32 addr remaining left c).2.2.errors := by
  induction left generalizing c with
  | zero => exact attempt_errors_le
  | succ left ih =>
      rw [attempts]
      dsimp only
      split
      · exact attempt_errors_le.trans ih
      · exact attempt_errors_le

/-- **The attempts at a block** whose replies are placed count an error or yield the RAM. -/
lemma attempts_placed (hworks : device.Works ram) (hremaining : 0 < remaining) (left : ℕ)
    (h : Placed ram addr remaining left (attempts device true addr remaining left c).1) :
    c.errors < (attempts device true addr remaining left c).2.2.errors ∨
      (attempts device true addr remaining left c).2.1 =
        ram.load addr (attempts device true addr remaining left c).2.1.length := by
  induction left generalizing c with
  | zero =>
      rw [attempts, Placed, attempt_reply] at h
      rcases h with ⟨text, hreply, hlands | hcaught⟩ | ⟨-, hleft, -⟩
      · right
        have hdata := (attempt_lands true true hworks hreply hlands).2
        change (attempt device true true addr remaining c).data = ram.load addr
          (attempt device true true addr remaining c).data.length
        rw [hdata]
        exact hlands.parse_eq (hworks.shows _ _ _ _ hreply)
      · exact .inl (attempt_caught hworks hremaining hreply hcaught)
      · exact absurd hleft (lt_irrefl 0)
  | succ left ih =>
      rw [attempts] at h ⊢
      dsimp only at h ⊢
      by_cases hagain : (attempt device true false addr remaining c).again = true
      · rw [if_pos hagain] at h ⊢
        rw [Placed, attempt_reply] at h
        rcases h with ⟨text, hreply, hlands | hcaught⟩ | ⟨hnone, -, hrest⟩
        · rw [(attempt_lands true false hworks hreply hlands).1] at hagain
          cases hagain
        · exact .inl ((attempt_caught hworks hremaining hreply hcaught).trans_le
            (attempts_errors_le left))
        · rw [← (attempt_noData true hnone).2]
          exact ih hrest
      · rw [if_neg hagain] at h ⊢
        rw [Placed, attempt_reply] at h
        rcases h with ⟨text, hreply, hlands | hcaught⟩ | ⟨hnone, -, -⟩
        · right
          dsimp only
          rw [(attempt_lands true false hworks hreply hlands).2]
          exact hlands.parse_eq (hworks.shows _ _ _ _ hreply)
        · exact .inl (attempt_caught hworks hremaining hreply hcaught)
        · exact absurd (attempt_noData true hnone).1 hagain

variable (device hasCrc32 addr c) in
/-- A block is never empty, so the dump goes on. -/
lemma attempts_ne_nil (hremaining : 0 < remaining) (left : ℕ) :
    (attempts device hasCrc32 addr remaining left c).2.1 ≠ [] := by
  induction left generalizing c with
  | zero => exact attempt_ne_nil hremaining (.inr rfl)
  | succ left ih =>
      rw [attempts]
      dsimp only
      split
      · exact ih _
      · rename_i hagain
        exact attempt_ne_nil hremaining (.inl (Bool.not_eq_true _ ▸ hagain))

/-! ## The dump -/

lemma mem_dumpBlocks {ramAddr flashSize : ℕ} {isCancelled : ℕ → Bool} {rounds offset i : ℕ}
    {b : Block} (hb : b ∈ (dumpBlocks device hasCrc32 ramAddr flashSize isCancelled rounds offset
      offset i c).blocks) :
    b.addr = ramAddr + b.pos ∧ 0 < b.remaining ∧ ∃ c' : DumpCounts,
      b.replies = (attempts device hasCrc32 b.addr b.remaining maxRetries c').1 ∧
      b.data = (attempts device hasCrc32 b.addr b.remaining maxRetries c').2.1 ∧
      b.errors =
        (attempts device hasCrc32 b.addr b.remaining maxRetries c').2.2.errors - c'.errors := by
  induction rounds generalizing offset i c with
  | zero => exact absurd hb List.not_mem_nil
  | succ rounds ih =>
      rw [dumpBlocks] at hb
      by_cases hmore : offset < flashSize
      · rw [if_pos hmore] at hb
        have hremaining : 0 < min chunkSize (flashSize - offset) :=
          lt_min (by decide) (Nat.sub_pos_of_lt hmore)
        dsimp only at hb
        split at hb
        · rw [List.mem_singleton.mp hb]
          exact ⟨rfl, hremaining, c, rfl, rfl, rfl⟩
        · rcases List.mem_cons.mp hb with rfl | hb
          · exact ⟨rfl, hremaining, c, rfl, rfl, rfl⟩
          · exact ih hb
      · rw [if_neg hmore] at hb
        exact absurd hb List.not_mem_nil

/-- As many rounds as there are bytes left are enough. -/
lemma le_offset_dumpBlocks {ramAddr flashSize : ℕ} {isCancelled : ℕ → Bool}
    (hgo : ∀ i, isCancelled i = false) {rounds pos offset i : ℕ}
    (hrounds : flashSize - offset ≤ rounds) :
    flashSize ≤
      (dumpBlocks device hasCrc32 ramAddr flashSize isCancelled rounds pos offset i c).offset := by
  induction rounds generalizing pos offset i c with
  | zero => exact Nat.sub_eq_zero_iff_le.mp (Nat.le_zero.mp hrounds)
  | succ rounds ih =>
      rw [dumpBlocks]
      by_cases hmore : offset < flashSize
      · rw [if_pos hmore, hgo i]
        have hpos := List.length_pos_iff.mpr (attempts_ne_nil device hasCrc32 (ramAddr + offset) c
          (lt_min (by decide : 0 < chunkSize) (Nat.sub_pos_of_lt hmore)) maxRetries)
        exact ih (by omega)
      · rw [if_neg hmore]
        exact not_lt.mp hmore

lemma dumpFlash_ok {sent ramAddr flashSize : ℕ} {existing : Option ℕ} {isCancelled : ℕ → Bool}
    {dump : FlashDump}
    (h : dumpFlash device sent ramAddr flashSize existing isCancelled = .ok dump) :
    ∃ crcResp, device.reply (sent + 3) .crcProbe = .ok crcResp ∧
      dump = dumpBlocks device (!lowerContains crcResp "unknown command".toList) ramAddr flashSize
        isCancelled (flashSize - resumeOffset flashSize existing)
        (resumeOffset flashSize existing) (resumeOffset flashSize existing) 0
        ⟨sent + 4, 0, 0, 0⟩ := by
  have hbind : ∀ {α β : Type} {x : Except Text α} {f : α → Except Text β} {b : β},
      (x >>= f) = .ok b → ∃ a, x = .ok a ∧ f a = .ok b := by
    intro α β x f b h
    cases x with
    | error e => cases h
    | ok a => exact ⟨a, rfl, h⟩
  unfold dumpFlash at h
  obtain ⟨probeResp, -, h⟩ := hbind h
  dsimp only at h
  split at h
  · cases h
  obtain ⟨resp, -, h⟩ := hbind h
  split at h
  · cases h
  obtain ⟨checkResp, -, h⟩ := hbind h
  split at h
  · cases h
  obtain ⟨crcResp, hcrc, h⟩ := hbind h
  exact ⟨crcResp, hcrc, (Except.ok.inj h).symm⟩

/-- A dump that is not cancelled reaches the end of the flash. -/
lemma dumpFlash_complete {sent ramAddr flashSize : ℕ} {existing : Option ℕ} {isCancelled : ℕ → Bool}
    {dump : FlashDump} (hgo : ∀ i, isCancelled i = false)
    (h : dumpFlash device sent ramAddr flashSize existing isCancelled = .ok dump) :
    flashSize ≤ dump.offset := by
  obtain ⟨crcResp, -, rfl⟩ := dumpFlash_ok h
  exact le_offset_dumpBlocks hgo le_rfl

/-- **A dump of a device that works** writes every byte where it belongs, or counts an error for the
block, in every block whose replies are placed. -/
theorem dump_flash_places {device : DumpDevice} {ram : Store UInt8} (hworks : device.Works ram)
    {sent ramAddr flashSize : ℕ} {existing : Option ℕ} {isCancelled : ℕ → Bool} {dump : FlashDump}
    (h : dumpFlash device sent ramAddr flashSize existing isCancelled = .ok dump) :
    ∀ b ∈ dump.blocks, b.Placed ram → b.Faithful ram ramAddr ∨ 0 < b.errors := by
  obtain ⟨crcResp, hresp, rfl⟩ := dumpFlash_ok h
  intro b hb hplaced
  rw [hworks.hasCrc32 _ _ hresp, Bool.not_false] at hb
  obtain ⟨haddr, hremaining, c, hreplies, hdata, herrors⟩ := mem_dumpBlocks hb
  rw [Block.Placed, hreplies] at hplaced
  rcases attempts_placed hworks hremaining maxRetries hplaced with hcounted | hram
  · exact .inr (by rw [herrors]; exact Nat.sub_pos_of_lt hcounted)
  · refine .inl fun i x hx => ?_
    rw [hdata, hram] at hx
    have hi : i < (attempts device true b.addr b.remaining maxRetries c).2.1.length := by
      have hlt := (List.getElem?_eq_some_iff.mp hx).1
      rwa [Store.length_load] at hlt
    rw [Store.getElem?_load ram b.addr _ i hi, haddr, Nat.add_assoc] at hx
    exact (Option.some.inj hx).symm

/-! ## Two runs -/

/-- A device that answers at once, with the given text to `md.b`. -/
def promptDevice (ram : Store UInt8) (md : ℕ → ℕ → Text) : DumpDevice := fun _ cmd =>
  let body : Text := match cmd with
    | .sfRead _ _ => "Read: OK\r\n".toList
    | .crc32 addr size =>
        "==> ".toList ++ hexDigits 8 (zlibCrc32 (ram.load addr size)).toNat ++ "\r\n".toList
    | .md addr size => md addr size
    | _ => []
  [.data (encodeAscii (body ++ "# ".toList))]

lemma sendCommand_prompt {text : Text} (h : ∀ c ∈ text, c.toNat < 128) :
    sendCommand "# ".toList [.data (encodeAscii (text ++ "# ".toList))] =
      .ok (text ++ "# ".toList) := by
  have hascii : ∀ c ∈ text ++ "# ".toList, c.toNat < 128 := by
    intro c hc
    rcases List.mem_append.mp hc with hc | hc
    · exact h c hc
    · exact forall_mem_of_all (p := fun c => c.toNat < 128) (by decide) c hc
  have hdecode := decodeAsciiReplace_encodeAscii hascii
  have hne : encodeAscii (text ++ "# ".toList) ≠ [] := by simp [encodeAscii]
  have htail : "# ".toList <:+: decodeAsciiReplace ((encodeAscii (text ++ "# ".toList)).drop
      ((encodeAscii (text ++ "# ".toList)).length - 64)) := by
    rw [decodeAsciiReplace, List.map_drop, ← decodeAsciiReplace, hdecode,
      List.drop_append_of_le_length]
    · exact (List.suffix_append _ _).isInfix
    · simp [encodeAscii]
  rw [sendCommand, collect, if_neg hne]
  dsimp only
  rw [List.nil_append, if_pos htail, hdecode]

lemma getDeviceCrc32_digits {n : ℕ} (h : n < 16 ^ 8) (rest : Text) :
    getDeviceCrc32 ("==> ".toList ++ (hexDigits 8 n ++ rest)) = some n := by
  have hdigits : (hexDigits 8 n).all isHexDigit = true :=
    List.all_eq_true.mpr (forall_mem_hexDigits isHexDigit_digitChar 8 n)
  have hspace : (' ' :: (hexDigits 8 n ++ rest)).dropWhile isAsciiSpace = hexDigits 8 n ++ rest :=
    dropWhile_hexDigits 7 n rest
  have hlit : lit "==>".toList ("==> ".toList ++ (hexDigits 8 n ++ rest)) =
      some (' ' :: (hexDigits 8 n ++ rest)) := by
    rw [show "==> ".toList = "==>".toList ++ [' '] by decide, List.append_assoc, lit_append,
      List.singleton_append]
  have hmatch : matchCrc ("==> ".toList ++ (hexDigits 8 n ++ rest)) = some (n, rest) := by
    rw [matchCrc, hlit]
    simp only [Option.bind_eq_bind, Option.bind_some]
    rw [hspace, List.take_left' (length_hexDigits 8 n), List.drop_left' (length_hexDigits 8 n),
      if_pos ⟨length_hexDigits 8 n, hdigits⟩, hexNumber_hexDigits h]
  exact search_of_match hmatch

lemma promptDevice_works {ram : Store UInt8} {md : ℕ → ℕ → Text}
    (hascii : ∀ addr size, ∀ c ∈ md addr size, c.toNat < 128)
    (hshows : ∀ addr size, ShowsRam ram (md addr size ++ "# ".toList)) :
    (promptDevice ram md).Works ram where
  hasCrc32 n text h := by
    have hreply : (promptDevice ram md).reply n .crcProbe = .ok "# ".toList :=
      sendCommand_prompt fun c hc => absurd hc List.not_mem_nil
    rw [hreply] at h
    cases h
    decide
  crc n addr size := by
    have hlt : (zlibCrc32 (ram.load addr size)).toNat < 16 ^ 8 := (zlibCrc32 _).isLt
    refine ⟨_, sendCommand_prompt fun c hc => ?_, ?_⟩
    · rcases List.mem_append.mp hc with hc | hc
      · rcases List.mem_append.mp hc with hc | hc
        · exact forall_mem_of_all (p := fun c => c.toNat < 128) (by decide) c hc
        · exact forall_mem_hexDigits (p := fun c => c.toNat < 128) (by decide) 8 _ c hc
      · exact forall_mem_of_all (p := fun c => c.toNat < 128) (by decide) c hc
    · rw [List.append_assoc, List.append_assoc]
      exact getDeviceCrc32_digits hlt _
  shows n addr size text h := by
    have hreply :
        (promptDevice ram md).reply n (.md addr size) = .ok (md addr size ++ "# ".toList) :=
      sendCommand_prompt (hascii addr size)
    rw [hreply] at h
    cases h
    exact hshows addr size

def cameraRam : Store UInt8 := fun a => if a < 0x42000010 then 0x11 else 0x22

/-- The two lines of the staging area. -/
def firstLine : MdLine := ⟨0x42000000, 16, 4, by decide, by decide, by decide⟩

def secondLine : MdLine := ⟨0x42000010, 16, 4, by decide, by decide, by decide⟩

def lossyMd (addr size : ℕ) : Text :=
  if addr = 0x42000000 ∧ size = 0x20 then secondLine.text cameraRam ++ "\r\n".toList else []

def fullMd (addr size : ℕ) : Text :=
  if addr = 0x42000000 ∧ size = 0x20 then
    firstLine.text cameraRam ++ "\r\n".toList ++ (secondLine.text cameraRam ++ "\r\n".toList)
  else []

lemma parseMdLine_of_prompt {line : Text} (h : line ∈ splitlines "# ".toList) :
    parseMdLine line = none := by
  rw [show splitlines "# ".toList = ["# ".toList] by decide] at h
  rw [List.mem_singleton.mp h]
  decide

lemma splitlines_fullMd : splitlines (fullMd 0x42000000 0x20 ++ "# ".toList) =
    [firstLine.text cameraRam, secondLine.text cameraRam, "# ".toList] := by decide +kernel

lemma fullMd_works : (promptDevice cameraRam fullMd).Works cameraRam := by
  refine promptDevice_works (fun addr size => ?_) (fun addr size line hline => ?_)
  · unfold fullMd
    split
    · exact forall_mem_of_all (by decide +kernel)
    · exact fun c hc => absurd hc List.not_mem_nil
  · by_cases hcmd : addr = 0x42000000 ∧ size = 0x20
    · obtain ⟨rfl, rfl⟩ := hcmd
      rw [splitlines_fullMd] at hline
      rcases List.mem_cons.mp hline with rfl | hline
      · exact .inr ⟨firstLine, rfl⟩
      rcases List.mem_cons.mp hline with rfl | hline
      · exact .inr ⟨secondLine, rfl⟩
      · rw [List.mem_singleton.mp hline]
        exact .inl (by decide)
    · rw [fullMd, if_neg hcmd, List.nil_append] at hline
      exact .inl (parseMdLine_of_prompt hline)

lemma fullMd_lands : Lands cameraRam 0x42000000 (fullMd 0x42000000 0x20 ++ "# ".toList) where
  ne_nil := by decide +kernel
  gapless := by
    rw [show mdEntries (fullMd 0x42000000 0x20 ++ "# ".toList) =
      [(0x42000000, List.replicate 16 0x11), (0x42000010, List.replicate 16 0x22)] by
        decide +kernel]
    refine ⟨by simp, fun i hi => ?_⟩
    simp only [List.mem_cons, List.not_mem_nil, or_false, exists_eq_or_imp, exists_eq_left, Holds,
      List.length_replicate]
    omega
  plain l hl := by
    have hlabel : hexNumber ((l.text cameraRam).take 8) = l.label := by
      rw [MdLine.take_text, hexNumber_hexDigits l.label_lt]
    rw [splitlines_fullMd] at hl
    rcases List.mem_cons.mp hl with h | hl
    · rw [h] at hlabel
      have hfirst : l.label = 0x42000000 := hlabel.symm.trans (by decide +kernel)
      exact MdLine.plain_of_head (by rw [hfirst]; decide) (by rw [hfirst]; decide)
    rcases List.mem_cons.mp hl with h | hl
    · rw [h] at hlabel
      have hsecond : l.label = 0x42000010 := hlabel.symm.trans (by decide +kernel)
      exact MdLine.plain_of_head (by rw [hsecond]; decide) (by rw [hsecond]; decide)
    · have hshort := congrArg List.length (MdLine.take_text cameraRam l)
      rw [List.mem_singleton.mp hl, length_hexDigits] at hshort
      exact absurd hshort (by decide)

/-- Both lines of a block arrive. -/
theorem dump_flash_places_block :
    ∃ dump, dumpFlash (promptDevice cameraRam fullMd) 0 0x42000000 0x20 none (fun _ => false) =
        .ok dump ∧
      ∀ b ∈ dump.blocks, b.Faithful cameraRam 0x42000000 ∨ 0 < b.errors := by
  have hrun : dumpFlash (promptDevice cameraRam fullMd) 0 0x42000000 0x20 none (fun _ => false) =
      .ok ⟨[⟨0, 0x42000000, 0x20, [.ok (fullMd 0x42000000 0x20 ++ "# ".toList)],
        List.replicate 16 0x11 ++ List.replicate 16 0x22, 0⟩], 32, ⟨6, 1, 0, 0⟩⟩ := by
    decide +kernel
  refine ⟨_, hrun, fun b hb => dump_flash_places fullMd_works hrun b hb ?_⟩
  rw [List.mem_singleton.mp hb]
  exact .inl ⟨_, rfl, .inl fullMd_lands⟩

lemma lossyMd_works : (promptDevice cameraRam lossyMd).Works cameraRam := by
  refine promptDevice_works (fun addr size => ?_) (fun addr size line hline => ?_)
  · unfold lossyMd
    split
    · exact forall_mem_of_all (by decide +kernel)
    · exact fun c hc => absurd hc List.not_mem_nil
  · unfold lossyMd at hline
    split at hline
    · rw [show splitlines (secondLine.text cameraRam ++ "\r\n".toList ++ "# ".toList) =
        [secondLine.text cameraRam, "# ".toList] by decide +kernel] at hline
      rcases List.mem_cons.mp hline with rfl | hline
      · exact .inr ⟨secondLine, rfl⟩
      · rw [List.mem_singleton.mp hline]
        exact .inl (by decide)
    · exact .inl (parseMdLine_of_prompt hline)

/-- The first line of a block is lost: the second one is written in its place, zeros behind it, and
no error is counted. -/
theorem dump_flash_misplaces :
    (promptDevice cameraRam lossyMd).Works cameraRam ∧
    ∃ dump, dumpFlash (promptDevice cameraRam lossyMd) 0 0x42000000 0x20 none (fun _ => false) =
        .ok dump ∧
      dump.counts.errors = 0 ∧
      ∃ b ∈ dump.blocks, ¬ b.Faithful cameraRam 0x42000000 ∧ b.errors = 0 := by
  refine ⟨lossyMd_works,
    ⟨[⟨0, 0x42000000, 0x20, [.ok (lossyMd 0x42000000 0x20 ++ "# ".toList)],
        List.replicate 16 0x22, 0⟩,
      ⟨16, 0x42000010, 0x10, List.replicate 6 (.ok "# ".toList), List.replicate 16 0, 0⟩],
      32, ⟨11, 0, 0, 6⟩⟩, by decide +kernel, rfl, _, List.mem_cons_self, fun h => ?_, rfl⟩
  exact absurd (h 0 0x22 rfl) (by decide)

end Defib
