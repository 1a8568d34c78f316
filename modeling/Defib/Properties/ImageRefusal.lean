import Defib.Boot.Session
import Defib.Properties.BootWire

/-!
# Malformed boot images

`send_firmware` of the newer bootroms reads lengths and offsets from the image.  A magic number that
is wrong is refused, but that is all: a field that the image is too short for raises `struct.error`,
and slices end where the image ends, so that a section whose length points past the end is sent as
far as it goes.  `images_refused_iff` says for which images all is well.
-/

namespace Defib

open Scripted (Writing Returning Yields)

/-! ## What is announced -/

/-- The lengths and addresses in the HEAD frames that were written. -/
def heads (trace : List HostEvent) : List (ℕ × ℕ) :=
  (writes trace).filterMap fun f =>
    if frameLabel f = .head then some (readBe32 (f.drop 4), readBe32 (f.drop 8)) else none

/-- An upload does not raise, writes nothing if a field of the image points past its end, and
announces the declared transfers and no others when it succeeds. -/
structure HandlesImage (upload : Host SessionResult) (overrun : Prop) (declared : List (ℕ × ℕ)) :
    Prop where
  returns : Returning upload
  refuses : overrun → ∀ script r, (upload script).result = .ok r →
    r.success = false ∧ writes (upload script).trace = []
  announces : ∀ r trace, Yields upload r trace → r.success = true →
    ∀ head, head ∈ heads trace ↔ head ∈ declared

/-- An upload that succeeds has sent the region before which it would have given up. -/
lemma sent_of_success {sent : Bool} {rest : Host SessionResult} {stages : List BootStage}
    {error : String} {r : SessionResult} {trace : List HostEvent}
    (h : Yields (if sent then rest else pure (.failed stages error)) r trace)
    (hsuccess : r.success = true) : sent = true ∧ Yields rest r trace := by
  cases sent with
  | false =>
      obtain ⟨rfl, -⟩ := Yields.pure_iff.mp h
      cases hsuccess
  | true => exact ⟨rfl, h⟩

/-- Nothing is written behind the last region. -/
lemma trace_of_last {sent : Bool} {r r' r'' : SessionResult} {trace : List HostEvent}
    (h : Yields (if sent then pure r' else pure r'' : Host SessionResult) r trace) :
    trace = [] := by
  cases sent with
  | false => exact (Yields.pure_iff.mp h).2
  | true => exact (Yields.pure_iff.mp h).2

lemma heads_append (es es' : List HostEvent) : heads (es ++ es') = heads es ++ heads es' := by
  rw [heads, writes_append, List.filterMap_append]
  rfl

lemma mem_heads {trace : List HostEvent} {head : ℕ × ℕ} :
    head ∈ heads trace ↔ ∃ f, .write f ∈ trace ∧ frameLabel f = .head ∧
      head = (readBe32 (f.drop 4), readBe32 (f.drop 8)) := by
  rw [heads, List.mem_filterMap]
  refine exists_congr fun f => ?_
  rw [mem_writes]
  refine and_congr_right fun _ => ?_
  by_cases hlabel : frameLabel f = .head
  · rw [if_pos hlabel, and_iff_right hlabel, Option.some.injEq, eq_comm]
  · rw [if_neg hlabel]
    exact iff_of_false (fun h => by cases h) fun h => hlabel h.1

lemma heads_eq_nil {trace : List HostEvent} (h : ∀ f, .write f ∈ trace → frameLabel f ≠ .head) :
    heads trace = [] := by
  apply List.eq_nil_iff_forall_not_mem.mpr
  intro head hhead
  obtain ⟨f, hf, hlabel, -⟩ := mem_heads.mp hhead
  exact h f hf hlabel

/-! ## One transfer -/

section

variable {P : List UInt8 → Prop} {frame : List UInt8} {maxRetries : ℕ}

lemma waitAckLoop_spec (hP : P frame) (retries : ℕ) (script : List (Reading UInt8)) :
    (∃ acked, (waitAckLoop frame maxRetries retries script).result = .ok acked) ∧
      ∀ f, .write f ∈ (waitAckLoop frame maxRetries retries script).trace → P f := by
  induction script generalizing retries with
  | nil =>
      rw [waitAckLoop.eq_def]
      split_ifs
      · exact ⟨⟨_, rfl⟩, fun f hf => by simp at hf⟩
      · exact ⟨⟨_, rfl⟩, fun f hf => by simp at hf⟩
  | cons r rest ih =>
      rw [waitAckLoop.eq_def]
      split_ifs
      · cases r with
        | expired => exact ⟨⟨_, rfl⟩, fun f hf => by simp at hf⟩
        | timeout => exact ⟨⟨_, rfl⟩, fun f hf => by simp at hf⟩
        | item b =>
            dsimp only
            split_ifs
            · exact ⟨⟨_, rfl⟩, fun f hf => by simp at hf⟩
            · obtain ⟨hresult, hwrites⟩ := ih (retries + 1)
              refine ⟨hresult, fun f hf => ?_⟩
              rcases List.mem_cons.mp hf with hf | hf
              · cases hf
              · rcases List.mem_cons.mp hf with hf | hf
                · exact Event.write.inj hf ▸ hP
                · exact hwrites f hf
            · obtain ⟨hresult, hwrites⟩ := ih retries
              refine ⟨hresult, fun f hf => ?_⟩
              rcases List.mem_cons.mp hf with hf | hf
              · cases hf
              · exact hwrites f hf
      · exact ⟨⟨_, rfl⟩, fun f hf => by simp at hf⟩

lemma writing_frameWaitAck (hP : P frame) : Writing P (frameWaitAck maxRetries frame) :=
  Writing.bind (Writing.write hP) fun _ script => (waitAckLoop_spec hP 0 script).2

lemma returning_frameWaitAck : Returning (frameWaitAck maxRetries frame) :=
  Returning.bind (Returning.write _) fun _ script =>
    (waitAckLoop_spec (P := fun _ => True) trivial 0 script).1

end

section

variable {κ : Type} {send : κ → Host Bool}

lemma writing_sendAll {P : List UInt8 → Prop} {ks : List κ} (h : ∀ k ∈ ks, Writing P (send k)) :
    Writing P (sendAll send ks) := by
  induction ks with
  | nil => exact Writing.pure _
  | cons k ks ih =>
      obtain ⟨hk, hks⟩ := List.forall_mem_cons.mp h
      exact Writing.bind hk fun _ => Writing.ite (ih hks) (Writing.pure _)

lemma returning_sendAll {ks : List κ} (h : ∀ k, Returning (send k)) :
    Returning (sendAll send ks) := by
  induction ks with
  | nil => exact Returning.pure _
  | cons k ks ih => exact Returning.bind (h k) fun _ => Returning.ite ih (Returning.pure _)

end

section

variable {data : List UInt8} {address : ℕ}

/-- The transfer of both protocols. -/
def sendRegion (data : List UInt8) (address : ℕ) : Host Bool :=
  sendDataToBootrom (frameWaitAck 10) data address

lemma sendRegion_of_lt (hlength : data.length < 2 ^ 32) (haddress : address < 2 ^ 32) :
    sendRegion data address = sendAll (frameWaitAck 10)
      (transferFrames data.length address (chunkData data maxDataLen)) :=
  sendDataToBootrom_eq _ hlength haddress

lemma sendRegion_of_not_lt (hlength : ¬ data.length < 2 ^ 32) :
    sendRegion data address = Scripted.raise "argument out of range" := by
  rw [sendRegion, sendDataToBootrom, structPackBe32, if_neg hlength]
  rfl

lemma returning_sendRegion (hlength : data.length < 2 ^ 32) (haddress : address < 2 ^ 32) :
    Returning (sendRegion data address) := by
  rw [sendRegion_of_lt hlength haddress]
  exact returning_sendAll fun _ => returning_frameWaitAck

/-- The HEAD frame comes first. -/
lemma write_head_mem_sendRegion (hlength : data.length < 2 ^ 32) (haddress : address < 2 ^ 32)
    (script : List (Reading UInt8)) :
    .write (headBytes data.length address) ∈ (sendRegion data address script).trace := by
  rw [sendRegion_of_lt hlength haddress, transferFrames, sendAll]
  obtain ⟨es, hes⟩ := Scripted.trace_bind (frameWaitAck 10 (headBytes data.length address)) _ script
  obtain ⟨es', hes'⟩ := Scripted.trace_bind (Scripted.write (headBytes data.length address))
    (fun _ => waitAck (headBytes data.length address) 10) script
  rw [hes, frameWaitAck, hes']
  exact List.mem_append_left _ (List.mem_append_left _ List.mem_cons_self)

/-- **A transfer announces itself** and nothing else. -/
lemma mem_heads_sendRegion (hlength : data.length < 2 ^ 32) (haddress : address < 2 ^ 32)
    (script : List (Reading UInt8)) (head : ℕ × ℕ) :
    head ∈ heads (sendRegion data address script).trace ↔ head = (data.length, address) := by
  obtain ⟨hreadLength, hreadAddress⟩ := readBe32_headBytes hlength haddress
  rw [mem_heads]
  constructor
  · rintro ⟨f, hf, hlabel, rfl⟩
    rw [sendRegion_of_lt hlength haddress] at hf
    have hmem := writing_sendAll (fun k hk => writing_frameWaitAck hk) script f hf
    rcases mem_transferFrames hmem with rfl | ⟨n, c, rfl⟩ | ⟨n, rfl⟩
    · rw [hreadLength, hreadAddress]
    · rw [frameLabel_dataFrame] at hlabel
      cases hlabel
    · rw [frameLabel_tailFrame] at hlabel
      cases hlabel
  · rintro rfl
    refine ⟨_, write_head_mem_sendRegion hlength haddress script, frameLabel_headBytes _ _, ?_⟩
    rw [hreadLength, hreadAddress]

lemma mem_heads_of_yields (hlength : data.length < 2 ^ 32) (haddress : address < 2 ^ 32)
    {sent : Bool} {trace : List HostEvent} (h : Yields (sendRegion data address) sent trace)
    (head : ℕ × ℕ) : head ∈ heads trace ↔ head = (data.length, address) := by
  obtain ⟨script, rest, hrun⟩ := h
  have hheads := mem_heads_sendRegion hlength haddress script head
  rwa [hrun] at hheads

/-- A device can take the transfer, whatever it sends then. -/
lemma exists_acks_sendRegion (hlength : data.length < 2 ^ 32) (haddress : address < 2 ^ 32) :
    ∃ acks, ∀ tail, (sendRegion data address (acks ++ tail)).result = .ok true ∧
      (sendRegion data address (acks ++ tail)).rest = tail := by
  refine ⟨List.replicate (transferFrames data.length address
    (chunkData data maxDataLen)).length (.item ackByte), fun tail => ?_⟩
  rw [sendRegion_of_lt hlength haddress,
    sendAll_acked (fun f _ => frameWaitAck_sends (Nat.succ_pos 9) f) tail]
  exact ⟨rfl, rfl⟩

end

/-! ## Fields -/

lemma u32At_eq_none_iff {file : List UInt8} {pos : ℕ} :
    u32At file pos = none ↔ file.length < pos + 4 := by
  rw [u32At]
  split_ifs with h
  · exact iff_of_false (by simp) (by omega)
  · exact iff_of_true rfl (by omega)

lemma u32At_lt {file : List UInt8} {pos n : ℕ} (h : u32At file pos = some n) : n < 2 ^ 32 := by
  rw [u32At] at h
  split_ifs at h
  exact Option.some.inj h ▸ readLe32_lt _

lemma length_slice {file : List UInt8} {pos n : ℕ} (h : pos + n ≤ file.length) :
    ((file.drop pos).take n).length = n := by
  rw [List.length_take, List.length_drop]
  omega

/-! ## The V500 -/

namespace HiSiliconV500

/-- The length of the AUX area, which begins at 8192. -/
def auxLength (firmware : List UInt8) : Option ℕ := u32At firmware 1024

/-- The AUX area points past the end. -/
def Overrun (firmware : List UInt8) : Prop :=
  ∃ auxLen, auxLength firmware = some auxLen ∧ firmware.length < 8192 + auxLen

/-- The transfers that an image declares. -/
def declared (firmware : List UInt8) : List (ℕ × ℕ) :=
  [(8192, 0), ((auxLength firmware).getD 0, 8192), (firmware.length, bootLoadAddr)]

/-- The AUX area lies in the image, and the image in the address space. -/
def WellSized (firmware : List UInt8) : Prop :=
  ∃ auxLen, auxLength firmware = some auxLen ∧ 8192 + auxLen ≤ firmware.length ∧
    firmware.length < 2 ^ 32

/-- `send_firmware`, when the AUX length can be read. -/
lemma sendFirmware_of_some {firmware : List UInt8} {auxLen : ℕ}
    (h : auxLength firmware = some auxLen) :
    sendFirmware firmware = (do
      let headSent ← sendRegion (firmware.take 8192) 0
      if headSent then
        let auxSent ← sendRegion ((firmware.drop 8192).take auxLen) 8192
        if auxSent then
          let bootSent ← sendRegion firmware bootLoadAddr
          if bootSent then pure (.done [.headArea, .auxArea, .bootImage, .complete])
          else pure (.failed [.headArea, .auxArea] "Failed to send boot image")
        else pure (.failed [.headArea] "Failed to send AUX area")
      else pure (.failed [] "Failed to send HEAD area")) := by
  rw [auxLength] at h
  rw [sendFirmware, structUnpackLe32_eq, h]
  rfl

lemma sendFirmware_of_none {firmware : List UInt8} (h : auxLength firmware = none) :
    sendFirmware firmware = (do
      let headSent ← sendRegion (firmware.take 8192) 0
      if headSent then Scripted.raise "unpack requires a buffer of 4 bytes"
      else pure (.failed [] "Failed to send HEAD area")) := by
  rw [auxLength] at h
  rw [sendFirmware, structUnpackLe32_eq, h]
  rfl

/-- The HEAD area is announced before anything is looked at. -/
lemma writes_sendFirmware_ne_nil (firmware : List UInt8) (script : List (Reading UInt8)) :
    writes (sendFirmware firmware script).trace ≠ [] := by
  have hlength : (firmware.take 8192).length < 2 ^ 32 := by
    rw [List.length_take]
    omega
  have hhead := write_head_mem_sendRegion hlength (Nat.two_pow_pos 32) script
  obtain ⟨es, hes⟩ := Scripted.trace_bind (sendRegion (firmware.take 8192) 0) _ script
  intro hnil
  have hmem : .write (headBytes (firmware.take 8192).length 0) ∈
      (sendFirmware firmware script).trace := hes ▸ List.mem_append_left es hhead
  rw [← mem_writes, hnil] at hmem
  cases hmem

lemma length_take_lt (firmware : List UInt8) : (firmware.take 8192).length < 2 ^ 32 := by
  rw [List.length_take]
  omega

/-- An image that handles well is well sized. -/
lemma wellSized_of_handles {firmware : List UInt8}
    (h : HandlesImage (sendFirmware firmware) (Overrun firmware) (declared firmware)) :
    WellSized firmware := by
  obtain ⟨acks, hacks⟩ := exists_acks_sendRegion (length_take_lt firmware) (Nat.two_pow_pos 32)
  cases haux : auxLength firmware with
  | none =>
      exfalso
      obtain ⟨r, hr⟩ := h.returns (acks ++ [])
      rw [sendFirmware_of_none haux, Scripted.bind_of_ok (hacks []).1] at hr
      cases hr
  | some auxLen =>
      have hfits : 8192 + auxLen ≤ firmware.length := by
        by_contra hover
        obtain ⟨r, hr⟩ := h.returns []
        exact writes_sendFirmware_ne_nil firmware []
          (h.refuses ⟨auxLen, haux, Nat.not_le.mp hover⟩ [] r hr).2
      refine ⟨auxLen, haux, hfits, ?_⟩
      by_contra hlong
      have hlength : ((firmware.drop 8192).take auxLen).length < 2 ^ 32 := by
        rw [length_slice hfits]
        exact u32At_lt haux
      have haddress : 8192 < 2 ^ 32 := by omega
      obtain ⟨acks', hacks'⟩ := exists_acks_sendRegion hlength haddress
      obtain ⟨r, hr⟩ := h.returns (acks ++ (acks' ++ []))
      rw [sendFirmware_of_some haux, Scripted.bind_of_ok (hacks _).1, (hacks _).2, if_pos rfl,
        Scripted.bind_of_ok (hacks' []).1, if_pos rfl, sendRegion_of_not_lt hlong] at hr
      cases hr

/-- A well-sized image handles well. -/
lemma handles_of_wellSized {firmware : List UInt8} (h : WellSized firmware) :
    HandlesImage (sendFirmware firmware) (Overrun firmware) (declared firmware) := by
  obtain ⟨auxLen, haux, hfits, hlong⟩ := h
  have hhead : (firmware.take 8192).length = 8192 := by
    rw [List.length_take]
    omega
  have hauxSize := length_slice hfits
  have hauxLength : ((firmware.drop 8192).take auxLen).length < 2 ^ 32 := by omega
  refine ⟨?_, ?_, ?_⟩
  · rw [sendFirmware_of_some haux]
    refine Returning.bind (returning_sendRegion (length_take_lt firmware) (Nat.two_pow_pos 32))
      fun _ => Returning.ite ?_ (Returning.pure _)
    refine Returning.bind (returning_sendRegion hauxLength (by omega))
      fun _ => Returning.ite ?_ (Returning.pure _)
    exact Returning.bind (returning_sendRegion hlong (by decide))
      fun _ => Returning.ite (Returning.pure _) (Returning.pure _)
  · rintro ⟨n, hn, hover⟩
    rw [haux] at hn
    cases hn
    omega
  · intro r trace hyields hsuccess head
    rw [sendFirmware_of_some haux] at hyields
    obtain ⟨headSent, t₁, rest₁, hsend₁, hafterHead, rfl⟩ := hyields.of_bind
    obtain ⟨rfl, hafterHead⟩ := sent_of_success hafterHead hsuccess
    obtain ⟨auxSent, t₂, rest₂, hsend₂, hafterAux, rfl⟩ := hafterHead.of_bind
    obtain ⟨rfl, hafterAux⟩ := sent_of_success hafterAux hsuccess
    obtain ⟨bootSent, t₃, rest₃, hsend₃, hend, rfl⟩ := hafterAux.of_bind
    rw [trace_of_last hend, heads_append, heads_append, heads_append, List.mem_append,
      List.mem_append, List.mem_append,
      mem_heads_of_yields (length_take_lt firmware) (Nat.two_pow_pos 32) hsend₁,
      mem_heads_of_yields hauxLength (by omega) hsend₂,
      mem_heads_of_yields hlong (by decide) hsend₃, declared, haux, hhead, hauxSize]
    simp [heads, writes]

end HiSiliconV500

/-! ## The CV6xx -/

namespace HiSiliconCV6xx

/-- A magic number is not there, and everything that is read before it is. -/
inductive BadMagic (file : List UInt8) : Prop
  | gsl {magic : ℕ} (hmagic : u32At file 2048 = some magic) (hne : magic ≠ cv6xxGslMagic)
  | params {gslLen magic : ℕ} (hgsl : u32At file 2048 = some cv6xxGslMagic)
      (hlen : u32At file 2084 = some gslLen)
      (hmagic : u32At file (gslLen + 3072 + 1024) = some magic) (hne : magic ≠ cv6xxDdrParamsMagic)
  | uboot {gslLen : ℕ} (hgsl : u32At file 2048 = some cv6xxGslMagic)
      (hlen : u32At file 2084 = some gslLen)
      (hparams : u32At file (gslLen + 3072 + 1024) = some cv6xxDdrParamsMagic)
      (hfields : gslLen + 3072 + 1024 + 44 ≤ file.length)
      (hnone : findBytes (packU32 cv6xxUbootMagic) (file.drop (gslLen + 3072 + 1024)) = none)

lemma isProtocolError_append {start : String} {c : Char} (hstart : start.toList.head? = some c)
    (hc : c ≠ 'u') (rest : String) : isProtocolError (start ++ rest) = true := by
  apply decide_eq_true
  intro h
  have hhead := congrArg (fun s : String => s.toList.head?) h
  rw [String.toList_append, List.head?_append, hstart] at hhead
  exact hc (Option.some.inj hhead)

lemma ok_bind {α β : Type} (a : α) (f : α → Except String β) : (.ok a >>= f) = f a := rfl

lemma error_bind {α β : Type} (e : String) (f : α → Except String β) :
    ((.error e : Except String α) >>= f) = .error e := rfl

lemma require_of_pos {cond : Prop} [Decidable cond] (h : cond) (error : String) :
    require cond error = .ok () := if_pos h

lemma require_of_neg {cond : Prop} [Decidable cond] (h : ¬ cond) (error : String) :
    require cond error = .error error := if_neg h

/-- How the parser ends without the parts of the file. -/
def Refused (file : List UInt8) (result : Except String Cv6xxBootParts) : Prop :=
  ∃ error, result = .error error ∧ (isProtocolError error = true ↔ BadMagic file)

/-- The image is too short for a field. -/
lemma refused_of_short {file : List UInt8} (h : ¬ BadMagic file) :
    Refused file (.error "unpack requires a buffer of 4 bytes") :=
  ⟨_, rfl, iff_of_false Bool.false_ne_true h⟩

lemma refused_of_badMagic {file : List UInt8} {start : String} {c : Char}
    (hstart : start.toList.head? = some c) (hc : c ≠ 'u') (rest : String) (h : BadMagic file) :
    Refused file (.error (start ++ rest)) :=
  ⟨_, rfl, iff_of_true (isProtocolError_append hstart hc rest) h⟩

lemma parseCv6xxBoot_of_layout {file : List UInt8} {L : Layout} (h : layout file = some L) :
    parseCv6xxBoot file = .ok (L.parts file) := by
  have hparse := parseCv6xxBoot_toOption file
  rw [h] at hparse
  cases hresult : parseCv6xxBoot file with
  | error error =>
      rw [hresult] at hparse
      cases hparse
  | ok parts =>
      rw [hresult] at hparse
      exact congrArg _ (Option.some.inj hparse)

/-- The errors of the parser behind the first two magic numbers. -/
lemma parseCv6xxBoot_cases_of_magic {file : List UInt8} {gslLen : ℕ}
    (hgsl : u32At file 2048 = some cv6xxGslMagic) (hlen : u32At file 2084 = some gslLen)
    (hparams : u32At file (gslLen + 3072 + 1024) = some cv6xxDdrParamsMagic) :
    (∃ parts, parseCv6xxBoot file = .ok parts) ∨ Refused file (parseCv6xxBoot file) := by
  rw [parseCv6xxBoot]
  simp only [structUnpackLe32_eq, hgsl, hlen, ok_bind, require_of_pos]
  rw [hparams]
  simp only [ok_bind, require_of_pos]
  -- the fields of the DDR section
  by_cases hfields : gslLen + 3072 + 1024 + 44 ≤ file.length
  swap
  · have hshort : ¬ BadMagic file := by
      rintro (⟨h, hne⟩ | ⟨h, h', hm, hne⟩ | ⟨h, h', hm, hf, -⟩) <;> simp_all
      omega
    have hlast : u32At file (gslLen + 3072 + 1024 + 40) = none :=
      u32At_eq_none_iff.mpr (by omega)
    rw [hlast]
    cases u32At file (gslLen + 3072 + 1024 + 32) with
    | none => exact .inr (refused_of_short hshort)
    | some offset32 =>
        cases u32At file (gslLen + 3072 + 1024 + 36) with
        | none => exact .inr (refused_of_short hshort)
        | some tableSize => exact .inr (refused_of_short hshort)
  have hread : ∀ pos, pos ≤ gslLen + 3072 + 1024 + 40 →
      u32At file pos = some (readLe32 (file.drop pos)) := fun pos hpos => if_pos (by omega)
  rw [hread (gslLen + 3072 + 1024 + 32) (by omega), hread (gslLen + 3072 + 1024 + 36) (by omega),
    hread (gslLen + 3072 + 1024 + 40) (by omega)]
  simp only [ok_bind]
  cases hfind : findBytes (packU32 cv6xxUbootMagic) (file.drop (gslLen + 3072 + 1024)) with
  | none =>
      refine .inr (refused_of_badMagic rfl (by decide) _ (.uboot hgsl hlen hparams hfields hfind))
  | some i =>
      dsimp only
      cases huboot : u32At file (gslLen + 3072 + 1024 + i + 36) with
      | none =>
          refine .inr (refused_of_short ?_)
          rintro (⟨h, hne⟩ | ⟨h, h', hm, hne⟩ | ⟨h, h', hm, -, hnone⟩) <;> simp_all
      | some ubootLen =>
          exact .inl ⟨_, rfl⟩

/-- **The errors of the parser.** -/
lemma parseCv6xxBoot_cases (file : List UInt8) :
    (∃ parts, parseCv6xxBoot file = .ok parts) ∨ Refused file (parseCv6xxBoot file) := by
  cases hgsl : u32At file 2048 with
  | none =>
      rw [parseCv6xxBoot, structUnpackLe32_eq, hgsl]
      refine .inr (refused_of_short ?_)
      rintro (⟨h, -⟩ | ⟨h, -⟩ | ⟨h, -⟩) <;> simp_all
  | some magicGsl =>
  by_cases hgslMagic : magicGsl = cv6xxGslMagic
  swap
  · rw [parseCv6xxBoot]
    simp only [structUnpackLe32_eq, hgsl, ok_bind, error_bind, require_of_neg hgslMagic,
      String.append_assoc]
    exact .inr (refused_of_badMagic rfl (by decide) _ (.gsl hgsl hgslMagic))
  subst hgslMagic
  cases hlen : u32At file 2084 with
  | none =>
      rw [parseCv6xxBoot]
      simp only [structUnpackLe32_eq, hgsl, hlen, ok_bind, error_bind, require_of_pos]
      refine .inr (refused_of_short ?_)
      rintro (⟨h, hne⟩ | ⟨h, h', -⟩ | ⟨h, h', -⟩) <;> simp_all
  | some gslLen =>
  cases hparams : u32At file (gslLen + 3072 + 1024) with
  | none =>
      rw [parseCv6xxBoot]
      simp only [structUnpackLe32_eq, hgsl, hlen, hparams, ok_bind, error_bind, require_of_pos]
      refine .inr (refused_of_short ?_)
      rintro (⟨h, hne⟩ | ⟨h, h', h'', -⟩ | ⟨h, h', h'', -⟩) <;> simp_all
  | some magicParams =>
  by_cases hparamsMagic : magicParams = cv6xxDdrParamsMagic
  swap
  · rw [parseCv6xxBoot]
    simp only [structUnpackLe32_eq, hgsl, hlen, hparams, ok_bind, error_bind, require_of_pos,
      require_of_neg hparamsMagic, String.append_assoc]
    exact .inr (refused_of_badMagic rfl (by decide) _ (.params hgsl hlen hparams hparamsMagic))
  subst hparamsMagic
  exact parseCv6xxBoot_cases_of_magic hgsl hlen hparams

/-- What a layout says about the file. -/
lemma layout_eq_some {file : List UInt8} {L : Layout} (h : layout file = some L) :
    u32At file 2048 = some cv6xxGslMagic ∧ u32At file 2084 = some (L.gslSize - 3072) ∧
      u32At file (L.gslSize + 1024) = some cv6xxDdrParamsMagic ∧ 3072 ≤ L.gslSize ∧
      findBytes (packU32 cv6xxUbootMagic) (file.drop (L.gslSize + 1024)) ≠ none := by
  simp only [layout, Option.bind_eq_bind, Option.bind_eq_some_iff, Option.guard_eq_some'] at h
  obtain ⟨magicGsl, hgsl, -, rfl, gslLen, hlen, magicParams, hparams, -, rfl, offset32, -,
    tableSize, -, tableCount, -, i, hfind, ubootLen, -, h⟩ := h
  obtain rfl := Option.some.inj h
  dsimp only
  refine ⟨hgsl, ?_, hparams, Nat.le_add_left _ _, ?_⟩
  · rw [Nat.add_sub_cancel, hlen]
  · rw [hfind]
    exact Option.some_ne_none i

lemma not_badMagic_of_layout {file : List UInt8} {L : Layout} (h : layout file = some L) :
    ¬ BadMagic file := by
  obtain ⟨hgsl, hlen, hparams, hle, hfind⟩ := layout_eq_some h
  have hgslLen : ∀ {gslLen}, u32At file 2084 = some gslLen → gslLen + 3072 = L.gslSize := by
    intro gslLen hlen'
    have := Option.some.inj (hlen.symm.trans hlen')
    omega
  rintro (⟨hmagic, hne⟩ | ⟨-, hlen', hmagic, hne⟩ | ⟨-, hlen', -, -, hnone⟩)
  · exact hne (Option.some.inj (hmagic.symm.trans hgsl))
  · rw [hgslLen hlen', hparams] at hmagic
    exact hne (Option.some.inj hmagic).symm
  · rw [hgslLen hlen'] at hnone
    exact hfind hnone

lemma length_gsl {file : List UInt8} {L : Layout} (h : layout file = some L) :
    (L.gsl file).length = L.gslSize := by
  obtain ⟨-, -, hparams, -, -⟩ := layout_eq_some h
  have hlt : ¬ file.length < L.gslSize + 1024 + 4 := by
    intro hlt
    rw [u32At_eq_none_iff.mpr hlt] at hparams
    cases hparams
  rw [Layout.gsl, List.length_take]
  omega

end HiSiliconCV6xx

namespace Layout

variable (L : Layout) (file : List UInt8)

/-- The board mapping. -/
def mapping : List UInt8 := (file.drop (L.gslSize + 1024 + 300)).take 8

/-- Where the table of an entry of the mapping ends. -/
def tableEnd (m : UInt8) : ℕ :=
  L.gslSize + 2048 + L.offset32 + L.cliIndex m * L.tableSize + L.tableSize

/-- Every section lies in the file, and its length fits the HEAD frame. -/
structure WellSized : Prop where
  mapped : L.mapping file ≠ []
  tables_fit : ∀ m ∈ L.mapping file, L.tableEnd m ≤ file.length
  uboot_fits : L.ubootOffset + (L.ubootLen + 1024) ≤ file.length
  gsl_lt : L.gslSize < 2 ^ 32
  table_lt : 2048 + L.tableSize < 2 ^ 32
  uboot_lt : L.ubootLen + 1024 < 2 ^ 32

end Layout

namespace HiSiliconCV6xx

/-- The GSL, U-Boot or a table that a board can ask for points past the end. -/
def Overrun (file : List UInt8) : Prop :=
  (∃ gslLen, u32At file 2084 = some gslLen ∧ file.length < gslLen + 3072) ∨
    ∃ L, layout file = some L ∧ (file.length < L.ubootOffset + (L.ubootLen + 1024) ∨
      ∃ m ∈ L.mapping file, file.length < L.tableEnd m)

/-- The transfers that an image declares. -/
def declared (file : List UInt8) : List (ℕ × ℕ) :=
  (layout file).elim [] fun L => [(L.gslSize, gslLoadAddr), (2048 + L.tableSize, ddrLoadAddr),
    (L.ubootLen + 1024, ubootLoadAddr)]

/-- The section for a board has a table that its mapping has. -/
lemma buildDdrTable_parts {L : Layout} {file : List UInt8} (h : L.mapping file ≠ [])
    (boardId : ℕ) : ∃ m ∈ L.mapping file, buildDdrTable (L.parts file) boardId =
      .ok (L.header file ++ L.table file (L.cliIndex m)) := by
  have hindex : (if boardId < (L.mapping file).length then boardId else 0) <
      (L.mapping file).length := by
    split_ifs with hlt
    · exact hlt
    · exact List.length_pos_iff.mpr h
  refine ⟨_, List.getElem_mem hindex, ?_⟩
  have hget := List.getElem?_eq_getElem hindex
  generalize (L.mapping file)[if boardId < (L.mapping file).length then boardId else 0] = m at hget
  have hmapping : (L.parts file).boardMapping = L.mapping file := rfl
  rw [buildDdrTable]
  dsimp only
  rw [hmapping, hget]
  dsimp only
  have hcli : (if m.toNat ≥ (L.parts file).tableCount then 0 else m.toNat) = L.cliIndex m := by
    change (if m.toNat ≥ L.tableCount then 0 else m.toNat) = if m.toNat < L.tableCount then _ else _
    split_ifs <;> omega
  rw [hcli]
  rfl

lemma buildDdrTable_unmapped {L : Layout} {file : List UInt8} (h : L.mapping file = [])
    (boardId : ℕ) : buildDdrTable (L.parts file) boardId = .error "index out of range" := by
  have hmapping : (L.parts file).boardMapping = [] := h
  rw [buildDdrTable]
  dsimp only
  rw [hmapping]
  rfl

lemma length_ddrTable {L : Layout} {file : List UInt8} {m : UInt8}
    (h : L.tableEnd m ≤ file.length) :
    (L.header file ++ L.table file (L.cliIndex m)).length = 2048 + L.tableSize := by
  rw [Layout.tableEnd] at h
  rw [List.length_append, Layout.header, Layout.table, length_slice (by omega), length_slice h]

/-! ### What is not a transfer -/

lemma returning_getBoardId {time : ℕ} (h : time < 2 ^ 32) : Returning (getBoardId time) := by
  refine Returning.lift_bind (if_pos h) ?_
  refine Returning.bind Returning.flush fun _ => Returning.bind (Returning.write _) fun _ => ?_
  intro script
  have hloop : ∀ (script : List (Reading UInt8)) (buf chunk : List UInt8),
      ∃ boardId, (boardIdLoop buf chunk script).result = .ok boardId := by
    intro script
    induction script with
    | nil =>
        intro buf chunk
        rw [boardIdLoop]
        cases boardIdIn buf chunk with
        | none => exact ⟨_, rfl⟩
        | some boardId => exact ⟨_, rfl⟩
    | cons x rest ih =>
        intro buf chunk
        cases x with
        | item b => exact ih buf (chunk ++ [b])
        | timeout =>
            rw [boardIdLoop]
            cases boardIdIn buf chunk with
            | none => exact ih (buf ++ chunk) []
            | some boardId => exact ⟨_, rfl⟩
        | expired =>
            rw [boardIdLoop]
            cases boardIdIn buf chunk with
            | none => exact ⟨_, rfl⟩
            | some boardId => exact ⟨_, rfl⟩
  exact hloop script [] []

lemma returning_awaitTraining : Returning awaitTraining := by
  intro script
  change ∃ u, (trainingLoop script).result = .ok u
  induction script with
  | nil => exact ⟨(), rfl⟩
  | cons x rest ih =>
      cases x with
      | item b => exact ih
      | timeout => exact ih
      | expired => exact ⟨(), rfl⟩

/-- The query for the board ID is not a HEAD frame. -/
lemma heads_getBoardId {time boardId : ℕ} {trace : List HostEvent}
    (h : Yields (getBoardId time) boardId trace) : heads trace = [] := by
  have hwriting : Writing (frameLabel · ≠ .head) (getBoardId time) := by
    refine Writing.lift_bind fun t _ => Writing.bind Writing.flush fun _ =>
      Writing.bind (Writing.write ?_) fun _ => ?_
    · intro hlabel
      cases hlabel
    · intro script f hf
      obtain ⟨x, hx⟩ := reads_boardIdLoop [] [] script _ hf
      cases hx
  obtain ⟨script, rest, hrun⟩ := h
  apply heads_eq_nil
  intro f hf
  apply hwriting script f
  rw [hrun]
  exact hf

lemma heads_awaitTraining {u : Unit} {trace : List HostEvent} (h : Yields awaitTraining u trace) :
    heads trace = [] := by
  obtain ⟨script, rest, hrun⟩ := h
  have hwrites : writes (awaitTraining script).trace = [] := writes_trainingLoop script
  rw [hrun] at hwrites
  rw [heads, hwrites, List.filterMap_nil]

/-! ### `send_firmware` -/

/-- `send_firmware` of a file with a layout. -/
lemma sendFirmware_of_layout {file : List UInt8} {L : Layout}
    (hparse : parseCv6xxBoot file = .ok (L.parts file)) (time : ℕ) :
    sendFirmware time file none = (do
      let gslSent ← sendRegion (L.gsl file) gslLoadAddr
      if gslSent then
        let boardId ← getBoardId time
        let table ← Scripted.lift (buildDdrTable (L.parts file) boardId)
        let tableSent ← sendRegion table ddrLoadAddr
        if tableSent then
          awaitTraining
          let ubootSent ← sendRegion (L.uboot file) ubootLoadAddr
          if ubootSent then pure (.done [.gsl, .ddrTable, .ddrTraining, .uboot, .complete])
          else pure (.failed [.gsl, .ddrTable, .ddrTraining] "Failed to send U-Boot")
        else pure (.failed [.gsl] "Failed to send DDR table")
      else pure (.failed [] "Failed to send GSL")) := by
  rw [sendFirmware, hparse]
  rfl

/-- The GSL is announced before anything else is looked at. -/
lemma writes_sendFirmware_ne_nil {file : List UInt8} {L : Layout}
    (hparse : parseCv6xxBoot file = .ok (L.parts file)) (hgsl : (L.gsl file).length < 2 ^ 32)
    (time : ℕ) (script : List (Reading UInt8)) :
    writes (sendFirmware time file none script).trace ≠ [] := by
  have haddress : gslLoadAddr < 2 ^ 32 := by decide
  have hhead := write_head_mem_sendRegion hgsl haddress script
  rw [sendFirmware_of_layout hparse]
  obtain ⟨es, hes⟩ := Scripted.trace_bind (sendRegion (L.gsl file) gslLoadAddr) _ script
  intro hnil
  rw [hes, writes_append] at hnil
  have hmem := mem_writes.mpr hhead
  rw [(List.append_eq_nil_iff.mp hnil).1] at hmem
  cases hmem

/-- An image that handles well is well sized. -/
lemma wellSized_of_handles {file : List UInt8} {L : Layout} (hlayout : layout file = some L)
    (hparse : parseCv6xxBoot file = .ok (L.parts file))
    (h : HandlesImage (sendFirmware 0 file none) (Overrun file) (declared file)) :
    L.WellSized file := by
  have hgslSize := length_gsl hlayout
  have hgsl : (L.gsl file).length < 2 ^ 32 := by
    by_contra hlong
    obtain ⟨r, hr⟩ := h.returns []
    rw [sendFirmware_of_layout hparse, sendRegion_of_not_lt hlong] at hr
    cases hr
  have hfits : ¬ Overrun file := by
    intro hover
    obtain ⟨r, hr⟩ := h.returns []
    exact writes_sendFirmware_ne_nil hparse hgsl 0 [] (h.refuses hover [] r hr).2
  have htables : ∀ m ∈ L.mapping file, L.tableEnd m ≤ file.length := by
    intro m hm
    by_contra hlt
    exact hfits (.inr ⟨L, hlayout, .inr ⟨m, hm, Nat.not_le.mp hlt⟩⟩)
  have huboot : L.ubootOffset + (L.ubootLen + 1024) ≤ file.length := by
    by_contra hlt
    exact hfits (.inr ⟨L, hlayout, .inl (Nat.not_le.mp hlt)⟩)
  have hgslAddr : gslLoadAddr < 2 ^ 32 := by decide
  obtain ⟨acks, hacks⟩ := exists_acks_sendRegion hgsl hgslAddr
  -- a device that takes the GSL and says nothing about its board
  have hboard : ∀ rest, (getBoardId 0 (.expired :: rest)).result = .ok 0 ∧
      (getBoardId 0 (.expired :: rest)).rest = rest := fun rest => ⟨rfl, rfl⟩
  have hmapped : L.mapping file ≠ [] := by
    intro hempty
    obtain ⟨r, hr⟩ := h.returns (acks ++ [.expired])
    rw [sendFirmware_of_layout hparse, Scripted.bind_of_ok (hacks _).1, (hacks _).2, if_pos rfl,
      Scripted.bind_of_ok (hboard []).1, buildDdrTable_unmapped hempty] at hr
    cases hr
  obtain ⟨m, hm, htable⟩ := buildDdrTable_parts hmapped 0
  have htableSize := length_ddrTable (htables m hm)
  have htableLt : (L.header file ++ L.table file (L.cliIndex m)).length < 2 ^ 32 := by
    by_contra hlong
    obtain ⟨r, hr⟩ := h.returns (acks ++ [.expired])
    rw [sendFirmware_of_layout hparse, Scripted.bind_of_ok (hacks _).1, (hacks _).2, if_pos rfl,
      Scripted.bind_of_ok (hboard []).1, htable, Scripted.lift_ok, pure_bind,
      sendRegion_of_not_lt hlong] at hr
    cases hr
  have hddrAddr : ddrLoadAddr < 2 ^ 32 := by decide
  obtain ⟨acks', hacks'⟩ := exists_acks_sendRegion htableLt hddrAddr
  have hubootLt : (L.uboot file).length < 2 ^ 32 := by
    by_contra hlong
    have htraining : (awaitTraining [.expired]).result = .ok () := rfl
    obtain ⟨r, hr⟩ := h.returns (acks ++ (.expired :: (acks' ++ [.expired])))
    rw [sendFirmware_of_layout hparse, Scripted.bind_of_ok (hacks _).1, (hacks _).2, if_pos rfl,
      Scripted.bind_of_ok (hboard _).1, (hboard _).2, htable, Scripted.lift_ok, pure_bind,
      Scripted.bind_of_ok (hacks' _).1, (hacks' _).2, if_pos rfl,
      Scripted.bind_of_ok htraining, sendRegion_of_not_lt hlong] at hr
    cases hr
  refine ⟨hmapped, htables, huboot, ?_, ?_, ?_⟩
  · rwa [← hgslSize]
  · rwa [← htableSize]
  · rwa [Layout.uboot, length_slice huboot] at hubootLt

/-- The table of a well-sized image is made for every board. -/
lemma exists_ddrTable {file : List UInt8} {L : Layout} (h : L.WellSized file) (boardId : ℕ) :
    ∃ table, buildDdrTable (L.parts file) boardId = .ok table ∧
      table.length = 2048 + L.tableSize := by
  obtain ⟨m, hm, htable⟩ := buildDdrTable_parts h.mapped boardId
  exact ⟨_, htable, length_ddrTable (h.tables_fit m hm)⟩

/-- No section of a well-sized image runs over its end. -/
lemma not_overrun_of_wellSized {file : List UInt8} {L : Layout} (hlayout : layout file = some L)
    (h : L.WellSized file) : ¬ Overrun file := by
  rintro (⟨gslLen, hlen, hlt⟩ | ⟨L', hL', hover⟩)
  · obtain ⟨-, hlen', -, hle, -⟩ := layout_eq_some hlayout
    have := Option.some.inj (hlen.symm.trans hlen')
    have hgslSize := length_gsl hlayout
    rw [Layout.gsl, List.length_take] at hgslSize
    omega
  · obtain rfl := Option.some.inj (hlayout.symm.trans hL')
    rcases hover with hover | ⟨m, hm, hover⟩
    · exact absurd h.uboot_fits (Nat.not_le.mpr hover)
    · exact absurd (h.tables_fit m hm) (Nat.not_le.mpr hover)

/-- The upload of a well-sized image does not raise. -/
lemma returning_of_wellSized {file : List UInt8} {L : Layout} (hlayout : layout file = some L)
    (hparse : parseCv6xxBoot file = .ok (L.parts file)) (h : L.WellSized file) {time : ℕ}
    (htime : time < 2 ^ 32) : Returning (sendFirmware time file none) := by
  have hgsl : (L.gsl file).length < 2 ^ 32 := length_gsl hlayout ▸ h.gsl_lt
  have huboot : (L.uboot file).length < 2 ^ 32 := by
    rw [Layout.uboot, length_slice h.uboot_fits]
    exact h.uboot_lt
  rw [sendFirmware_of_layout hparse]
  refine Returning.bind (returning_sendRegion hgsl (by decide)) fun _ =>
    Returning.ite ?_ (Returning.pure _)
  refine Returning.bind (returning_getBoardId htime) fun boardId => ?_
  obtain ⟨table, htable, hsize⟩ := exists_ddrTable h boardId
  refine Returning.lift_bind htable ?_
  refine Returning.bind (returning_sendRegion (hsize ▸ h.table_lt) (by decide)) fun _ =>
    Returning.ite ?_ (Returning.pure _)
  refine Returning.bind returning_awaitTraining fun _ => ?_
  exact Returning.bind (returning_sendRegion huboot (by decide)) fun _ =>
    Returning.ite (Returning.pure _) (Returning.pure _)

/-- The upload of a well-sized image announces what the image declares. -/
lemma mem_heads_of_wellSized {file : List UInt8} {L : Layout} (hlayout : layout file = some L)
    (hparse : parseCv6xxBoot file = .ok (L.parts file)) (h : L.WellSized file) {time : ℕ}
    {r : SessionResult} {trace : List HostEvent}
    (hyields : Yields (sendFirmware time file none) r trace) (hsuccess : r.success = true)
    (head : ℕ × ℕ) : head ∈ heads trace ↔ head ∈ declared file := by
  have hgslSize := length_gsl hlayout
  have hgsl : (L.gsl file).length < 2 ^ 32 := hgslSize ▸ h.gsl_lt
  have hubootSize : (L.uboot file).length = L.ubootLen + 1024 := length_slice h.uboot_fits
  have huboot : (L.uboot file).length < 2 ^ 32 := hubootSize ▸ h.uboot_lt
  rw [sendFirmware_of_layout hparse] at hyields
  obtain ⟨gslSent, t₁, rest₁, hsend₁, hafterGsl, rfl⟩ := hyields.of_bind
  obtain ⟨rfl, hafterGsl⟩ := sent_of_success hafterGsl hsuccess
  obtain ⟨boardId, t₂, rest₂, hboard, hafterBoard, rfl⟩ := hafterGsl.of_bind
  obtain ⟨table, htable, hsize⟩ := exists_ddrTable h boardId
  have hlift : (Scripted.lift (buildDdrTable (L.parts file) boardId) : Host (List UInt8)) =
      pure table := by rw [htable, Scripted.lift_ok]
  rw [hlift, pure_bind] at hafterBoard
  obtain ⟨tableSent, t₃, rest₃, hsend₂, hafterTable, rfl⟩ := hafterBoard.of_bind
  obtain ⟨rfl, hafterTable⟩ := sent_of_success hafterTable hsuccess
  obtain ⟨u, t₄, rest₄, htraining, hafterTraining, rfl⟩ := hafterTable.of_bind
  obtain ⟨ubootSent, t₅, rest₅, hsend₃, hend, rfl⟩ := hafterTraining.of_bind
  rw [trace_of_last hend, List.append_nil]
  simp only [heads_append, List.mem_append, heads_getBoardId hboard,
    heads_awaitTraining htraining, mem_heads_of_yields hgsl (by decide) hsend₁,
    mem_heads_of_yields (hsize ▸ h.table_lt) (by decide) hsend₂,
    mem_heads_of_yields huboot (by decide) hsend₃, declared, hlayout, hgslSize, hsize, hubootSize]
  simp

/-- A well-sized image handles well. -/
lemma handles_of_wellSized {file : List UInt8} {L : Layout} (hlayout : layout file = some L)
    (hparse : parseCv6xxBoot file = .ok (L.parts file)) (h : L.WellSized file) {time : ℕ}
    (htime : time < 2 ^ 32) :
    HandlesImage (sendFirmware time file none) (Overrun file) (declared file) where
  returns := returning_of_wellSized hlayout hparse h htime
  refuses hover := absurd hover (not_overrun_of_wellSized hlayout h)
  announces _ _ hyields hsuccess := mem_heads_of_wellSized hlayout hparse h hyields hsuccess

lemma sendFirmware_of_refused {file : List UInt8} {error : String}
    (hparse : parseCv6xxBoot file = .error error) (hprotocol : isProtocolError error = true)
    (time : ℕ) : sendFirmware time file none = pure (.failed [] error) := by
  rw [sendFirmware, hparse]
  dsimp only
  rw [if_pos hprotocol]

/-- An image that the parser refuses handles well. -/
lemma handles_of_refused {file : List UInt8} {error : String}
    (hparse : parseCv6xxBoot file = .error error) (hprotocol : isProtocolError error = true)
    (time : ℕ) : HandlesImage (sendFirmware time file none) (Overrun file) (declared file) := by
  rw [sendFirmware_of_refused hparse hprotocol]
  refine ⟨Returning.pure _, ?_, ?_⟩
  · rintro - script r hr
    obtain rfl := Except.ok.inj hr
    exact ⟨rfl, rfl⟩
  · intro r trace hyields hsuccess
    obtain ⟨rfl, -⟩ := Yields.pure_iff.mp hyields
    cases hsuccess

end HiSiliconCV6xx

/-! ## Both protocols -/

/-- `HiSiliconV500.send_firmware` handles the image. -/
def HandledByV500 (firmware : List UInt8) : Prop :=
  HandlesImage (HiSiliconV500.sendFirmware firmware) (HiSiliconV500.Overrun firmware)
    (HiSiliconV500.declared firmware)

/-- `HiSiliconCV6xx.send_firmware` handles the image, at any time that the query for the board ID
can say. -/
def HandledByCv6xx (firmware : List UInt8) : Prop :=
  ∀ time < 2 ^ 32, HandlesImage (HiSiliconCV6xx.sendFirmware time firmware none)
    (HiSiliconCV6xx.Overrun firmware) (HiSiliconCV6xx.declared firmware)

/-- **Which images are handled**: those with a wrong magic number, by the CV6xx, and those in which
every section lies in the file and is short enough for a HEAD frame. -/
theorem images_handled_iff (firmware : List UInt8) :
    (HandledByV500 firmware ↔ HiSiliconV500.WellSized firmware) ∧
      (HandledByCv6xx firmware ↔ HiSiliconCV6xx.BadMagic firmware ∨
        ∃ L, layout firmware = some L ∧ L.WellSized firmware) := by
  refine ⟨⟨HiSiliconV500.wellSized_of_handles, HiSiliconV500.handles_of_wellSized⟩, ?_⟩
  cases hlayout : layout firmware with
  | some L =>
      have hparse := HiSiliconCV6xx.parseCv6xxBoot_of_layout hlayout
      constructor
      · intro h
        exact .inr ⟨L, rfl,
          HiSiliconCV6xx.wellSized_of_handles hlayout hparse (h 0 (Nat.two_pow_pos 32))⟩
      · rintro (hbad | ⟨L', hL', hsized⟩) time htime
        · exact absurd hbad (HiSiliconCV6xx.not_badMagic_of_layout hlayout)
        · obtain rfl := Option.some.inj hL'
          exact HiSiliconCV6xx.handles_of_wellSized hlayout hparse hsized htime
  | none =>
      have hnone := HiSiliconCV6xx.parseCv6xxBoot_toOption firmware
      rw [hlayout] at hnone
      rcases HiSiliconCV6xx.parseCv6xxBoot_cases firmware with
        ⟨parts, hparts⟩ | ⟨error, herror, hkind⟩
      · rw [hparts] at hnone
        cases hnone
      · cases hprotocol : HiSiliconCV6xx.isProtocolError error with
        | true =>
            exact iff_of_true
              (fun time _ => HiSiliconCV6xx.handles_of_refused herror hprotocol time)
              (.inl (hkind.mp hprotocol))
        | false =>
            refine iff_of_false (fun h => ?_) ?_
            · obtain ⟨r, hr⟩ := (h 0 (Nat.two_pow_pos 32)).returns []
              rw [HiSiliconCV6xx.sendFirmware, herror] at hr
              dsimp only at hr
              rw [hprotocol] at hr
              cases hr
            · rintro (hbad | ⟨L, hL, -⟩)
              · rw [hkind.mpr hbad] at hprotocol
                cases hprotocol
              · cases hL

/-- The empty image makes both raise. -/
theorem images_raise_empty : ¬ HandledByV500 [] ∧ ¬ HandledByCv6xx [] := by
  constructor
  · intro h
    obtain ⟨auxLen, haux, -⟩ := HiSiliconV500.wellSized_of_handles h
    cases haux
  · intro h
    obtain ⟨r, hr⟩ := (h 0 (Nat.two_pow_pos 32)).returns []
    cases hr

end Defib
