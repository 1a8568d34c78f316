import Defib.Agent.CrcPaths
import Defib.Host.ReadMemory

/-!
# Reading memory and checksums

What `CMD_READ` returns, and whether `CMD_CRC32` is the checksum of it.

Both results are equivalences between a statement about every memory content and a condition on
the request.  The conditions are where the two handlers go wrong: word access to registers, which
takes the second half of a misaligned word from beyond the word; the window of a card or of a
large flash, which overlaps other media; and the checksum, which knows NOR flash only.
-/

namespace Defib

/-! ## `CMD_READ` -/

/-- The bytes a range addresses. -/
def addressedBytes (b : Board) (m : Machine) (addr size : ℕ) : List UInt8 :=
  match addressedMedium b addr size with
  | none => []
  | some md => (md.cells b m).load addr size

/-- The reply to a read request holds what the range addresses, in packets numbered from zero. -/
def ReadsBack (b : Board) (m : Machine) (data : List UInt8) : Prop :=
  (payload (handleRead b m data)).length = readLe32 (data.drop 4) ∧
    payload (handleRead b m data) =
      addressedBytes b m (readLe32 data) (readLe32 (data.drop 4)) ∧
    seqNumbers (handleRead b m data) =
      (List.range (dataPackets (handleRead b m data)).length).map fun k => packU16 (k % 2 ^ 16)

instance (b : Board) (m : Machine) (data : List UInt8) : Decidable (ReadsBack b m data) := by
  unfold ReadsBack
  infer_instance

instance (reply : List Packet) : Decidable (AckedOk reply) := by
  unfold AckedOk
  infer_instance

lemma exists_addressedMedium {b : Board} {addr size : ℕ} (h : readAccepted b addr size = true) :
    ∃ md, addressedMedium b addr size = some md := by
  simp only [readAccepted, Bool.and_eq_true] at h
  rw [addrReadable_eq] at h
  exact Option.isSome_iff_exists.mp h.1.2

lemma not_ackedOk_handleRead_of_short {b : Board} {m : Machine} {data : List UInt8}
    (h : data.length < 8) : ¬ AckedOk (handleRead b m data) := by
  rw [handleRead, if_pos h]
  decide

lemma length_dataPackets {reply : List Packet} :
    (dataPackets reply).length = (seqNumbers reply).length := by
  rw [seqNumbers, List.length_map]

/-- **When `CMD_READ` reads.**  Every accepted request is answered with what the range addresses,
whatever the memory holds, exactly when the request is `ReadFaithful`. -/
theorem handleRead_readsBack_iff (b : Board) (data : List UInt8) :
    (∀ m, AckedOk (handleRead b m data) → ReadsBack b m data) ↔
      (8 ≤ data.length → readAccepted b (readLe32 data) (readLe32 (data.drop 4)) = true →
        ReadFaithful b (readLe32 data) (readLe32 (data.drop 4))) := by
  by_cases hshort : data.length < 8
  · exact ⟨fun _ hlen => absurd hshort (by omega),
      fun _ m hack => absurd hack (not_ackedOk_handleRead_of_short hshort)⟩
  have haddr := readLe32_lt data
  have hsize := readLe32_lt (data.drop 4)
  simp only [ReadsBack, handleRead, if_neg hshort]
  generalize readLe32 data = addr at *
  generalize readLe32 (data.drop 4) = size at *
  constructor
  · intro h _ hacc
    obtain ⟨md, hmd⟩ := exists_addressedMedium hacc
    refine (sentIs_iff haddr hsize hmd hacc).mp fun m hok i hi => ?_
    have hack := ackedOk_readReply hacc hok
    obtain ⟨-, hback, -⟩ := h m hack
    obtain ⟨-, hpay, -⟩ := readReply_spec hack
    rw [hpay, addressedBytes, hmd, Store.load_eq_load_iff] at hback
    simpa using hback i hi
  · intro h m hack
    obtain ⟨hacc, hpay, hseq⟩ := readReply_spec hack
    obtain ⟨md, hmd⟩ := exists_addressedMedium hacc
    refine ⟨by rw [hpay, Store.length_load], ?_, ?_⟩
    · rw [hpay, addressedBytes, hmd]
      exact sent_load_of_faithful haddr hsize hmd hacc (h (by omega) hacc) m
    · rw [length_dataPackets, hseq]
      simp

/-- Four bytes from the middle of a register: the second two are read beyond the word. -/
theorem unaligned_register_read_lost :
    let b := norBoard hi3516ev300 (by decide)
    let m := uniform 0 (BitVec.allOnes 32) 0
    let data := packU32 0x12020002 ++ packU32 4
    AckedOk (handleRead b m data) ∧ ¬ ReadsBack b m data := by
  decide +kernel

/-! ## `CMD_CRC32` -/

/-- The checksum `CMD_CRC32` returns is that of the bytes `CMD_READ` returns. -/
def CrcAgrees (b : Board) (m : Machine) (data : List UInt8) : Prop :=
  handleCrc32Cmd b m data =
    [⟨rspCrc32, packU32 (zlibCrc32 (payload (handleRead b m data))).toNat⟩]

instance (b : Board) (m : Machine) (data : List UInt8) : Decidable (CrcAgrees b m data) := by
  unfold CrcAgrees
  infer_instance

/-- **When the checksum is that of the data.**  `CMD_CRC32` agrees with `CMD_READ` on an accepted
request, whatever the memory holds, exactly when the range is not read by words and any flash it
reads is a NOR. -/
theorem handleCrc32Cmd_agrees_iff (b : Board) (data : List UInt8) :
    (∀ m, AckedOk (handleRead b m data) → CrcAgrees b m data) ↔
      (8 ≤ data.length → readAccepted b (readLe32 data) (readLe32 (data.drop 4)) = true →
        ioRegion b.soc (readLe32 data) = false ∧
          (flashWindow b (readLe32 data) (readLe32 (data.drop 4)) = true →
            b.flashInfo.flashType = .nor)) := by
  by_cases hshort : data.length < 8
  · exact ⟨fun _ hlen => absurd hshort (by omega),
      fun _ m hack => absurd hack (not_ackedOk_handleRead_of_short hshort)⟩
  have hlen : 8 ≤ data.length := by omega
  have haddr := readLe32_lt data
  have hsize := readLe32_lt (data.drop 4)
  have hcrc := fun hacc => handleCrc32Cmd_of_accepted (b := b) hlen hacc
  simp only [CrcAgrees, handleRead, if_neg hshort] at hcrc ⊢
  generalize readLe32 data = addr at *
  generalize readLe32 (data.drop 4) = size at *
  constructor
  · intro h _ hacc
    obtain ⟨md, hmd⟩ := exists_addressedMedium hacc
    obtain ⟨hpos, hwrap, -⟩ := addressedMedium_inv haddr hsize hmd
    by_contra hbad
    obtain ⟨m, m', hok, hok', hsame, hfirst, hrest⟩ := crcBlind hpos (by
      simpa only [Classical.not_and_iff_not_or_not, Bool.not_eq_false, Classical.not_imp]
        using hbad)
    -- both contents have one checksum, and replies that differ in the first byte
    have hsum : ∀ m₀ : Machine, m₀.NoFail →
        crcOf b m₀ addr size = zlibCrc32 ((sent b m₀ addr size).load 0 size) := by
      intro m₀ hok₀
      have hack := ackedOk_readReply hacc hok₀
      have hreply := h m₀ hack
      rw [hcrc hacc m₀, (readReply_spec hack).2.1] at hreply
      simp only [List.cons.injEq, Packet.mk.injEq, true_and, and_true] at hreply
      exact packU32_toNat_inj hreply
    refine zlibCrc32_load_ne hpos hfirst hrest ?_
    rw [← hsum m hok, ← hsum m' hok', hsame]
  · intro h m hack
    obtain ⟨hacc, hpay, -⟩ := readReply_spec hack
    obtain ⟨md, hmd⟩ := exists_addressedMedium hacc
    obtain ⟨hpos, hwrap, -⟩ := addressedMedium_inv haddr hsize hmd
    obtain ⟨hio, hnor⟩ := h hlen hacc
    rw [hcrc hacc m, hpay, crcOf_eq hwrap (by simpa using hio) hnor]

/-- One byte of a NAND: the checksum does not see it. -/
theorem nand_crc_ignores_flash :
    let b : Board := ⟨hi3516ev300, by decide, ⟨0x100, fun _ => (0xC2, 0x12, 0x00), none⟩⟩
    let m := uniform 0 0 0xFF
    let data := packU32 0x14000000 ++ packU32 1
    AckedOk (handleRead b m data) ∧ ¬ CrcAgrees b m data := by
  decide +kernel

/-! ## `read_memory` -/

/-- A result of `read_memory` is an error, or exactly the addressed bytes. -/
def ReadSafe (b : Board) (m : Machine) (addr size : ℕ) (stream : List UInt8 → List Packet) : Prop :=
  match readMemory addr size stream with
  | .error _ => True
  | .ok bs => bs = addressedBytes b m addr size

instance (b : Board) (m : Machine) (addr size : ℕ) (stream : List UInt8 → List Packet) :
    Decidable (ReadSafe b m addr size stream) := by
  unfold ReadSafe
  split <;> infer_instance

/-- **When `read_memory` is safe under loss.**  Over every link that loses data packets and adds
`READY` packets, the host raises or returns exactly the addressed bytes, whatever the memory
holds, exactly when the device would reject the request or answer it faithfully. -/
theorem readMemory_safe_iff (b : Board) (addr size : ℕ) :
    (∀ m stream, (∀ request, Degraded (handleRead b m request) (stream request)) →
        ReadSafe b m addr size stream) ↔
      (addr < 2 ^ 32 → size < 2 ^ 32 → readAccepted b addr size = true →
        ReadFaithful b addr size) := by
  constructor
  · intro h haddr hsize hacc
    obtain ⟨md, hmd⟩ := exists_addressedMedium hacc
    refine (sentIs_iff haddr hsize hmd hacc).mp fun m hok i hi => ?_
    -- already the perfect link shows a wrong byte
    have hack := ackedOk_readReply hacc hok
    have hsafe := h m (handleRead b m) fun request => Degraded.refl _
    rw [ReadSafe, readMemory_of_ackedOk haddr hsize hack] at hsafe
    simp only [addressedBytes, hmd] at hsafe
    simpa using Store.load_eq_load_iff.mp hsafe i hi
  · intro h m stream hdeg
    rw [ReadSafe]
    cases hresult : readMemory addr size stream with
    | error e => trivial
    | ok bs =>
        rw [readMemory, readRequest] at hresult
        by_cases hrange : addr < 2 ^ 32 ∧ size < 2 ^ 32
        · rw [if_pos hrange] at hresult
          obtain ⟨haddr, hsize⟩ := hrange
          obtain ⟨hack, hlen, kept, hbs, hsub⟩ := readMemoryLoop_degraded
            (hdeg (packU32 addr ++ packU32 size)) (handleRead_shape ..) hresult
          rw [handleRead_request haddr hsize] at hack hsub
          obtain ⟨hacc, hpay, -⟩ := readReply_spec hack
          obtain ⟨md, hmd⟩ := exists_addressedMedium hacc
          -- a sublist of the full length is everything
          have hfull : kept = payload (readReply b m addr size) :=
            hsub.eq_of_length (by rw [hpay, Store.length_load, ← hlen, hbs, List.nil_append])
          simp only [hbs, List.nil_append, hfull, hpay, addressedBytes, hmd]
          exact sent_load_of_faithful haddr hsize hmd hacc (h haddr hsize hacc) m
        · rw [if_neg hrange] at hresult
          cases hresult

/-- Without any loss, four bytes from the middle of a register are returned wrong. -/
theorem readMemory_returns_wrong_register :
    let b := norBoard hi3516ev300 (by decide)
    let m := uniform 0 (BitVec.allOnes 32) 0
    (∀ request, Degraded (handleRead b m request) (handleRead b m request)) ∧
      ¬ ReadSafe b m 0x12020002 4 (handleRead b m) := by
  refine ⟨fun request => Degraded.refl _, ?_⟩
  decide +kernel

end Defib
