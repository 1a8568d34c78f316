import Defib.Wire.ProtoRecv
import Defib.Host.Recv

/-!
# Framing

What the two ends of the link agree on below the level of commands: the COBS codec and the
packet round trip, packet reception on the host, and the buffers of packet reception on the
device.
-/

namespace Defib

/-! ## The codec -/

/-- **One codec, two implementations.**  The Python encoder produces no zero byte, is undone by
the Python decoder, and has consistent overhead; the C encoder writes the same bytes and the C
decoder returns the same bytes, or length `0` where the Python one raises.  Hence packets
survive the trip through the wire format. -/
theorem cobs_codec_agrees :
    (∀ x : List UInt8,
      (0 : UInt8) ∉ Cobs.encode x ∧ Cobs.decode (Cobs.encode x) = .ok x ∧
        (Cobs.encode x).length ≤ x.length + 1 + x.length / 254) ∧
    (∀ (x : List UInt8) (output : Store UInt8),
      (Cobs.cobsEncode x output).output.load 0 (Cobs.cobsEncode x output).outIdx =
        Cobs.encode x) ∧
    (∀ (y : List UInt8) (output : Store UInt8),
      match Cobs.decode y with
      | .ok z => (Cobs.cobsDecode y output).ret = z.length ∧
          (Cobs.cobsDecode y output).out.output.load 0 (Cobs.cobsDecode y output).ret = z
      | .error _ => (Cobs.cobsDecode y output).ret = 0) ∧
    (∀ (c : UInt8) (d : List UInt8), parsePacket (buildPacket c d).dropLast = .ok (c, d)) := by
  refine ⟨fun x => ⟨Cobs.zero_notMem_encode x, Cobs.decode_encode x, Cobs.length_encode_le x⟩,
    Cobs.cobsEncode_spec, fun y output => ?_, parsePacket_buildPacket⟩
  have h := Cobs.cobsDecode_spec y output
  cases hdec : Cobs.decode y with
  | error e =>
      rw [hdec] at h
      exact h
  | ok z =>
      rw [hdec] at h
      obtain ⟨hret, hbytes⟩ := h
      refine ⟨hret, ?_⟩
      have hout : (Cobs.cobsDecode y output).out.outIdx = z.length := by
        rw [← Cobs.Out.length_bytes, hbytes]
      rw [hret, ← hout]
      exact hbytes

/-! ## Reception on the host -/

/-- **Reception depends on the byte stream alone.**  Whatever reads the stream arrives in,
successive calls of either receive function return the parses of its delimiter-terminated
frames, in order, each frame as the `MAX_PACKET_SIZE` guard leaves it; frames within the limit
are left whole.  A packet within the limit that follows a delimiter is always received. -/
theorem reception_of_stream (reads₁ reads₂ : List (List UInt8))
    (hsame : reads₁.flatten = reads₂.flatten) (n : ℕ) :
    calls recvPacketSync n [] reads₁ =
        ((frames reads₁.flatten).filterMap fun f => (parsePacket (guarded f)).toOption).take n ∧
      calls recvPacketAsync n [] reads₂ = calls recvPacketSync n [] reads₁ ∧
      (∀ f : List UInt8, f.length ≤ maxPacketSize → guarded f = f) ∧
      ∀ (g : List UInt8) (c : UInt8) (d : List UInt8),
        (frameOf c d).length ≤ maxPacketSize →
        reads₁.flatten = g ++ [0x00] ++ buildPacket c d →
          ∃ k, ∀ m ≥ k, (calls recvPacketSync m [] reads₁).getLast? = some (c, d) ∧
            (calls recvPacketAsync m [] reads₂).getLast? = some (c, d) := by
  have hboth : ∀ m, calls recvPacketAsync m [] reads₂ = calls recvPacketSync m [] reads₁ := by
    intro m
    rw [calls_async, calls_sync, hsame]
  refine ⟨?_, hboth n, fun f hf => guarded_of_length_le hf, ?_⟩
  · rw [calls_sync, List.nil_append, packets_eq_frames]
  · intro g c d hlen hstream
    refine ⟨(packets reads₁.flatten).length, fun m hm => ?_⟩
    have hall : calls recvPacketSync m [] reads₁ = packets (g ++ [0x00]) ++ [(c, d)] := by
      rw [calls_sync, List.nil_append, List.take_of_length_le hm, hstream,
        packets_append_buildPacket g c d hlen]
    rw [hboth, hall]
    simp

/-- The theorem at a stream of line noise, a delimiter and an `INFO` request, read at once and
byte by byte. -/
theorem reception_of_noisy_stream :
    let s := [0x17, 0x2A] ++ [0x00] ++ buildPacket 0x01 []
    calls recvPacketAsync 2 [] (s.map fun b => [b]) = calls recvPacketSync 2 [] [s] ∧
      ∃ k, ∀ m ≥ k, (calls recvPacketSync m [] [s]).getLast? = some (0x01, []) := by
  intro s
  have hflat : ([s] : List (List UInt8)).flatten = (s.map fun b => [b]).flatten := by
    rw [List.flatten_singleton, ← List.flatMap_def, List.flatMap_singleton']
  have h := reception_of_stream [s] (s.map fun b => [b]) hflat 2
  obtain ⟨k, hk⟩ := h.2.2.2 [0x17, 0x2A] 0x01 [] (by decide +kernel) (by simp [s])
  exact ⟨h.2.1, k, fun m hm => (hk m hm).1⟩

/-- A packet whose data alone exceeds the size guard is not what a call returns for its frame. -/
lemma calls_sync_ne_of_oversized (c : UInt8) {d : List UInt8} (hlen : maxPacketSize < d.length) :
    calls recvPacketSync 1 [] [buildPacket c d] ≠
      ((frames (buildPacket c d)).filterMap fun f => (parsePacket f).toOption).take 1 := by
  intro hclaim
  have hframes : frames (buildPacket c d) = [frameOf c d] :=
    framesFrom_of_notMem (zero_notMem_frameOf c d) []
  rw [calls_sync, List.nil_append, List.flatten_singleton, packets_eq_frames, hframes] at hclaim
  simp only [List.filterMap_cons, List.filterMap_nil, parsePacket_frameOf,
    Except.toOption] at hclaim
  -- a packet that is returned fits in what the guard lets through
  cases hparse : parsePacket (guarded (frameOf c d)) with
  | error e => simp [hparse] at hclaim
  | ok r =>
      obtain ⟨c', d'⟩ := r
      have hshort : (guarded (frameOf c d)).length ≤ maxPacketSize := by
        rw [guarded, List.length_drop, maxPacketSize]
        omega
      have hback := length_le_of_parsePacket hparse
      simp only [hparse] at hclaim
      obtain ⟨-, rfl⟩ : c' = c ∧ d' = d := by simpa using (List.cons.inj hclaim).1
      omega

/-- A frame that parses but exceeds the size guard is never returned: the stream of one packet
with 1200 data bytes yields something else than its parse. -/
theorem reception_drops_oversized_frame :
    calls recvPacketSync 1 [] [buildPacket 0x82 (List.replicate 1200 0xAA)] ≠
      ((frames (buildPacket 0x82 (List.replicate 1200 0xAA))).filterMap fun f =>
        (parsePacket f).toOption).take 1 :=
  calls_sync_ne_of_oversized 0x82 (by rw [List.length_replicate]; decide)

/-! ## Reception on the device -/

/-- `proto_recv` stays inside its buffers on a sequence of byte fetches: for the frame its read
loop ends with, if any, `cobs_decode` writes within `rx_raw` and the caller's copy fits. -/
def ProtoRecvInBounds (timeoutMs : ℕ) (fetches : List Fetch) (rxRaw : Store UInt8) : Prop :=
  ∀ f rest, readFrame timeoutMs [] (timeoutMs * 100) fetches = .frame f rest →
    (protoRecv f rxRaw).decoded ≤ rxRawSize ∧ (protoRecv f rxRaw).copied ≤ rxRawSize

/-- **When `proto_recv` is memory safe.**  Exactly when the accumulated frame is at most one
byte longer than `rx_raw`, plus one byte for every full block before its last. -/
theorem protoRecv_inBounds_iff (timeoutMs : ℕ) (fetches : List Fetch) (rxRaw : Store UInt8) :
    ProtoRecvInBounds timeoutMs fetches rxRaw ↔
      ∀ f rest, readFrame timeoutMs [] (timeoutMs * 100) fetches = .frame f rest →
        f.length ≤ rxRawSize + 1 + fullBlocks f := by
  refine forall_congr' fun f => forall_congr' fun rest => imp_congr_right fun hf => ?_
  obtain ⟨hok, hne⟩ := readFrame_spec timeoutMs fetches [] (timeoutMs * 100)
    ⟨Nat.zero_le _, by simp⟩ f rest hf
  have hcount := cobsDecode_outIdx hok.2 hne rxRaw
  have hcopied := protoRecv_copied_le f rxRaw
  rw [protoRecv_decoded] at hcopied ⊢
  constructor
  · rintro ⟨hdec, -⟩
    omega
  · intro hlen
    exact ⟨by omega, by omega⟩

/-- A full receive buffer of `0x01` bytes makes `cobs_decode` write 1055 bytes into the 1040 of
`rx_raw`. -/
theorem protoRecv_overflows :
    ¬ ProtoRecvInBounds 500 (List.replicate 1056 (Fetch.byte 0x01)) (fun _ => 0) := by
  intro h
  rw [protoRecv_inBounds_iff] at h
  have hz : ∀ b : UInt8, b ≠ 0x01 → b ∉ List.replicate 1056 (0x01 : UInt8) :=
    fun b hb hmem => hb (List.eq_of_mem_replicate hmem)
  obtain ⟨deadline, hread⟩ := readFrame_bytes 500 (List.replicate 1056 0x01)
    (hz 0 (by decide)) [] (500 * 100)
    (by rw [List.length_replicate]; decide) []
  rw [List.append_nil, List.nil_append, List.map_replicate, readFrame,
    if_neg (by rw [List.length_replicate]; decide)] at hread
  have hlen := h _ _ hread
  rw [fullBlocks_of_notMem (hz 0xFF (by decide)), List.length_replicate] at hlen
  exact absurd hlen (by decide)

end Defib
