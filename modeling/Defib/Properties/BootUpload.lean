import Defib.Boot.Acked

/-!
# Uploads under every behaviour of the device

`sendFirmware_follows_plan` says what an upload does on the line whatever it reads: it sends the
frames of the plan in order, each as often as it takes, and stops somewhere; what it reports as
completed is what was ACKed.
-/

namespace Defib
open HiSiliconStandard

/-! ## The second stage -/

lemma chunkData_zeroLongFfRuns_flatten (firmware : List UInt8) :
    (chunkData (zeroLongFfRuns firmware ffThreshold) maxDataLen).flatten =
      zeroLongFfRuns firmware ffThreshold :=
  chunkData_flatten _ (by simp [maxDataLen])

lemma stage_of_mem_ddrSegments {profile : SoCProfile} {t : Segment}
    (h : t ∈ ddrSegments profile) : t.stage = .ddrInit := by
  simp only [ddrSegments, List.mem_append, List.mem_map, List.mem_cons] at h
  rcases h with ⟨_, -, rfl⟩ | rfl | ⟨_, -, rfl⟩ <;> rfl

lemma filter_uboot_segments (profile : SoCProfile) (firmware : List UInt8)
    (splOverride : Option (List UInt8)) :
    (segments profile firmware splOverride).filter (·.stage = .uboot) <+:
      [ubootSegment profile firmware] := by
  have hddr : (ddrSegments profile).filter (fun t => t.stage = .uboot) = [] := by
    rw [List.filter_eq_nil_iff]
    intro t ht
    simp [stage_of_mem_ddrSegments ht]
  rw [segments, List.filter_append, hddr, List.nil_append, imageSegments]
  cases splImage profile firmware splOverride with
  | error e => simp
  | ok image => simp [ubootSegment]

/-- The U-Boot part of the plan carries the image, or there is none. -/
lemma ubootPayload_plan (profile : SoCProfile) (firmware : List UInt8)
    (splOverride : Option (List UInt8)) :
    stagePayload .uboot (plan profile firmware splOverride) = [] ∧
        wanted (mustAck profile) (plan profile firmware splOverride) .uboot = [] ∨
      stagePayload .uboot (plan profile firmware splOverride) =
        zeroLongFfRuns firmware ffThreshold := by
  have hinit : ((segments profile firmware splOverride).takeWhile Segment.encodable).filter
      (·.stage = .uboot) <+: [ubootSegment profile firmware] :=
    ((List.takeWhile_prefix _).filter _).trans
      (filter_uboot_segments profile firmware splOverride)
  have hpayload := stagePayload_framesOf .uboot (segments profile firmware splOverride)
  change stagePayload .uboot (plan profile firmware splOverride) = _ at hpayload
  rcases List.prefix_cons_iff.mp hinit with hnil | ⟨rest, hone, hrest⟩
  · left
    rw [hnil] at hpayload
    refine ⟨hpayload, wanted_eq_nil ?_⟩
    intro k hk
    rw [plan, List.mem_flatMap] at hk
    obtain ⟨t, ht, hk⟩ := hk
    rw [Segment.frames, List.mem_map] at hk
    obtain ⟨f, -, rfl⟩ := hk
    rw [List.filter_eq_nil_iff] at hnil
    simpa using hnil t ht
  · right
    rw [hone, List.prefix_nil.mp hrest] at hpayload
    rw [hpayload]
    simpa [ubootSegment] using chunkData_zeroLongFfRuns_flatten firmware

/-! ## Every run follows the plan -/

/-- The stage whose frames decide about a stage of the result. -/
def decidingStage : Stage → Stage
  | .complete => .uboot
  | stage => stage

/-- **An upload follows its plan.**  For every script of readings: the frames it sends,
retransmissions merged and handshakes left out, are a prefix of `plan`; the DATA payloads of the
U-Boot stage are a prefix of the image with its long runs zeroed, and all of it on success; and the
stages of the result are, in order, those of which every HEAD and DATA frame was ACKed, with the
TAIL for the SPL of a profile without PRESTEP0. -/
theorem sendFirmware_follows_plan (profile : SoCProfile) (firmware : List UInt8)
    (splOverride : Option (List UInt8)) (script : List (Reading UInt8)) :
    let o := sendFirmware (some profile) firmware splOverride script
    let sent := observed o.trace
    sent.map Entry.key <+: plan profile firmware splOverride ∧
    stagePayload .uboot (sent.map Entry.key) <+: zeroLongFfRuns firmware ffThreshold ∧
    ∀ r, o.result = .ok r →
      (r.success = true →
        stagePayload .uboot (sent.map Entry.key) = zeroLongFfRuns firmware ffThreshold) ∧
      r.stagesCompleted = [Stage.ddrInit, .spl, .uboot, .complete].filter fun stage =>
        Credited (mustAck profile) (plan profile firmware splOverride) sent
          (decidingStage stage) := by
  intro o sent
  have hrecorded := sendFirmware_recorded profile firmware splOverride script
  refine ⟨hrecorded.keys_initial, ?_, fun r hr => ⟨fun hsuccess => ?_, ?_⟩⟩
  · refine (stagePayload_mono .uboot hrecorded.keys_initial).trans ?_
    rcases ubootPayload_plan profile firmware splOverride with ⟨hnil, -⟩ | himage
    · rw [hnil]
      exact List.nil_prefix
    · rw [himage]
  · obtain ⟨hkeys, -, hcredited⟩ := hrecorded.success r hr hsuccess
    rw [show sent.map Entry.key = _ from hkeys]
    rcases ubootPayload_plan profile firmware splOverride with ⟨-, hwanted⟩ | himage
    · exact absurd hwanted (hcredited .uboot (by simp)).1
    · exact himage
  · rw [hrecorded.stages_eq r hr,
      show [Stage.ddrInit, .spl, .uboot, .complete] = [.ddrInit, .spl, .uboot] ++ [.complete] from
        rfl, List.filter_append]
    congr 1
    cases hsuccess : r.success with
    | true =>
        have huboot := (hrecorded.success r hr hsuccess).2.2 .uboot (by simp)
        simp [decidingStage, sent, o, huboot]
    | false =>
        have huboot := hrecorded.failure r hr hsuccess
        simp [decidingStage, sent, o, huboot]

end Defib
