import Defib.Boot.SendFirmware

/-!
# The upload through a rack pod

`run_rack_fastboot` of `recovery/rack_fastboot.py`: the bundle it passes to
`RackController.fastboot`, and the result it makes of the pod's answer.
-/

namespace Defib

/-- The arguments of `RackController.fastboot`. -/
structure FastbootBundle where
  splAddress : ℕ
  ddrStepAddress : ℕ
  ubootAddress : ℕ
  prestep0 : List UInt8
  ddrstep0 : List UInt8
  prestep1 : Option (List UInt8)
  spl : List UInt8
  agent : List UInt8
  deriving DecidableEq, Repr

/-- The fields of the pod's answer that are looked at. -/
structure FastbootResponse where
  success : Bool
  lastPhase : Option String
  failedPhase : Option String
  error : Option String

/-- What `run_rack_fastboot` assembles. -/
def fastbootBundle (profile : SoCProfile) (firmware : List UInt8)
    (agentPayload : Option (List UInt8)) : Except String FastbootBundle := do
  let scanBuf := agentPayload.getD firmware
  let splSize ← detectSplSize scanBuf profile.splMaxSize profile.splSramLimit
  let splBytes := (firmware.take splSize).rightpad splSize 0
  pure {
    splAddress := profile.splAddress
    ddrStepAddress := profile.ddrStepAddress
    ubootAddress := profile.ubootAddress
    prestep0 := profile.prestepData.getD []
    ddrstep0 := profile.ddrStepData
    prestep1 := profile.prestep1Data
    spl := zeroLongFfRuns splBytes ffThreshold
    agent := agentPayload.getD firmware }

/-- The stages that the last phase of the pod stands for. -/
def stagesOfPhase (lastPhase : String) : List Stage :=
  (if lastPhase ∈ ["frame_for_start", "prestep0", "ddrstep0", "prestep1", "spl", "agent", "done"]
    then [.handshake] else []) ++
  (if lastPhase ∈ ["prestep0", "ddrstep0", "prestep1", "spl", "agent", "done"]
    then [.ddrInit] else []) ++
  (if lastPhase ∈ ["spl", "agent", "done"] then [.spl] else []) ++
  (if lastPhase ∈ ["agent", "done"] then [.uboot] else []) ++
  (if lastPhase = "done" then [.complete] else [])

/-- The stages of an upload, in order. -/
def uploadStages : List Stage := [.handshake, .ddrInit, .spl, .uboot, .complete]

/-- **No stage is skipped**, whatever the pod names as its last phase. -/
lemma stagesOfPhase_prefix (lastPhase : String) : stagesOfPhase lastPhase <+: uploadStages := by
  by_cases hknown : lastPhase ∈
      ["frame_for_start", "prestep0", "ddrstep0", "prestep1", "spl", "agent", "done"]
  · have hall : ∀ phase ∈
        ["frame_for_start", "prestep0", "ddrstep0", "prestep1", "spl", "agent", "done"],
        stagesOfPhase phase <+: uploadStages := by decide
    exact hall lastPhase hknown
  · -- a phase of no other name stands for a stage
    have hnone : stagesOfPhase lastPhase = [] := by
      simp only [List.mem_cons, not_or] at hknown
      simp [stagesOfPhase, hknown]
    rw [hnone]
    exact List.nil_prefix

/-- `run_rack_fastboot`, with the pod as a function of the bundle. -/
def runRackFastboot (fastboot : FastbootBundle → FastbootResponse) (profile : SoCProfile)
    (firmware : List UInt8) (agentPayload : Option (List UInt8)) :
    Except String RecoveryResult := do
  let bundle ← fastbootBundle profile firmware agentPayload
  let response := fastboot bundle
  let stages := stagesOfPhase (response.lastPhase.getD "")
  if response.success then pure ⟨true, stages, none⟩
  else
    pure ⟨false, stages, some ("rack fastboot failed at " ++ response.failedPhase.getD "unknown" ++
      ": " ++ response.error.getD "unknown")⟩

/-- **What `run_rack_fastboot` returns.**  It has sent the bundle, reports the success of the pod,
with an error exactly when there was none, and the first stages of an upload. -/
lemma runRackFastboot_result {fastboot : FastbootBundle → FastbootResponse} {profile : SoCProfile}
    {firmware : List UInt8} {agentPayload : Option (List UInt8)} {r : RecoveryResult}
    (h : runRackFastboot fastboot profile firmware agentPayload = .ok r) :
    ∃ bundle, fastbootBundle profile firmware agentPayload = .ok bundle ∧
      r.success = (fastboot bundle).success ∧ (r.error = none ↔ r.success = true) ∧
      r.stagesCompleted <+: uploadStages := by
  unfold runRackFastboot at h
  cases hbundle : fastbootBundle profile firmware agentPayload with
  | error e =>
      rw [hbundle] at h
      cases h
  | ok bundle =>
      rw [hbundle] at h
      refine ⟨bundle, rfl, ?_⟩
      have hstages := stagesOfPhase_prefix ((fastboot bundle).lastPhase.getD "")
      cases hsuccess : (fastboot bundle).success with
      | true =>
          simp only [bind, Except.bind, hsuccess, if_true] at h
          cases h
          exact ⟨rfl, by simp, hstages⟩
      | false =>
          simp only [bind, Except.bind, hsuccess, Bool.false_eq_true, if_false] at h
          cases h
          exact ⟨rfl, by simp, hstages⟩

end Defib
