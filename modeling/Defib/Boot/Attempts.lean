import Defib.Boot.Session

/-!
# The attempts of a session

`RecoverySession.run` with any protocol.  What the power controller and the protocol do in an
attempt is a `Turn`; a run is a function of the turns it may come to, and its outcome lists, attempt
by attempt, what was called.
-/

namespace Defib

/-- `Stage`. -/
inductive RecoveryStage
  | powerCycle
  | handshake
  | ddrInit
  | spl
  | uboot
  | gsl
  | ddrTable
  | ddrTraining
  | headArea
  | auxArea
  | bootImage
  | boardId
  | usbplug
  | flashWrite
  | flashRead
  | complete
  deriving DecidableEq, Repr

/-- `RecoveryResult`, as far as the attempts set it. -/
structure RecoveryReport where
  success : Bool
  stagesCompleted : List RecoveryStage
  error : Option String
  deriving DecidableEq, Repr

/-- A report of the session itself. -/
def RecoveryReport.failed (error : String) : RecoveryReport := ⟨false, [], some error⟩

/-- The protocol classes, and whether the profile of a `HiSiliconStandard` asks for the frame-blast
handshake. -/
inductive ProtocolClass
  | standard (usesFrameBlast : Bool)
  | v500
  | cv6xx
  deriving DecidableEq, Repr

/-- The stage that says that the DDR memory is up, where there is one. -/
def ProtocolClass.ddrStage : ProtocolClass → Option RecoveryStage
  | .standard _ => some .ddrInit
  | .v500 => none
  | .cv6xx => some .ddrTraining

/-- What the power controller and the protocol do in one attempt, if they are called. -/
structure Turn where
  powerCycle : Except String Unit
  handshake : HandshakeResult
  sent : RecoveryReport

/-- What a session calls. -/
inductive SessionCall
  | powerCycle
  | handshake
  | sendFirmware
  deriving DecidableEq, Repr

/-- How a run ends, and what each of its attempts called. -/
structure SessionOutcome where
  result : Except String RecoveryReport
  calls : List (List SessionCall)

/-- A session, with the arguments of `run` that the attempts depend on. -/
structure SessionSetup where
  protocol : ProtocolClass
  /-- Is there a power controller, with a port? -/
  automatic : Bool
  maxHandshakeAttempts : ℕ
  attempts_pos : 1 ≤ maxHandshakeAttempts

namespace SessionSetup

variable (s : SessionSetup)

/-- `frame_blast`. -/
def frameBlast : Bool :=
  match s.protocol with
  | .standard usesFrameBlast => usesFrameBlast
  | _ => false

/-- `attempts`. -/
def allowed : ℕ := if s.automatic then s.maxHandshakeAttempts else 1

/-- The power cycle and the handshake of an attempt; an error is what the power controller says. -/
def shake (turn : Turn) : List SessionCall × Except String HandshakeResult :=
  if s.automatic then
    if s.frameBlast then
      match turn.powerCycle with
      | .error e => ([.powerCycle], .error e)
      | .ok _ => ([.powerCycle, .handshake], .ok turn.handshake)
    else
      -- the handshake runs already when the power goes
      match turn.powerCycle with
      | .error e => ([.handshake, .powerCycle], .error e)
      | .ok _ => ([.handshake, .powerCycle], .ok turn.handshake)
  else if s.frameBlast then ([], .ok ⟨true, none, "Frame-blast (deferred)"⟩)
  else ([.handshake], .ok turn.handshake)

/-- How an attempt ends: the run is over, or there is another attempt. -/
inductive TurnEnd
  | stop (result : Except String RecoveryReport)
  | again (lastError : String)

/-- An attempt with `left` attempts behind it, from the handshake on. -/
def afterShake (turn : Turn) (left : ℕ) : List SessionCall × Except String HandshakeResult →
    List SessionCall × TurnEnd
  | (calls, .error e) => (calls, .stop (.ok (.failed ("Power cycle failed: " ++ e))))
  | (calls, .ok handshake) =>
      if handshake.success then
        let calls := calls ++ [.sendFirmware]
        if turn.sent.success then (calls, .stop (.ok turn.sent))
        else if .ddrInit ∉ turn.sent.stagesCompleted ∧ 0 < left then
          (calls, .again (turn.sent.error.getD ""))
        else (calls, .stop (.ok turn.sent))
      else if 0 < left then (calls, .again ("handshake: " ++ handshake.message))
      -- the loop is left by `break`, before anything was assigned to the result
      else (calls, .stop (.error "UnboundLocalError"))

/-- An attempt with `left` attempts behind it. -/
def turnEnd (turn : Turn) (left : ℕ) : List SessionCall × TurnEnd :=
  afterShake turn left (s.shake turn)

/-- The loop over attempts, with the number that is left. -/
def attempts (turns : ℕ → Turn) (lastError : Option String) : ℕ → SessionOutcome
  | 0 => ⟨.ok (.failed ("Handshake failed: " ++ lastError.getD "None")), []⟩
  | left + 1 =>
      match s.turnEnd (turns 0) left with
      | (calls, .stop result) => ⟨result, [calls]⟩
      | (calls, .again e) =>
          let next := attempts (fun k => turns (k + 1)) (some e) left
          ⟨next.result, calls :: next.calls⟩

/-- `run`, up to the break. -/
def run (turns : ℕ → Turn) : SessionOutcome := s.attempts turns none s.allowed

end SessionSetup

end Defib
