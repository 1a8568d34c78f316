import Defib.Agent.Baud
import Defib.Framework.Runs

/-!
# Changing the baud rate

`set_baud` of `client.py`, with the agent on the other end of the line.  A packet gets through when
both ends are at the same rate and the line does not lose it; at different rates nobody hears
anything.

The host sends `CMD_SET_BAUD`, changes its own rate when that is acknowledged, and asks for
`CMD_INFO` at the new rate: without an answer it goes back to the rate it came from.  The agent may
go without a packet for any number of polls in between.
-/

namespace Defib

/-- What the line does to a request and its answer. -/
inductive Loss
  | nothing
  | request
  | reply
  deriving DecidableEq, Repr

/-- Where a call of `set_baud` is: not made, or about to verify a rate. -/
inductive SetBaudPhase
  | calling
  | verifying (baud : ℕ)
  deriving DecidableEq, Repr

/-- Both ends of the line. -/
structure Link where
  /-- The rate of the transport. -/
  hostBaud : ℕ
  /-- `_current_baud`. -/
  currentBaud : ℕ
  phase : SetBaudPhase
  agent : AgentLoop

/-- What becomes of a call of `set_baud`: `TransportTimeout`, or a result. -/
inductive SetBaudResult
  | raised
  | returned (ok : Bool)
  deriving DecidableEq, Repr

/-- The agent, and whether the transport can change its rate. -/
structure LinkEnv extends Agent where
  canSetBaud : Bool

/-- One thing that happens: a call of `set_baud`, the verification it ends with, another command, or
a poll of the agent that gets nothing. -/
inductive LinkEvent
  | setBaud (baud : UInt32) (loss : Loss)
  | verify (loss : Loss)
  | command (p : Packet) (loss : Loss)
  | idle
  deriving DecidableEq, Repr

namespace Link

/-- Both ends are at the same rate: the divisor of the agent is that of the host's rate. -/
def InStep (l : Link) : Prop :=
  l.agent.uart.brd64 = scaledBrd64 l.agent.uart.bootromBrd64 l.hostBaud

instance (l : Link) : Decidable l.InStep := inferInstanceAs (Decidable (_ = _))

variable (g : LinkEnv)

/-- The host opens the line at 115200 baud. -/
def boot (divisor : BootDivisor) : Link := ⟨115200, 115200, .calling, g.boot divisor⟩

/-- `send_packet` and `recv_response`: the agent after it, and what is received within the
timeout. -/
def exchange (l : Link) (p : Packet) (loss : Loss) : AgentLoop × Option Packet :=
  if l.InStep ∧ loss ≠ .request then
    ((g.turn l.agent (some p)).1,
      if loss = .reply then none else (g.turn l.agent (some p)).2.head?)
  else (l.agent, none)

/-- `set_baud` up to its verification. -/
def setBaud (l : Link) (baud : UInt32) (loss : Loss) : Link × Option SetBaudResult :=
  let r := l.exchange g ⟨cmdSetBaud, packU32 baud.toNat⟩ loss
  match r.2 with
  | none => ({ l with agent := r.1 }, some .raised)
  | some resp =>
      if resp ≠ ackPacket ackOk then ({ l with agent := r.1 }, some (.returned false))
      else if g.canSetBaud then
        ({ l with agent := r.1, hostBaud := baud.toNat, phase := .verifying baud.toNat }, none)
      else
        -- the agent is sent back, at the rate that it has just left
        let l := { l with agent := r.1 }
        ({ l with agent := (l.exchange g ⟨cmdSetBaud, packU32 115200⟩ .nothing).1 },
          some (.returned false))

/-- The verification of `set_baud`. -/
def verify (l : Link) (baud : ℕ) (loss : Loss) : Link × Option SetBaudResult :=
  let r := l.exchange g ⟨cmdInfo, []⟩ loss
  if r.2.map Packet.cmd = some rspInfo then
    ({ l with agent := r.1, currentBaud := baud, phase := .calling }, some (.returned true))
  else
    ({ l with agent := r.1, hostBaud := l.currentBaud, phase := .calling }, some (.returned false))

/-- What an event does; one that cannot happen does nothing. -/
def next (l : Link) : LinkEvent → Link × Option SetBaudResult
  | .setBaud baud loss =>
      match l.phase with
      | .calling => l.setBaud g baud loss
      | .verifying _ => (l, none)
  | .verify loss =>
      match l.phase with
      | .calling => (l, none)
      | .verifying baud => l.verify g baud loss
  | .command p loss =>
      if l.phase = .calling ∧ p.cmd ≠ cmdSetBaud then
        ({ l with agent := (l.exchange g p loss).1 }, none)
      else (l, none)
  | .idle => ({ l with agent := (g.turn l.agent none).1 }, none)

/-- One event. -/
def Step (l l' : Link) : Prop := ∃ e, (l.next g e).1 = l'

end Link

end Defib
