import Defib.Host.SetBaud

/-!
# The rate before a transfer

The transfers of the client begin with `_switch_baud(DEFAULT_FAST_BAUD)` when they are long.  Here
is the part of it that goes over the line, one packet at a time: `set_baud` sends `CMD_SET_BAUD`,
and after its `ACK_OK` asks for `CMD_INFO` at the new rate.  What it returns is ignored, so that the
transfer goes on unless it raises.

A transport without `set_baudrate` stays at its rate: the agent is told to go back, and the answer
to that is left unread.
-/

namespace Defib

/-- `DEFAULT_FAST_BAUD`. -/
def defaultFastBaud : ℕ := 921600

/-- `FALLBACK_BAUD`. -/
def fallbackBaud : ℕ := 115200

/-- The `CMD_SET_BAUD` packet. -/
def setBaudPacket (baud : ℕ) : Packet := ⟨cmdSetBaud, packU32 baud⟩

/-- The `CMD_INFO` packet. -/
def infoPacket : Packet := ⟨cmdInfo, []⟩

/-- What decides about the rate of a transfer: the argument `fast`, `_current_baud`, and whether the
transport has `set_baudrate`. -/
structure BaudClient where
  fast : Bool
  currentBaud : ℕ
  canSetBaud : Bool

/-- Whether a transfer of so many bytes calls `set_baud`. -/
def BaudClient.switches (c : BaudClient) (len : ℕ) : Bool :=
  c.fast && len > 4096 && c.currentBaud ≠ defaultFastBaud

/-- A client on a serial port, at the rate of the boot. -/
def serialClient : BaudClient := ⟨true, fallbackBaud, true⟩

/-- Where `_switch_baud` waits, or how it ended. -/
inductive SwitchPhase
  | awaitAck
  | awaitInfo
  | over
  | raised
  deriving DecidableEq, Repr

/-- `set_baud` at one of its waits, with the packet it receives.  `resp[0]` raises on an empty
ACK. -/
def switchRecv (c : BaudClient) : SwitchPhase → Packet → SwitchPhase × List Packet
  | .awaitAck, p =>
      if p.cmd = rspReady then (.awaitAck, [])
      else if p.cmd = rspAck ∧ p.data = [] then (.raised, [])
      else if p.cmd = rspAck ∧ p.data.head? = some ackOk then
        if c.canSetBaud then (.awaitInfo, [infoPacket])
        else (.over, [setBaudPacket fallbackBaud])
      else (.over, [])
  | .awaitInfo, p => if p.cmd = rspReady then (.awaitInfo, []) else (.over, [])
  | phase, _ => (phase, [])

/-- `Link.setBaud` on the same answer: it goes on to the verification where this waits for the
answer to `CMD_INFO`, and has returned where this is over. -/
lemma switchRecv_fst_eq (g : LinkEnv) (l : Link) {c : BaudClient}
    (hc : c.canSetBaud = g.canSetBaud) (baud : UInt32) (loss : Loss) {resp : Packet}
    (hresp : (l.exchange g (setBaudPacket baud.toNat) loss).2 = some resp)
    (hready : resp.cmd ≠ rspReady) (hack : resp.cmd = rspAck → ∃ status, resp.data = [status]) :
    (switchRecv c .awaitAck resp).1 =
      if (l.setBaud g baud loss).2 = none then .awaitInfo else .over := by
  have hresult : (l.setBaud g baud loss).2 =
      if resp = ackPacket ackOk ∧ g.canSetBaud = true then none else some (.returned false) := by
    rw [setBaudPacket] at hresp
    unfold Link.setBaud
    simp only [hresp]
    by_cases hok : resp = ackPacket ackOk
    · cases hcan : g.canSetBaud with
      | true => simp [hok]
      | false => simp [hok]
    · simp [hok]
  rw [hresult, switchRecv, if_neg hready]
  by_cases hcmd : resp.cmd = rspAck
  · obtain ⟨status, hdata⟩ := hack hcmd
    have hok : resp = ackPacket ackOk ↔ status = ackOk := by
      obtain ⟨cmd, data⟩ := resp
      simp only at hcmd hdata
      rw [hcmd, hdata, ackPacket]
      simp
    simp only [hcmd, hdata, List.head?_cons, hok, ← hc, true_and, List.cons_ne_nil, if_false,
      Option.some.injEq]
    by_cases hstatus : status = ackOk
    · cases c.canSetBaud with
      | true => simp [hstatus]
      | false => simp [hstatus]
    · simp [hstatus]
  · have hne : resp ≠ ackPacket ackOk := fun h => hcmd (by rw [h]; rfl)
    simp [hcmd, hne]

end Defib
