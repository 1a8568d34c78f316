import Defib.Wire.Packet

/-!
# The baud rate of the agent

`uart.c` sets the rate of the line by the divisor of a PL011, in 64ths.  It does not rely on the
clock that it was built for: `uart_init` captures the divisor with which the bootrom talks at 115200
baud, and `uart_set_baud` scales that one.

The main loop changes the rate twice: when `CMD_SET_BAUD` asks for it, and back to 115200 baud after
60 polls without a packet at another rate.
-/

namespace Defib

/-! ## The UART -/

/-- `UART_BAUD`. -/
def uartBaud : ℕ := 115200

/-- The divisor registers, and `bootrom_brd64`. -/
structure Uart where
  ibrd : ℕ
  fbrd : ℕ
  bootromBrd64 : ℕ
  deriving DecidableEq, Repr

/-- What the bootrom leaves in the divisor registers: a rate, or nothing. -/
structure BootDivisor where
  ibrd : ℕ
  fbrd : ℕ
  ibrd_lt : ibrd < 2 ^ 16
  fbrd_lt : fbrd < 64
  runs : ibrd = 0 → fbrd = 0

/-- The divisor of a rate, from `UART_CLOCK`: its integer and its fraction. -/
def clockDivisor (uartClock baud : ℕ) : ℕ × ℕ :=
  (uartClock / (16 * baud), (uartClock % (16 * baud) * 64 + 16 * baud / 2) / (16 * baud))

namespace Uart

/-- The divisor in 64ths. -/
def brd64 (u : Uart) : ℕ := u.ibrd * 64 + u.fbrd

/-- `uart_init`. -/
def init (uartClock : ℕ) (boot : BootDivisor) : Uart :=
  if boot.ibrd = 0 ∧ boot.fbrd = 0 then
    let d := clockDivisor uartClock uartBaud
    ⟨d.1, d.2 % 64, d.1 * 64 + d.2 % 64⟩
  else ⟨boot.ibrd, boot.fbrd, boot.ibrd * 64 + boot.fbrd % 64⟩

/-- The divisor that `uart_set_baud` computes, its integer in a `uint32_t`. -/
def divisor (uartClock : ℕ) (u : Uart) (baud : ℕ) : ℕ × ℕ :=
  if u.bootromBrd64 ≠ 0 ∧ baud ≠ 0 then
    let newBrd64 := (u.bootromBrd64 * uartBaud + baud / 2) / baud
    (newBrd64 / 64 % 2 ^ 32, newBrd64 % 64)
  else clockDivisor uartClock baud

/-- `uart_set_baud`.  A divisor that the PL011 does not have leaves the rate as it is. -/
def setBaud (uartClock : ℕ) (u : Uart) (baud : ℕ) : Uart :=
  let d := u.divisor uartClock baud
  if d.1 < 1 ∨ 0xFFFF < d.1 then u else { u with ibrd := d.1, fbrd := d.2 % 64 }

end Uart

/-- The divisor of a rate, scaled from that of 115200 baud. -/
def scaledBrd64 (bootromBrd64 baud : ℕ) : ℕ := (bootromBrd64 * uartBaud + baud / 2) / baud

/-- The PL011 has this divisor. -/
def DivisorOk (brd64 : ℕ) : Prop := 64 ≤ brd64 ∧ brd64 < 2 ^ 22

instance (brd64 : ℕ) : Decidable (DivisorOk brd64) := inferInstanceAs (Decidable (_ ∧ _))

/-- The divisor of 115200 baud is the captured one. -/
@[simp] lemma scaledBrd64_uartBaud (bootromBrd64 : ℕ) :
    scaledBrd64 bootromBrd64 uartBaud = bootromBrd64 := by
  rw [scaledBrd64, uartBaud]
  omega

/-- A UART that runs: a rate that the PL011 has, and one to go back to. -/
structure Uart.Runs (u : Uart) : Prop where
  boot : DivisorOk u.bootromBrd64
  now : DivisorOk u.brd64

lemma Uart.runs_init {uartClock : ℕ} (hclock : 16 * uartBaud ≤ uartClock)
    (hlt : uartClock < 2 ^ 16 * (16 * uartBaud)) (boot : BootDivisor) :
    (Uart.init uartClock boot).Runs ∧
      (Uart.init uartClock boot).brd64 = (Uart.init uartClock boot).bootromBrd64 := by
  have hibrd := boot.ibrd_lt
  have hfbrd := boot.fbrd_lt
  rw [Uart.init]
  split_ifs with hboot
  · have hlo : 1 ≤ (clockDivisor uartClock uartBaud).1 :=
      (Nat.one_le_div_iff (by decide)).mpr hclock
    have hhi : (clockDivisor uartClock uartBaud).1 < 2 ^ 16 :=
      Nat.div_lt_of_lt_mul (by rwa [Nat.mul_comm])
    have hfrac : (clockDivisor uartClock uartBaud).2 % 64 < 64 := Nat.mod_lt _ (by decide)
    refine ⟨⟨⟨?_, ?_⟩, ?_, ?_⟩, rfl⟩ <;> simp only [Uart.brd64] <;> omega
  · have hpos : boot.ibrd ≠ 0 := fun h => hboot ⟨h, boot.runs h⟩
    refine ⟨⟨⟨?_, ?_⟩, ?_, ?_⟩, ?_⟩ <;> simp only [Uart.brd64] <;> omega

/-- The cast to 32 bits could only change the divisor of a single baud. -/
lemma scaledBrd64_lt {bootromBrd64 baud : ℕ} (h : DivisorOk bootromBrd64) (hbaud : 2 ≤ baud) :
    scaledBrd64 bootromBrd64 baud / 64 < 2 ^ 32 := by
  have hlt : bootromBrd64 < 2 ^ 22 := h.2
  have hscaled : scaledBrd64 bootromBrd64 baud ≤ bootromBrd64 * uartBaud / 2 + 1 := by
    rw [scaledBrd64]
    calc (bootromBrd64 * uartBaud + baud / 2) / baud
        ≤ (bootromBrd64 * uartBaud + baud) / baud :=
          Nat.div_le_div_right (Nat.add_le_add_left (Nat.div_le_self baud 2) _)
      _ = bootromBrd64 * uartBaud / baud + 1 := Nat.add_div_right _ (by omega)
      _ ≤ bootromBrd64 * uartBaud / 2 + 1 :=
          Nat.add_le_add_right (Nat.div_le_div_left hbaud (by decide)) 1
  simp only [uartBaud] at hscaled
  omega

/-- **What `uart_set_baud` can do**: it takes the scaled divisor, or leaves the rate as it is. -/
lemma Uart.setBaud_cases (uartClock : ℕ) {u : Uart} (h : u.Runs) {baud : ℕ} (hbaud : 2 ≤ baud) :
    (u.setBaud uartClock baud).bootromBrd64 = u.bootromBrd64 ∧
      (u.setBaud uartClock baud).brd64 =
        if DivisorOk (scaledBrd64 u.bootromBrd64 baud) then scaledBrd64 u.bootromBrd64 baud
        else u.brd64 := by
  have hboot : u.bootromBrd64 ≠ 0 := by
    have := h.boot.1
    omega
  have hdivisor : u.divisor uartClock baud =
      (scaledBrd64 u.bootromBrd64 baud / 64, scaledBrd64 u.bootromBrd64 baud % 64) := by
    have hcast := Nat.mod_eq_of_lt (scaledBrd64_lt h.boot hbaud)
    have hne : u.bootromBrd64 ≠ 0 ∧ baud ≠ 0 := ⟨hboot, by omega⟩
    calc u.divisor uartClock baud
        = (scaledBrd64 u.bootromBrd64 baud / 64 % 2 ^ 32,
            scaledBrd64 u.bootromBrd64 baud % 64) := if_pos hne
      _ = _ := by rw [hcast]
  rw [Uart.setBaud, hdivisor]
  by_cases hok : DivisorOk (scaledBrd64 u.bootromBrd64 baud)
  · have hrange : ¬ (scaledBrd64 u.bootromBrd64 baud / 64 < 1 ∨
        0xFFFF < scaledBrd64 u.bootromBrd64 baud / 64) := by
      have := hok.1
      have := hok.2
      omega
    rw [if_pos hok]
    dsimp only
    rw [if_neg hrange]
    refine ⟨rfl, ?_⟩
    simp only [Uart.brd64]
    omega
  · have hrange : scaledBrd64 u.bootromBrd64 baud / 64 < 1 ∨
        0xFFFF < scaledBrd64 u.bootromBrd64 baud / 64 := by
      rw [DivisorOk] at hok
      omega
    rw [if_neg hok]
    dsimp only
    rw [if_pos hrange]
    exact ⟨rfl, rfl⟩

lemma Uart.runs_setBaud (uartClock : ℕ) {u : Uart} (h : u.Runs) {baud : ℕ} (hbaud : 2 ≤ baud) :
    (u.setBaud uartClock baud).Runs := by
  obtain ⟨hboot, hnow⟩ := Uart.setBaud_cases uartClock h hbaud
  refine ⟨hboot ▸ h.boot, ?_⟩
  rw [hnow]
  split_ifs with hok
  · exact hok
  · exact h.now

/-! ## The main loop -/

/-- `CMD_INFO`. -/
def cmdInfo : UInt8 := 0x01
/-- `CMD_SET_BAUD`. -/
def cmdSetBaud : UInt8 := 0x08
/-- `RSP_INFO`. -/
def rspInfo : UInt8 := 0x81

/-- What the loop of `main` keeps from turn to turn. -/
structure AgentLoop where
  uart : Uart
  atDefaultBaud : Bool
  idleCount : ℕ
  baudIdle : ℕ
  deriving DecidableEq, Repr

/-- An agent: the clock it was built for, the data that `handle_info` sends, and what the handlers
of the other commands send that come back to the loop. -/
structure Agent where
  uartClock : ℕ
  info : List UInt8
  handle : Packet → List Packet
  le_uartClock : 16 * uartBaud ≤ uartClock
  uartClock_lt : uartClock < 2 ^ 16 * (16 * uartBaud)

/-- What `handle_set_baud` answers. -/
def setBaudStatus (data : List UInt8) : UInt8 :=
  if data.length < 4 then ackCrcError
  else if readLe32 data < 9600 ∨ 3000000 < readLe32 data then ackFlashError
  else ackOk

/-- Every rate in the range is accepted. -/
lemma setBaudStatus_packU32 {baud : ℕ} (hlo : 9600 ≤ baud) (hhi : baud ≤ 3000000) :
    setBaudStatus (packU32 baud) = ackOk := by
  rw [setBaudStatus, if_neg (by rw [length_packU32]; omega), readLe32_packU32,
    Nat.mod_eq_of_lt (by omega), if_neg (by omega)]

namespace Agent

variable (g : Agent)

/-- The agent before its loop. -/
def boot (divisor : BootDivisor) : AgentLoop := ⟨Uart.init g.uartClock divisor, true, 0, 0⟩

/-- `handle_set_baud`. -/
def handleSetBaud (s : AgentLoop) (data : List UInt8) : AgentLoop × List Packet :=
  if data.length < 4 then (s, [ackPacket ackCrcError])
  else
    let baud := readLe32 data
    if baud < 9600 ∨ 3000000 < baud then (s, [ackPacket ackFlashError])
    else
      ({ s with
          uart := s.uart.setBaud g.uartClock baud
          atDefaultBaud := baud = 115200 }, [ackPacket ackOk])

lemma handleSetBaud_snd (s : AgentLoop) (data : List UInt8) :
    (g.handleSetBaud s data).2 = [ackPacket (setBaudStatus data)] := by
  by_cases hlen : data.length < 4
  · rw [handleSetBaud, setBaudStatus, if_pos hlen, if_pos hlen]
  · rw [handleSetBaud, setBaudStatus, if_neg hlen, if_neg hlen]
    by_cases hrange : readLe32 data < 9600 ∨ 3000000 < readLe32 data
    · simp only [if_pos hrange]
    · simp only [if_neg hrange]

/-- The part of a turn without a packet that looks at the rate. -/
def revertBaud (s : AgentLoop) : AgentLoop :=
  if s.atDefaultBaud then s
  else if 60 ≤ s.baudIdle + 1 then
    { s with uart := s.uart.setBaud g.uartClock 115200, atDefaultBaud := true, baudIdle := 0 }
  else { s with baudIdle := s.baudIdle + 1 }

/-- A turn of the loop; `none` is a `proto_recv` that returns no packet. -/
def turn (s : AgentLoop) : Option Packet → AgentLoop × List Packet
  | none =>
      if 4 ≤ s.idleCount + 1 then (g.revertBaud { s with idleCount := 0 }, [readyPacket])
      else (g.revertBaud { s with idleCount := s.idleCount + 1 }, [])
  | some p =>
      let s := { s with idleCount := 0, baudIdle := 0 }
      if p.cmd = cmdInfo then (s, [⟨rspInfo, g.info⟩])
      else if p.cmd = cmdSetBaud then g.handleSetBaud s p.data
      else (s, g.handle p)

end Agent

end Defib
