import Defib.Host.SetBaud

/-!
# Keeping the line at one rate

Host and agent change the rate of the line one after the other, so that a lost packet, or a pause,
can leave them at two rates.  The agent goes back to 115200 baud when it hears nothing; the host
never does by itself.

`link_recovers_iff` says for every state that any run leads to whether the two can ever hear each
other again: they do already, or the host is at 115200 baud.  `lossless_link` says that nothing goes
wrong on a line that loses nothing, and what `set_baud` returns there.  `uart_rates_exact` says that
the divisor does not drift, however often the rate is changed, and how good it is.
-/

namespace Defib

/-! ## The agent -/

/-- What every turn keeps. -/
structure AgentLoop.Sound (s : AgentLoop) (bootromBrd64 : ℕ) : Prop where
  runs : s.uart.Runs
  boot : s.uart.bootromBrd64 = bootromBrd64
  default : s.atDefaultBaud = true → s.uart.brd64 = bootromBrd64

namespace Agent

variable (g : Agent) {s : AgentLoop} {bootromBrd64 : ℕ}

lemma sound_boot (divisor : BootDivisor) :
    (g.boot divisor).Sound (Uart.init g.uartClock divisor).bootromBrd64 := by
  obtain ⟨hruns, hnow⟩ := Uart.runs_init g.le_uartClock g.uartClock_lt divisor
  exact ⟨hruns, rfl, fun _ => hnow⟩

/-- Going back to 115200 baud always works. -/
lemma brd64_setBaud_default (h : s.Sound bootromBrd64) :
    (s.uart.setBaud g.uartClock 115200).brd64 = bootromBrd64 := by
  have hdefault : scaledBrd64 s.uart.bootromBrd64 115200 = s.uart.bootromBrd64 :=
    scaledBrd64_uartBaud _
  rw [(Uart.setBaud_cases g.uartClock h.runs (by decide)).2, hdefault, if_pos h.runs.boot, h.boot]

/-- **A turn without a packet** leaves the rate as it is and counts, unless it is the last of 60:
then the agent goes back. -/
lemma turn_none_cases (h : s.Sound bootromBrd64) :
    (g.turn s none).1.Sound bootromBrd64 ∧
      ((s.atDefaultBaud = true ∧ (g.turn s none).1.uart = s.uart) ∨
        (s.atDefaultBaud = false ∧ s.baudIdle + 1 < 60 ∧ (g.turn s none).1.uart = s.uart ∧
          (g.turn s none).1.baudIdle = s.baudIdle + 1) ∨
        (s.atDefaultBaud = false ∧ 60 ≤ s.baudIdle + 1 ∧
          (g.turn s none).1.uart.brd64 = bootromBrd64)) := by
  have hturn : ∃ n, (g.turn s none).1 = g.revertBaud { s with idleCount := n } := by
    rw [turn]
    split_ifs
    · exact ⟨_, rfl⟩
    · exact ⟨_, rfl⟩
  obtain ⟨n, hturn⟩ := hturn
  rw [hturn, revertBaud]
  have hne : 2 ≤ 115200 := by decide
  have hback := g.brd64_setBaud_default h
  have hruns := Uart.runs_setBaud g.uartClock h.runs hne
  have hboot := (Uart.setBaud_cases g.uartClock h.runs hne).1
  cases hdefault : s.atDefaultBaud with
  | true => exact ⟨⟨h.runs, h.boot, fun _ => h.default hdefault⟩, .inl ⟨rfl, rfl⟩⟩
  | false =>
      dsimp only
      rw [if_neg Bool.false_ne_true]
      split_ifs with hlast
      · exact ⟨⟨hruns, hboot.trans h.boot, fun _ => hback⟩, .inr (.inr ⟨rfl, hlast, hback⟩)⟩
      · refine ⟨⟨h.runs, h.boot, fun hd => ?_⟩, .inr (.inl ⟨rfl, by omega, rfl, rfl⟩)⟩
        cases hd

/-- `CMD_SET_BAUD` reaches its handler. -/
lemma turn_setBaud_eq (baud : UInt32) :
    g.turn s (some ⟨cmdSetBaud, packU32 baud.toNat⟩) =
      if baud.toNat < 9600 ∨ 3000000 < baud.toNat then
        (⟨s.uart, s.atDefaultBaud, 0, 0⟩, [ackPacket ackFlashError])
      else
        (⟨s.uart.setBaud g.uartClock baud.toNat, baud.toNat = 115200, 0, 0⟩,
          [ackPacket ackOk]) := by
  have hread : readLe32 (packU32 baud.toNat) = baud.toNat := by
    rw [readLe32_packU32, Nat.mod_eq_of_lt (UInt32.toNat_lt baud)]
  have hlength : ¬ (packU32 baud.toNat).length < 4 := by rw [length_packU32]; decide
  have hcmd : ¬ cmdSetBaud = cmdInfo := by decide
  rw [turn, if_neg hcmd, if_pos rfl, handleSetBaud, if_neg hlength, hread]

/-- A rate out of range is refused. -/
lemma turn_setBaud_of_not (h : s.Sound bootromBrd64) {baud : UInt32}
    (hrange : ¬ (9600 ≤ baud.toNat ∧ baud.toNat ≤ 3000000)) :
    ∃ s', g.turn s (some ⟨cmdSetBaud, packU32 baud.toNat⟩) = (s', [ackPacket ackFlashError]) ∧
      s'.Sound bootromBrd64 ∧ s'.uart = s.uart := by
  rw [turn_setBaud_eq, if_pos (by omega)]
  exact ⟨_, rfl, ⟨h.runs, h.boot, h.default⟩, rfl⟩

/-- Any other rate is acknowledged, and taken if the PL011 has its divisor. -/
lemma turn_setBaud_of_range (h : s.Sound bootromBrd64) {baud : UInt32}
    (hrange : 9600 ≤ baud.toNat ∧ baud.toNat ≤ 3000000) :
    ∃ s', g.turn s (some ⟨cmdSetBaud, packU32 baud.toNat⟩) = (s', [ackPacket ackOk]) ∧
      s'.Sound bootromBrd64 ∧
      s'.uart.brd64 =
        if DivisorOk (scaledBrd64 bootromBrd64 baud.toNat) then
          scaledBrd64 bootromBrd64 baud.toNat
        else s.uart.brd64 := by
  have hbaud : 2 ≤ baud.toNat := by omega
  obtain ⟨hboot, hnow⟩ := Uart.setBaud_cases g.uartClock h.runs hbaud
  rw [h.boot] at hnow
  have hdefault : decide (baud.toNat = 115200) = true →
      (s.uart.setBaud g.uartClock baud.toNat).brd64 = bootromBrd64 := by
    intro hd
    rw [of_decide_eq_true hd]
    exact g.brd64_setBaud_default h
  rw [turn_setBaud_eq, if_neg (by omega)]
  exact ⟨_, rfl,
    ⟨Uart.runs_setBaud g.uartClock h.runs hbaud, hboot.trans h.boot, hdefault⟩, hnow⟩

lemma sound_turn_setBaud (h : s.Sound bootromBrd64) (baud : UInt32) :
    (g.turn s (some ⟨cmdSetBaud, packU32 baud.toNat⟩)).1.Sound bootromBrd64 := by
  by_cases hrange : 9600 ≤ baud.toNat ∧ baud.toNat ≤ 3000000
  · obtain ⟨s', hturn, hsound, -⟩ := g.turn_setBaud_of_range h hrange
    rwa [hturn]
  · obtain ⟨s', hturn, hsound, -⟩ := g.turn_setBaud_of_not h hrange
    rwa [hturn]

/-- No other command changes the rate. -/
lemma turn_command (h : s.Sound bootromBrd64) {p : Packet} (hp : p.cmd ≠ cmdSetBaud) :
    (g.turn s (some p)).1.Sound bootromBrd64 ∧ (g.turn s (some p)).1.uart = s.uart := by
  have hsame : (⟨s.uart, s.atDefaultBaud, 0, 0⟩ : AgentLoop).Sound bootromBrd64 :=
    ⟨h.runs, h.boot, h.default⟩
  rw [turn, if_neg hp]
  split_ifs
  · exact ⟨hsame, rfl⟩
  · exact ⟨hsame, rfl⟩

lemma turn_info (h : s.Sound bootromBrd64) :
    ∃ s', g.turn s (some ⟨cmdInfo, []⟩) = (s', [⟨rspInfo, g.info⟩]) ∧ s'.Sound bootromBrd64 ∧
      s'.uart = s.uart := by
  rw [turn, if_pos rfl]
  exact ⟨_, rfl, ⟨h.runs, h.boot, h.default⟩, rfl⟩

end Agent

/-! ## Every run -/

namespace Link

variable {g : LinkEnv} {l : Link} {bootromBrd64 : ℕ}

lemma exchange_of_not_inStep (h : ¬ l.InStep) (p : Packet) (loss : Loss) :
    l.exchange g p loss = (l.agent, none) := if_neg fun hin => h hin.1

/-- An exchange is a turn of the agent, or nothing at all. -/
lemma exchange_fst (p : Packet) (loss : Loss) :
    (l.exchange g p loss).1 = l.agent ∨ (l.exchange g p loss).1 = (g.turn l.agent (some p)).1 := by
  rw [exchange]
  by_cases h : l.InStep ∧ loss ≠ .request
  · rw [if_pos h]
    exact .inr rfl
  · rw [if_neg h]
    exact .inl rfl

lemma sound_exchange (h : l.agent.Sound bootromBrd64) (p : Packet) (loss : Loss)
    (hp : p.cmd ≠ cmdSetBaud ∨ ∃ baud : UInt32, p = ⟨cmdSetBaud, packU32 baud.toNat⟩) :
    (l.exchange g p loss).1.Sound bootromBrd64 := by
  rcases l.exchange_fst (g := g) p loss with hsame | hturn
  · rwa [hsame]
  · rw [hturn]
    rcases hp with hp | ⟨baud, rfl⟩
    · exact (g.turn_command h hp).1
    · exact g.sound_turn_setBaud h baud

lemma sound_setBaud (h : l.agent.Sound bootromBrd64) (baud : UInt32) (loss : Loss) :
    (l.setBaud g baud loss).1.agent.Sound bootromBrd64 := by
  have hfirst := sound_exchange (g := g) h ⟨cmdSetBaud, packU32 baud.toNat⟩ loss (.inr ⟨_, rfl⟩)
  have hnudge : (⟨cmdSetBaud, packU32 115200⟩ : Packet) =
      ⟨cmdSetBaud, packU32 (115200 : UInt32).toNat⟩ := rfl
  rw [setBaud]
  cases (l.exchange g ⟨cmdSetBaud, packU32 baud.toNat⟩ loss).2 with
  | none => exact hfirst
  | some resp =>
      dsimp only
      split_ifs
      · exact hfirst
      · exact hfirst
      · exact sound_exchange (l := { l with agent := _ }) hfirst _ _ (.inr ⟨115200, hnudge⟩)

/-- **Every event keeps the agent sound.** -/
lemma sound_next (h : l.agent.Sound bootromBrd64) (e : LinkEvent) :
    (l.next g e).1.agent.Sound bootromBrd64 := by
  cases e with
  | setBaud baud loss =>
      rw [next]
      cases l.phase with
      | calling => exact sound_setBaud h baud loss
      | verifying b => exact h
  | verify loss =>
      have hinfo := sound_exchange (g := g) h ⟨cmdInfo, []⟩ loss (.inl (by decide))
      rw [next]
      cases l.phase with
      | calling => exact h
      | verifying b =>
          dsimp only
          rw [verify]
          split_ifs
          · exact hinfo
          · exact hinfo
  | command p loss =>
      rw [next]
      split_ifs with hp
      · exact sound_exchange h p loss (.inl hp.2)
      · exact h
  | idle => exact (g.turn_none_cases h).1

lemma sound_reaches {l' : Link} (hreach : Reaches (Step g) l l')
    (h : l.agent.Sound bootromBrd64) : l'.agent.Sound bootromBrd64 := by
  have hstep : ∀ c d : Link, c.agent.Sound bootromBrd64 → Step g c d →
      d.agent.Sound bootromBrd64 := by
    rintro c d hc ⟨e, rfl⟩
    exact sound_next hc e
  exact hreach.invariant hstep h

/-- The host is at the rate to which the agent goes back. -/
def HostAtDefault (l : Link) : Prop :=
  scaledBrd64 l.agent.uart.bootromBrd64 l.hostBaud = l.agent.uart.bootromBrd64

/-- An agent that is left alone goes back to 115200 baud, the host stays where it is. -/
lemma exists_default (h : l.agent.Sound bootromBrd64) :
    ∃ l', Reaches (Step g) l l' ∧ l'.agent.uart.brd64 = bootromBrd64 ∧
      l'.agent.uart.bootromBrd64 = bootromBrd64 ∧ l'.hostBaud = l.hostBaud := by
  -- the polls that are left until the agent goes back
  induction hleft : 60 - l.agent.baudIdle generalizing l with
  | zero =>
      have hstep : Step g l (l.next g .idle).1 := ⟨.idle, rfl⟩
      obtain ⟨hsound, ⟨hdefault, huart⟩ | ⟨-, hlt, -⟩ | ⟨-, -, hback⟩⟩ := g.turn_none_cases h
      · exact ⟨l, .refl l, h.default hdefault, h.boot, rfl⟩
      · omega
      · exact ⟨_, (Reaches.refl l).tail hstep, hback, hsound.boot, rfl⟩
  | succ left ih =>
      have hstep : Step g l (l.next g .idle).1 := ⟨.idle, rfl⟩
      obtain ⟨hsound, ⟨hdefault, huart⟩ | ⟨-, hlt, huart, hidle⟩ | ⟨-, -, hback⟩⟩ :=
        g.turn_none_cases h
      · exact ⟨l, .refl l, h.default hdefault, h.boot, rfl⟩
      · have hmore : 60 - (l.next g .idle).1.agent.baudIdle = left := by
          show 60 - (g.turn l.agent none).1.baudIdle = left
          omega
        obtain ⟨l', ⟨n, hrun⟩, hdone⟩ := ih hsound hmore
        exact ⟨l', ⟨n + 1, hrun.head hstep⟩, hdone⟩
      · exact ⟨_, (Reaches.refl l).tail hstep, hback, hsound.boot, rfl⟩

/-- Between two calls the host is at a rate of its own, and not heard: nothing changes that. -/
structure Stranded (l : Link) (bootromBrd64 : ℕ) : Prop where
  sound : l.agent.Sound bootromBrd64
  calling : l.phase = .calling
  not_default : scaledBrd64 bootromBrd64 l.hostBaud ≠ bootromBrd64
  not_heard : l.agent.uart.brd64 ≠ scaledBrd64 bootromBrd64 l.hostBaud

lemma Stranded.not_inStep (h : l.Stranded bootromBrd64) : ¬ l.InStep := by
  rw [InStep, h.sound.boot]
  exact h.not_heard

/-- **Stranded for good.** -/
lemma Stranded.next (h : l.Stranded bootromBrd64) (e : LinkEvent) :
    (l.next g e).1.Stranded bootromBrd64 := by
  have hin := h.not_inStep
  cases e with
  | setBaud baud loss =>
      rw [Link.next, h.calling]
      dsimp only
      rw [setBaud, exchange_of_not_inStep hin]
      exact h
  | verify loss =>
      rw [Link.next, h.calling]
      exact h
  | command p loss =>
      rw [Link.next, exchange_of_not_inStep hin]
      split_ifs
      · exact h
      · exact h
  | idle =>
      obtain ⟨hsound, ⟨-, huart⟩ | ⟨-, -, huart, -⟩ | ⟨-, -, hback⟩⟩ := g.turn_none_cases h.sound
      · exact ⟨hsound, h.calling, h.not_default, fun hnow => h.not_heard (huart ▸ hnow)⟩
      · exact ⟨hsound, h.calling, h.not_default, fun hnow => h.not_heard (huart ▸ hnow)⟩
      · exact ⟨hsound, h.calling, h.not_default,
          fun hnow => h.not_default (hnow.symm.trans hback)⟩

lemma Stranded.reaches (h : l.Stranded bootromBrd64) {l' : Link} (hreach : Reaches (Step g) l l') :
    l'.Stranded bootromBrd64 := by
  have hstep : ∀ c d : Link, c.Stranded bootromBrd64 → Step g c d → d.Stranded bootromBrd64 := by
    rintro c d hc ⟨e, rfl⟩
    exact hc.next e
  exact hreach.invariant hstep h

/-- **When the line can be used again**: after any run, between two calls of `set_baud`, some
continuation brings host and agent to one rate exactly when they are at one rate, or the host is at
the rate that the agent goes back to. -/
theorem link_recovers_iff (g : LinkEnv) (divisor : BootDivisor) (l : Link)
    (hreach : Reaches (Step g) (boot g divisor) l) (hphase : l.phase = .calling) :
    (∃ l', Reaches (Step g) l l' ∧ l'.InStep) ↔ l.InStep ∨ l.HostAtDefault := by
  have hsound := sound_reaches hreach (g.sound_boot divisor)
  rw [HostAtDefault, hsound.boot]
  constructor
  · rintro ⟨l', hreach', hin'⟩
    by_contra hnot
    obtain ⟨hin, hdefault⟩ := not_or.mp hnot
    have hstranded : l.Stranded _ :=
      ⟨hsound, hphase, hdefault, fun hnow => hin (by rw [InStep, hsound.boot]; exact hnow)⟩
    exact (hstranded.reaches hreach').not_inStep hin'
  · rintro (hin | hdefault)
    · exact ⟨l, .refl l, hin⟩
    · obtain ⟨l', hreach', hback, hboot, hhost⟩ := exists_default (g := g) hsound
      refine ⟨l', hreach', ?_⟩
      rw [InStep, hboot, hhost, hback, hdefault]

/-- An agent that was built for 24 MHz, on a bootrom that set its divisor to 13 and a 64th. -/
def sampleAgent : LinkEnv :=
  ⟨⟨24000000, [], fun _ => [], by decide, by decide⟩, true⟩

/-- The divisor that its bootrom leaves. -/
def sampleDivisor : BootDivisor := ⟨13, 1, by decide, by decide, by decide⟩

/-- The acknowledgement of a faster rate gets lost: the agent has it, the host does not. -/
theorem lost_ack_recovers :
    ∃ l, l.phase = .calling ∧ l.hostBaud = 115200 ∧
      ((∃ l', Reaches (Step sampleAgent) l l' ∧ l'.InStep) ↔ l.InStep ∨ l.HostAtDefault) :=
  ⟨((boot sampleAgent sampleDivisor).next sampleAgent (.setBaud 921600 .reply)).1, rfl, rfl,
    link_recovers_iff sampleAgent sampleDivisor _ ((Reaches.refl _).tail ⟨_, rfl⟩) rfl⟩

/-! ## A line that loses nothing -/

/-- The event loses nothing, and does not leave the agent alone until it goes back. -/
def Undisturbed (l : Link) : LinkEvent → Prop
  | .setBaud _ loss => loss = .nothing
  | .verify loss => loss = .nothing
  | .command _ loss => loss = .nothing
  | .idle => l.agent.atDefaultBaud = true ∨ l.agent.baudIdle + 1 < 60

/-- One such event. -/
def CalmStep (g : LinkEnv) (l l' : Link) : Prop := ∃ e, l.Undisturbed e ∧ (l.next g e).1 = l'

/-- Both take the rate. -/
def Takes (bootromBrd64 baud : ℕ) : Prop :=
  (9600 ≤ baud ∧ baud ≤ 3000000) ∧ DivisorOk (scaledBrd64 bootromBrd64 baud)

instance (bootromBrd64 baud : ℕ) : Decidable (Takes bootromBrd64 baud) :=
  inferInstanceAs (Decidable (_ ∧ _))

/-- A call of `set_baud` that nothing interferes with. -/
def switchBaud (g : LinkEnv) (l : Link) (baud : UInt32) : Link × Option SetBaudResult :=
  match l.next g (.setBaud baud .nothing) with
  | (l', none) => l'.next g (.verify .nothing)
  | r => r

/-- Where both ends are when nothing is lost: at one rate between two calls, and while a rate is
verified, at that rate, or the agent at the old one where it has no divisor for the new one. -/
structure Steady (l : Link) (bootromBrd64 : ℕ) : Prop where
  sound : l.agent.Sound bootromBrd64
  calling : l.phase = .calling → l.hostBaud = l.currentBaud ∧
    l.agent.uart.brd64 = scaledBrd64 bootromBrd64 l.hostBaud
  verifying : ∀ baud, l.phase = .verifying baud → l.hostBaud = baud ∧
    l.agent.uart.brd64 =
      if DivisorOk (scaledBrd64 bootromBrd64 baud) then scaledBrd64 bootromBrd64 baud
      else scaledBrd64 bootromBrd64 l.currentBaud

lemma steady_boot (g : LinkEnv) (divisor : BootDivisor) :
    (boot g divisor).Steady (Uart.init g.uartClock divisor).bootromBrd64 := by
  refine ⟨g.sound_boot divisor, fun _ => ⟨rfl, ?_⟩, fun baud h => by cases h⟩
  have hdefault := scaledBrd64_uartBaud (Uart.init g.uartClock divisor).bootromBrd64
  exact (Uart.runs_init g.le_uartClock g.uartClock_lt divisor).2.trans hdefault.symm

lemma Steady.inStep (h : l.Steady bootromBrd64) (hphase : l.phase = .calling) : l.InStep := by
  rw [InStep, h.sound.boot]
  exact (h.calling hphase).2

lemma exchange_of_inStep (h : l.InStep) {p resp : Packet} {s' : AgentLoop}
    (hturn : g.turn l.agent (some p) = (s', [resp])) :
    l.exchange g p .nothing = (s', some resp) := by
  have hheard : l.InStep ∧ Loss.nothing ≠ .request := ⟨h, by decide⟩
  have hkept : ¬ Loss.nothing = .reply := by decide
  rw [exchange, if_pos hheard, if_neg hkept, hturn]
  rfl

/-- A rate that is acknowledged: the host changes over. -/
lemma setBaud_of_ack {baud : UInt32} {loss : Loss} {a : AgentLoop} (hcontrol : g.canSetBaud = true)
    (h : l.exchange g ⟨cmdSetBaud, packU32 baud.toNat⟩ loss = (a, some (ackPacket ackOk))) :
    l.setBaud g baud loss =
      (⟨baud.toNat, l.currentBaud, .verifying baud.toNat, a⟩, none) := by
  have hack : ¬ ackPacket ackOk ≠ ackPacket ackOk := fun hne => hne rfl
  rw [setBaud, h]
  show (if _ then _ else _) = _
  rw [if_neg hack, if_pos hcontrol]

/-- A rate that is refused. -/
lemma setBaud_of_refusal {baud : UInt32} {loss : Loss} {a : AgentLoop} {resp : Packet}
    (hne : resp ≠ ackPacket ackOk)
    (h : l.exchange g ⟨cmdSetBaud, packU32 baud.toNat⟩ loss = (a, some resp)) :
    l.setBaud g baud loss = ({ l with agent := a }, some (.returned false)) := by
  rw [setBaud, h]
  show (if _ then _ else _) = _
  rw [if_pos hne]

/-- A rate in range is acknowledged, and the host changes over. -/
lemma Steady.setBaud_of_range (h : l.Steady bootromBrd64) (hphase : l.phase = .calling)
    (hcontrol : g.canSetBaud = true) {baud : UInt32}
    (hrange : 9600 ≤ baud.toNat ∧ baud.toNat ≤ 3000000) :
    ∃ l', l.setBaud g baud .nothing = (l', none) ∧ l'.Steady bootromBrd64 ∧
      l'.phase = .verifying baud.toNat ∧ l'.currentBaud = l.currentBaud := by
  obtain ⟨s', hturn, hsound, hbrd⟩ := g.turn_setBaud_of_range h.sound hrange
  obtain ⟨hhost, hnow⟩ := h.calling hphase
  refine ⟨_, setBaud_of_ack hcontrol (exchange_of_inStep (h.inStep hphase) hturn),
    ⟨hsound, fun hcalling => (by cases hcalling), ?_⟩, rfl, rfl⟩
  intro b hb
  obtain rfl : baud.toNat = b := SetBaudPhase.verifying.inj hb
  refine ⟨rfl, ?_⟩
  rw [hbrd, hnow, hhost]

/-- Any other rate is refused, and everything stays as it is. -/
lemma Steady.setBaud_of_not (h : l.Steady bootromBrd64) (hphase : l.phase = .calling)
    {baud : UInt32} (hrange : ¬ (9600 ≤ baud.toNat ∧ baud.toNat ≤ 3000000)) :
    ∃ l', l.setBaud g baud .nothing = (l', some (.returned false)) ∧ l'.Steady bootromBrd64 ∧
      l'.phase = .calling ∧ l'.currentBaud = l.currentBaud := by
  obtain ⟨s', hturn, hsound, huart⟩ := g.turn_setBaud_of_not h.sound hrange
  have hrefused : ackPacket ackFlashError ≠ ackPacket ackOk := by decide
  refine ⟨_, setBaud_of_refusal hrefused (exchange_of_inStep (h.inStep hphase) hturn),
    ⟨hsound, fun _ => ?_, fun b hb => ?_⟩, hphase, rfl⟩
  · obtain ⟨hhost, hnow⟩ := h.calling hphase
    exact ⟨hhost, (congrArg Uart.brd64 huart).trans hnow⟩
  · exact absurd (hphase.symm.trans hb) (by simp)

/-- **The verification** finds out whether the agent has the rate, and leaves both at one rate. -/
lemma Steady.verify (h : l.Steady bootromBrd64) {baud : ℕ} (hphase : l.phase = .verifying baud) :
    ∃ l', l.verify g baud .nothing =
        (l', some (.returned (decide (DivisorOk (scaledBrd64 bootromBrd64 baud))))) ∧
      l'.Steady bootromBrd64 ∧ l'.phase = .calling ∧
      l'.currentBaud =
        if DivisorOk (scaledBrd64 bootromBrd64 baud) then baud else l.currentBaud := by
  obtain ⟨hhost, hnow⟩ := h.verifying baud hphase
  obtain ⟨s', hturn, hsound, huart⟩ := g.turn_info h.sound
  rw [Link.verify]
  by_cases hok : DivisorOk (scaledBrd64 bootromBrd64 baud)
  · have hin : l.InStep := by
      rw [InStep, h.sound.boot, hnow, if_pos hok, hhost]
    rw [exchange_of_inStep hin hturn, if_pos hok, decide_eq_true hok]
    refine ⟨_, if_pos rfl, ⟨hsound, fun _ => ⟨hhost, ?_⟩, fun b hb => by cases hb⟩, rfl, rfl⟩
    rw [hhost]
    exact (congrArg Uart.brd64 huart).trans (hnow.trans (if_pos hok))
  · -- the rate of the agent has a divisor, this one does not
    have hnot : ¬ l.InStep := by
      intro hin
      rw [InStep, h.sound.boot, hhost] at hin
      exact hok (hin ▸ h.sound.runs.now)
    have hnone : ¬ (none : Option Packet).map Packet.cmd = some rspInfo := by simp
    rw [exchange_of_not_inStep hnot, if_neg hok, decide_eq_false hok]
    refine ⟨_, if_neg hnone, ⟨h.sound, fun _ => ⟨rfl, ?_⟩, fun b hb => by cases hb⟩, rfl, rfl⟩
    exact hnow.trans (if_neg hok)

/-- **Every undisturbed event keeps the line steady.** -/
lemma Steady.next (h : l.Steady bootromBrd64) (hcontrol : g.canSetBaud = true) {e : LinkEvent}
    (he : l.Undisturbed e) : (l.next g e).1.Steady bootromBrd64 := by
  cases e with
  | setBaud baud loss =>
      obtain rfl : loss = .nothing := he
      rw [Link.next]
      cases hphase : l.phase with
      | verifying b => exact h
      | calling =>
          by_cases hrange : 9600 ≤ baud.toNat ∧ baud.toNat ≤ 3000000
          · obtain ⟨l', hl', hsteady, -⟩ := h.setBaud_of_range hphase hcontrol hrange
            dsimp only
            rw [hl']
            exact hsteady
          · obtain ⟨l', hl', hsteady, -⟩ := h.setBaud_of_not (g := g) hphase hrange
            dsimp only
            rw [hl']
            exact hsteady
  | verify loss =>
      obtain rfl : loss = .nothing := he
      rw [Link.next]
      cases hphase : l.phase with
      | calling => exact h
      | verifying b =>
          obtain ⟨l', hl', hsteady, -⟩ := h.verify (g := g) hphase
          dsimp only
          rw [hl']
          exact hsteady
  | command p loss =>
      obtain rfl : loss = .nothing := he
      rw [Link.next]
      split_ifs with hp
      · obtain ⟨hsound, huart⟩ := g.turn_command h.sound hp.2
        have hturn : (l.exchange g p .nothing).1 = (g.turn l.agent (some p)).1 := by
          rw [exchange, if_pos ⟨h.inStep hp.1, by decide⟩]
        rw [hturn]
        refine ⟨hsound, fun hphase => ?_, fun b hb => ?_⟩
        · obtain ⟨hhost, hnow⟩ := h.calling hphase
          exact ⟨hhost, (congrArg Uart.brd64 huart).trans hnow⟩
        · exact absurd (hp.1.symm.trans hb) (by simp)
      · exact h
  | idle =>
      have hkept : (g.turn l.agent none).1.uart = l.agent.uart := by
        obtain ⟨-, ⟨-, huart⟩ | ⟨-, -, huart, -⟩ | ⟨hdefault, hlast, -⟩⟩ :=
          g.turn_none_cases h.sound
        · exact huart
        · exact huart
        · rcases he with he | he
          · rw [hdefault] at he
            cases he
          · omega
      refine ⟨(g.turn_none_cases h.sound).1, fun hphase => ?_, fun b hb => ?_⟩
      · obtain ⟨hhost, hnow⟩ := h.calling hphase
        exact ⟨hhost, (congrArg Uart.brd64 hkept).trans hnow⟩
      · obtain ⟨hhost, hnow⟩ := h.verifying b hb
        exact ⟨hhost, (congrArg Uart.brd64 hkept).trans hnow⟩

lemma steady_reaches (hcontrol : g.canSetBaud = true) {divisor : BootDivisor}
    (hreach : Reaches (CalmStep g) (boot g divisor) l) :
    l.Steady (Uart.init g.uartClock divisor).bootromBrd64 := by
  have hstep : ∀ c d : Link, c.Steady (Uart.init g.uartClock divisor).bootromBrd64 →
      CalmStep g c d → d.Steady (Uart.init g.uartClock divisor).bootromBrd64 := by
    rintro c d hc ⟨e, he, rfl⟩
    exact hc.next hcontrol he
  exact hreach.invariant hstep (steady_boot g divisor)

/-- **On a line that loses nothing**, while the agent is not left alone at a fast rate, host and
agent are at one rate between any two calls, and `set_baud` succeeds exactly for the rates that the
agent accepts and its UART has a divisor for.  If it fails, the old rate stays. -/
theorem lossless_link (g : LinkEnv) (hcontrol : g.canSetBaud = true) (divisor : BootDivisor)
    (l : Link) (hreach : Reaches (CalmStep g) (boot g divisor) l) (hphase : l.phase = .calling)
    (baud : UInt32) :
    l.InStep ∧
      ∃ l', l.switchBaud g baud =
          (l', some (.returned (decide (Takes l.agent.uart.bootromBrd64 baud.toNat)))) ∧
        l'.InStep ∧ l'.hostBaud = l'.currentBaud ∧
        l'.currentBaud =
          if Takes l.agent.uart.bootromBrd64 baud.toNat then baud.toNat else l.currentBaud := by
  have hsteady := steady_reaches hcontrol hreach
  refine ⟨hsteady.inStep hphase, ?_⟩
  rw [hsteady.sound.boot, switchBaud, Link.next, hphase]
  dsimp only
  by_cases hrange : 9600 ≤ baud.toNat ∧ baud.toNat ≤ 3000000
  · obtain ⟨l₁, hl₁, hsteady₁, hphase₁, hcurrent₁⟩ :=
      hsteady.setBaud_of_range hphase hcontrol hrange
    obtain ⟨l₂, hl₂, hsteady₂, hphase₂, hcurrent₂⟩ := hsteady₁.verify (g := g) hphase₁
    have htakes : Takes (Uart.init g.uartClock divisor).bootromBrd64 baud.toNat ↔
        DivisorOk (scaledBrd64 (Uart.init g.uartClock divisor).bootromBrd64 baud.toNat) :=
      and_iff_right hrange
    rw [hl₁]
    dsimp only
    rw [Link.next, hphase₁]
    dsimp only
    rw [hl₂]
    simp only [htakes]
    exact ⟨l₂, rfl, hsteady₂.inStep hphase₂, (hsteady₂.calling hphase₂).1,
      hcurrent₁ ▸ hcurrent₂⟩
  · obtain ⟨l₁, hl₁, hsteady₁, hphase₁, hcurrent₁⟩ := hsteady.setBaud_of_not (g := g) hphase hrange
    have htakes : ¬ Takes (Uart.init g.uartClock divisor).bootromBrd64 baud.toNat :=
      fun htakes => hrange htakes.1
    rw [hl₁, decide_eq_false htakes, if_neg htakes]
    exact ⟨l₁, rfl, hsteady₁.inStep hphase₁, (hsteady₁.calling hphase₁).1, hcurrent₁⟩

theorem lossless_fastRate :
    (boot sampleAgent sampleDivisor).InStep ∧
      ∃ l', (boot sampleAgent sampleDivisor).switchBaud sampleAgent 921600 =
          (l', some (.returned true)) ∧ l'.InStep := by
  obtain ⟨hin, l', hswitch, hin', -⟩ := lossless_link sampleAgent rfl sampleDivisor _ (.refl _) rfl
    921600
  exact ⟨hin, l', hswitch, hin'⟩

end Link

/-! ## The divisor -/

namespace Uart

/-- The rate of a UART after some requests: that of the last one that the PL011 has a divisor for. -/
def lastRate (bootromBrd64 : ℕ) (bauds : List ℕ) : ℕ :=
  (bauds.filter fun baud => DivisorOk (scaledBrd64 bootromBrd64 baud)).getLastD uartBaud

lemma lastRate_append (bootromBrd64 : ℕ) (bauds : List ℕ) (baud : ℕ) :
    lastRate bootromBrd64 (bauds ++ [baud]) =
      if DivisorOk (scaledBrd64 bootromBrd64 baud) then baud else lastRate bootromBrd64 bauds := by
  rw [lastRate, List.filter_append]
  by_cases hok : DivisorOk (scaledBrd64 bootromBrd64 baud)
  · rw [List.filter_cons_of_pos (by simpa using hok), List.filter_nil, if_pos hok,
      List.getLastD_concat]
  · rw [List.filter_cons_of_neg (by simpa using hok), List.filter_nil, if_neg hok, List.append_nil,
      lastRate]

/-- The fraction is one of 64ths. -/
lemma fbrd_setBaud (uartClock : ℕ) {u : Uart} (h : u.fbrd < 64) (baud : ℕ) :
    (u.setBaud uartClock baud).fbrd < 64 := by
  rw [setBaud]
  split_ifs
  · exact h
  · exact Nat.mod_lt _ (by decide)

lemma fbrd_init (uartClock : ℕ) (boot : BootDivisor) : (init uartClock boot).fbrd < 64 := by
  rw [init]
  split_ifs
  · exact Nat.mod_lt _ (by decide)
  · exact boot.fbrd_lt

/-- The scaled divisor is the closest one. -/
lemma scaledBrd64_error (bootromBrd64 : ℕ) {baud : ℕ} (hbaud : baud ≠ 0) :
    2 * ((115200 * bootromBrd64 : ℕ) - (baud * scaledBrd64 bootromBrd64 baud : ℕ) : ℤ).natAbs ≤
      baud := by
  have hdiv := Nat.div_add_mod (bootromBrd64 * uartBaud + baud / 2) baud
  have hmod : (bootromBrd64 * uartBaud + baud / 2) % baud < baud :=
    Nat.mod_lt _ (Nat.pos_of_ne_zero hbaud)
  have hhalf : 2 * (baud / 2) ≤ baud ∧ baud ≤ 2 * (baud / 2) + 1 := by omega
  have hclock : bootromBrd64 * uartBaud = 115200 * bootromBrd64 := Nat.mul_comm _ _
  rw [← scaledBrd64, hclock] at hdiv
  rw [hclock] at hmod
  generalize baud * scaledBrd64 bootromBrd64 baud = product at hdiv ⊢
  omega

/-- Request by request, the divisor is that of the last rate. -/
lemma foldl_setBaud (uartClock : ℕ) {u : Uart} (h : u.Runs) (hnow : u.brd64 = u.bootromBrd64)
    (hfbrd : u.fbrd < 64) {bauds : List ℕ} (hbauds : ∀ baud ∈ bauds, 2 ≤ baud) :
    (bauds.foldl (setBaud uartClock) u).Runs ∧
      (bauds.foldl (setBaud uartClock) u).bootromBrd64 = u.bootromBrd64 ∧
      (bauds.foldl (setBaud uartClock) u).fbrd < 64 ∧ lastRate u.bootromBrd64 bauds ≠ 0 ∧
      (bauds.foldl (setBaud uartClock) u).brd64 =
        scaledBrd64 u.bootromBrd64 (lastRate u.bootromBrd64 bauds) := by
  induction bauds using List.reverseRecOn with
  | nil =>
      have hlast : lastRate u.bootromBrd64 [] = uartBaud := rfl
      rw [hlast, scaledBrd64_uartBaud]
      exact ⟨h, rfl, hfbrd, by decide, hnow⟩
  | append_singleton bauds baud ih =>
      have hbaud : 2 ≤ baud := hbauds baud (by simp)
      obtain ⟨hruns, hboot, hfbrd', hlast, hbrd⟩ := ih fun b hb => hbauds b (by simp [hb])
      obtain ⟨hboot', hbrd'⟩ := setBaud_cases uartClock hruns hbaud
      rw [List.foldl_append, List.foldl_cons, List.foldl_nil, lastRate_append]
      refine ⟨runs_setBaud uartClock hruns hbaud, hboot'.trans hboot,
        fbrd_setBaud uartClock hfbrd' baud, ?_, ?_⟩
      · split_ifs
        · exact Nat.ne_of_gt (by omega)
        · exact hlast
      · rw [hbrd', hboot, hbrd]
        split_ifs <;> rfl

end Uart

/-- **The divisor does not drift**: whatever rates of two baud and more `uart_set_baud` is asked for,
the registers hold the divisor that belongs to the last of them that the PL011 can be set to.  It is
the closest one there is, and back at 115200 baud it is the divisor of the bootrom. -/
theorem uart_rates_exact (uartClock : ℕ) (hclock : 16 * uartBaud ≤ uartClock)
    (hlt : uartClock < 2 ^ 16 * (16 * uartBaud)) (boot : BootDivisor) (bauds : List ℕ)
    (hbauds : ∀ baud ∈ bauds, 2 ≤ baud) :
    let u₀ := Uart.init uartClock boot
    let u := bauds.foldl (Uart.setBaud uartClock) u₀
    let rate := Uart.lastRate u₀.brd64 bauds
    u.brd64 = scaledBrd64 u₀.brd64 rate ∧ (rate = 115200 → u.brd64 = u₀.brd64) ∧
      1 ≤ u.ibrd ∧ u.ibrd ≤ 0xFFFF ∧ u.fbrd < 64 ∧
      2 * ((115200 * u₀.brd64 : ℕ) - (rate * u.brd64 : ℕ) : ℤ).natAbs ≤ rate := by
  intro u₀ u rate
  obtain ⟨hruns₀, hnow₀⟩ := Uart.runs_init hclock hlt boot
  obtain ⟨hruns, -, hfbrd, hrate, hnow⟩ :=
    Uart.foldl_setBaud uartClock hruns₀ hnow₀ (Uart.fbrd_init uartClock boot) hbauds
  rw [← hnow₀] at hrate hnow
  have hlo : 64 ≤ u.ibrd * 64 + u.fbrd := hruns.now.1
  have hhi : u.ibrd * 64 + u.fbrd < 2 ^ 22 := hruns.now.2
  have hfrac : u.fbrd < 64 := hfbrd
  have hdefault : scaledBrd64 u₀.brd64 115200 = u₀.brd64 := scaledBrd64_uartBaud _
  have herror := Uart.scaledBrd64_error u₀.brd64 hrate
  refine ⟨hnow, fun h => (hnow.trans (congrArg _ h)).trans hdefault, by omega, by omega, hfrac, ?_⟩
  rwa [← hnow] at herror

theorem uart_rates_there_and_back :
    ([3000000, 921600, 115200].foldl (Uart.setBaud 24000000)
      (Uart.init 24000000 Link.sampleDivisor)).brd64 = 833 := by
  have hlast : Uart.lastRate 833 [3000000, 921600, 115200] = 115200 := by decide
  have hexact := uart_rates_exact 24000000 (by decide) (by decide) Link.sampleDivisor
    [3000000, 921600, 115200] (by decide)
  exact hexact.2.1 hlast

end Defib
