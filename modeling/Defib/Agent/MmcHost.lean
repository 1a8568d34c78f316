import Defib.Agent.EmmcDriver
import Defib.Agent.FlashDriver

/-!
# A DesignWare MMC host with a card

What `emmc_himci.c` talks to: a controller whose flags take a while, a FIFO that fills as the card
delivers, and a card that is identified command by command.  `host` is the device: it answers a poll
in any way that its `Waits` still allow, and a chip is in time when these are within what the driver
waits for.
-/

namespace Defib

/-- How many polls the controller may leave unanswered: after a reset, after a command is handed
over, until it is done, while the card is busy, and for the data of a block. -/
structure Waits where
  reset : ℕ
  start : ℕ
  done : ℕ
  busy : ℕ
  data : ℕ
  deriving DecidableEq, Repr

/-- A controller and a card that are in time for the driver. -/
structure MmcChip where
  cells : Store UInt8
  highCapacity : Bool
  /-- The words of the registers CID and CSD, the low one first. -/
  cid : ℕ → BitVec 32
  csd : ℕ → BitVec 32
  /-- The commands `CMD1` that find the card still powering up. -/
  powerUp : ℕ
  /-- The arguments of `CMD17` with which a read fails. -/
  fails : ℕ → Bool
  waits : Waits
  powerUp_lt : powerUp < 1000
  reset_le : waits.reset ≤ 100000
  start_lt : waits.start < 0xF00
  done_lt : waits.done < 5000000
  busy_le : waits.busy ≤ 5000000
  data_lt : waits.data < 5000000

/-- Where a card is in its identification. -/
inductive CardPhase
  | idle
  | ready
  | ident
  | standby
  | transfer
  deriving DecidableEq, Repr

/-- What has become of the last command since `DW_RINTSTS` was cleared. -/
inductive CmdOutcome
  | pending
  | answered
  | failed
  deriving DecidableEq, Repr

/-- The state of controller and card. -/
structure MmcHost where
  phase : CardPhase
  /-- Attempts of `CMD1` that the card still needs. -/
  powerUp : ℕ
  /-- The address that `CMD3` has assigned. -/
  rca : BitVec 32
  waits : Waits
  arg : BitVec 32
  blksiz : BitVec 32
  bytcnt : BitVec 32
  resp : ℕ → BitVec 32
  outcome : CmdOutcome
  /-- The last command transfers data. -/
  transfers : Bool
  /-- The words of a transfer that are not read yet, and how many of them the FIFO holds. -/
  words : List (BitVec 32)
  arrived : ℕ

/-- A flag that is polled: it may be pending as long as its wait lasts, and once it is not, it stays
so. -/
def Polled (pending : Prop) (wait wait' : ℕ) : Prop :=
  (pending ∧ 0 < wait ∧ wait' = wait - 1) ∨ (¬ pending ∧ wait' = 0)

open Himci

namespace MmcChip

variable (chip : MmcChip)

/-- What the driver learns of the card. -/
def card : EmmcCard := ⟨chip.highCapacity, (chip.csd 1).toNat, (chip.csd 2).toNat⟩

/-- Where a read begins: a high-capacity card counts blocks, any other card bytes. -/
def readAddr (arg : ℕ) : ℕ := if chip.highCapacity then 512 * arg else arg

/-- The word that the FIFO makes of four cells. -/
def cellWord (addr : ℕ) : BitVec 32 :=
  (chip.cells (addr + 3)).toBitVec ++ (chip.cells (addr + 2)).toBitVec ++
    (chip.cells (addr + 1)).toBitVec ++ (chip.cells addr).toBitVec

/-- The words of a block. -/
def blockWords (arg : ℕ) : List (BitVec 32) :=
  (List.range 128).map fun i => chip.cellWord (chip.readAddr arg + 4 * i)

/-- The OCR that `CMD1` is answered with. -/
def ocr (powerUp : ℕ) : BitVec 32 :=
  ocrVoltageMask ||| (if chip.highCapacity then ocrHcSector else 0) |||
    (if powerUp = 0 then ocrBusy else 0)

/-- A command is taken: nothing is left of the one before. -/
def accept (h : MmcHost) : MmcHost :=
  { h with
      outcome := .answered
      transfers := false
      words := []
      arrived := 0
      waits := { chip.waits with reset := h.waits.reset, start := h.waits.start } }

/-- What the card answers, in `RESP0` to `RESP3` and by the transfer that begins; a command out of
turn is not answered. -/
def answer (h : MmcHost) (cmd : BitVec 32) : MmcHost :=
  let refused := { h with outcome := .failed }
  match (cmd &&& 0x3F).toNat with
  | 1 =>
      if h.phase = .idle then
        { h with
            resp := fun _ => chip.ocr h.powerUp
            phase := if h.powerUp = 0 then .ready else .idle
            powerUp := h.powerUp - 1 }
      else refused
  | 2 =>
      if h.phase = .ready ∧ cmd &&& cmdRespLong ≠ 0 then
        { h with resp := chip.cid, phase := .ident }
      else refused
  | 3 => if h.phase = .ident then { h with rca := h.arg, phase := .standby } else refused
  | 9 =>
      if h.phase = .standby ∧ h.arg = h.rca ∧ cmd &&& cmdRespLong ≠ 0 then
        { h with resp := chip.csd }
      else refused
  | 7 =>
      if h.phase = .standby ∧ h.arg = h.rca then { h with phase := .transfer } else refused
  | 17 =>
      if h.phase = .transfer ∧ cmd &&& cmdDataExpected ≠ 0 ∧ h.blksiz = 0x200 ∧
          h.bytcnt = 0x200 then
        if chip.fails h.arg.toNat then { h with outcome := .failed, transfers := true }
        else { h with transfers := true, words := chip.blockWords h.arg.toNat }
      else refused
  | _ => refused

/-- A command, whose index and flags are in the word written to `DW_CMD`. -/
def exec (h : MmcHost) (cmd : BitVec 32) : MmcHost :=
  let h := chip.accept h
  if cmd &&& 0x3F = 0 then { h with phase := .idle, powerUp := chip.powerUp }
  else if cmd &&& cmdRespExpected = 0 then { h with outcome := .failed }
  else chip.answer h cmd

/-- A store to a register. -/
def store (h : MmcHost) (addr : ℕ) (v : BitVec 32) : MmcHost :=
  if addr = dwCtrl then
    let h := { h with waits := { h.waits with reset := chip.waits.reset } }
    if v &&& ctrlFifoReset ≠ 0 then { h with transfers := false, words := [], arrived := 0 } else h
  else if addr = dwRintsts then { h with outcome := .pending }
  else if addr = dwCmdarg then { h with arg := v }
  else if addr = dwBlksiz then { h with blksiz := v }
  else if addr = dwBytcnt then { h with bytcnt := v }
  else if addr = dwCmd then
    if v &&& cmdUpdateClkRegs ≠ 0 then
      { h with waits := { h.waits with start := chip.waits.start } }
    else chip.exec h v
  else h

end MmcChip

namespace MmcHost

/-- `DW_RINTSTS`: an error, or the command is done at some time, and its data is over some time after
the last word is read. -/
def LoadRintsts (h : MmcHost) (v : BitVec 32) (h' : MmcHost) : Prop :=
  match h.outcome with
  | .pending => v &&& rintstsErrorMask = 0 ∧ h' = h
  | .answered =>
      v &&& rintstsErrorMask = 0 ∧ ∃ done data,
        Polled (v &&& rintstsCmdDone = 0) h.waits.done done ∧
        (if h.transfers ∧ h.words = [] then Polled (v &&& rintstsDto = 0) h.waits.data data
          else data = h.waits.data) ∧
        h' = { h with waits := { h.waits with done := done, data := data } }
  | .failed =>
      (v &&& rintstsErrorMask ≠ 0 ∧ h' = h) ∨
        (v &&& rintstsErrorMask = 0 ∧ v &&& rintstsDto = 0 ∧ 0 < h.waits.data ∧
          h' = { h with waits := { h.waits with data := h.waits.data - 1 } })

/-- `DW_STATUS`: whether the card is busy, and what the FIFO holds. -/
def LoadStatus (h : MmcHost) (v : BitVec 32) (h' : MmcHost) : Prop :=
  ∃ busy, Polled (v &&& statusDataBusy ≠ 0) h.waits.busy busy ∧
    if h.outcome = .failed then h' = { h with waits := { h.waits with busy := busy } }
    else
      h.arrived ≤ statusFifoCount v ∧ statusFifoCount v ≤ h.words.length ∧ ∃ data,
        (if statusFifoCount v = 0 ∧ h.words ≠ [] then 0 < h.waits.data ∧ data = h.waits.data - 1
          else data = h.waits.data) ∧
        h' = { h with
                waits := { h.waits with busy := busy, data := data }
                arrived := statusFifoCount v }

/-- `DW_FIFO`: the next word, if it has arrived; an empty FIFO yields anything. -/
def LoadFifo (h : MmcHost) (v : BitVec 32) (h' : MmcHost) : Prop :=
  if h.arrived = 0 then h' = h
  else h.words.head? = some v ∧ h' = { h with words := h.words.tail, arrived := h.arrived - 1 }

/-- A load of a register. -/
def Load (h : MmcHost) (addr : ℕ) (v : BitVec 32) (h' : MmcHost) : Prop :=
  if addr = dwCtrl then
    ∃ reset, Polled (v &&& ctrlResetAll ≠ 0) h.waits.reset reset ∧
      h' = { h with waits := { h.waits with reset := reset } }
  else if addr = dwCmd then
    ∃ start, Polled (v &&& cmdStart ≠ 0) h.waits.start start ∧
      h' = { h with waits := { h.waits with start := start } }
  else if addr = dwRintsts then h.LoadRintsts v h'
  else if addr = dwStatus then h.LoadStatus v h'
  else if addr = dwFifo then h.LoadFifo v h'
  else if addr = dwResp 0 then v = h.resp 0 ∧ h' = h
  else if addr = dwResp 1 then v = h.resp 1 ∧ h' = h
  else if addr = dwResp 2 then v = h.resp 2 ∧ h' = h
  else if addr = dwResp 3 then v = h.resp 3 ∧ h' = h
  else h' = h

end MmcHost

/-- The device. -/
def MmcChip.host (chip : MmcChip) : Bus MmcHost := ⟨MmcHost.Load, chip.store⟩

end Defib
