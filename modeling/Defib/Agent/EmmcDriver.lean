import Defib.Agent.Platform
import Defib.Framework.Mmio
import Defib.Wire.Packet

/-!
# The eMMC driver

`emmc_himci.c`, over the registers of a DesignWare MMC host: `emmc_init` brings the controller up and
identifies the card, `emmc_read_block` reads 512 bytes.  Every loop polls a register and counts down.
`busy_wait` touches no register and is left out.

`emmc_read_block` returns its code with the bytes that it has stored at `dst` by then.
-/

namespace Defib

namespace Himci

/-! ## Registers -/

/-- `emmc_reg`. -/
def emmcReg (off : ℕ) : ℕ := 0x10100000 + off
/-- `iocfg0_reg`. -/
def iocfg0Reg (idx : ℕ) : ℕ := 0x10ff0000 + idx * 4
/-- `crg_reg`. -/
def crgReg (off : ℕ) : ℕ := 0x12010000 + off

def dwCtrl : ℕ := emmcReg 0x000
def dwClkdiv : ℕ := emmcReg 0x008
def dwClksrc : ℕ := emmcReg 0x00c
def dwClkena : ℕ := emmcReg 0x010
def dwTmout : ℕ := emmcReg 0x014
def dwCtype : ℕ := emmcReg 0x018
def dwBlksiz : ℕ := emmcReg 0x01c
def dwBytcnt : ℕ := emmcReg 0x020
def dwIntmask : ℕ := emmcReg 0x024
def dwCmdarg : ℕ := emmcReg 0x028
def dwCmd : ℕ := emmcReg 0x02c
/-- `DW_RESP0` to `DW_RESP3`. -/
def dwResp (n : ℕ) : ℕ := emmcReg (0x030 + 4 * n)
def dwRintsts : ℕ := emmcReg 0x044
def dwStatus : ℕ := emmcReg 0x048
def dwFifoth : ℕ := emmcReg 0x04c
def dwTbbcnt : ℕ := emmcReg 0x060
def dwCardRstn : ℕ := emmcReg 0x078
def dwFifo : ℕ := emmcReg 0x200

/-- A register with one bit set. -/
def bit (n : ℕ) : BitVec 32 := 1#32 <<< n

def ctrlFifoReset : BitVec 32 := bit 1
def ctrlIntEnable : BitVec 32 := bit 4
/-- `CTRL_RESET_ALL`: controller, FIFO and DMA. -/
def ctrlResetAll : BitVec 32 := bit 0 ||| bit 1 ||| bit 2

def cmdStart : BitVec 32 := bit 31
def cmdUseHoldReg : BitVec 32 := bit 29
def cmdUpdateClkRegs : BitVec 32 := bit 21
def cmdSendInitialization : BitVec 32 := bit 15
def cmdWaitPrvdata : BitVec 32 := bit 13
def cmdDataExpected : BitVec 32 := bit 9
def cmdRespChkCrc : BitVec 32 := bit 8
def cmdRespLong : BitVec 32 := bit 7
def cmdRespExpected : BitVec 32 := bit 6
/-- `EMMC_FLAG_NO_CRC`, a flag of `emmc_send_cmd` in the place of `CMD_START`. -/
def emmcFlagNoCrc : BitVec 32 := bit 31

def rintstsCmdDone : BitVec 32 := bit 2
def rintstsDto : BitVec 32 := bit 3
def rintstsHle : BitVec 32 := bit 12
/-- `RINTSTS_ERROR_MASK`. -/
def rintstsErrorMask : BitVec 32 :=
  bit 8 ||| bit 1 ||| bit 6 ||| bit 7 ||| bit 9 ||| bit 13 ||| bit 15 ||| bit 12

def statusDataBusy : BitVec 32 := bit 9
/-- The count of the FIFO in a value of `DW_STATUS`. -/
def statusFifoCount (status : BitVec 32) : ℕ := (status >>> 17 &&& 0x1FFF#32).toNat

def ocrVoltageMask : BitVec 32 := 0x00FF8000#32
def ocrHcSector : BitVec 32 := 0x40000000#32
def ocrBusy : BitVec 32 := 0x80000000#32

/-! ## Commands -/

/-- The polls of one attempt of `emmc_update_clk`. -/
def updateClkTries : ℕ → Mmio Bool
  | 0 => pure false
  | tries + 1 => do
      let cmd ← Mmio.load dwCmd
      if cmd &&& cmdStart = 0 then pure true
      else
        let stat ← Mmio.load dwRintsts
        if stat &&& rintstsHle ≠ 0 then pure false else updateClkTries tries

/-- The attempts of `emmc_update_clk`. -/
def updateClkRetries : ℕ → Mmio ℤ
  | 0 => pure (-1)
  | retries + 1 => do
      Mmio.store dwCmd (cmdStart ||| cmdUseHoldReg ||| cmdUpdateClkRegs ||| cmdWaitPrvdata)
      let done ← updateClkTries 0xF00
      if done then pure 0 else updateClkRetries retries

/-- `emmc_update_clk`. -/
def emmcUpdateClk : Mmio ℤ := updateClkRetries 3

/-- The command word of `emmc_send_cmd`. -/
def commandWord (cmdIdx : ℕ) (flags : BitVec 32) : BitVec 32 :=
  cmdStart ||| cmdUseHoldReg ||| (BitVec.ofNat 32 cmdIdx &&& 0x3F#32) |||
    (flags &&& ~~~emmcFlagNoCrc) |||
    (if flags &&& cmdRespExpected ≠ 0 ∧ flags &&& emmcFlagNoCrc = 0 then cmdRespChkCrc else 0) |||
    (if flags &&& cmdDataExpected ≠ 0 then cmdWaitPrvdata else 0)

/-- The spin of `emmc_send_cmd`. -/
def awaitDone : ℕ → Mmio ℤ
  | 0 => pure (-1)
  | spin + 1 => do
      let stat ← Mmio.load dwRintsts
      if stat &&& rintstsErrorMask ≠ 0 then pure (-1)
      else if stat &&& rintstsCmdDone ≠ 0 then pure 0
      else awaitDone spin

/-- `emmc_send_cmd`. -/
def emmcSendCmd (cmdIdx : ℕ) (arg flags : BitVec 32) : Mmio ℤ := do
  Mmio.store dwRintsts 0xFFFFFFFF#32
  Mmio.store dwCmdarg arg
  Mmio.store dwCmd (commandWord cmdIdx flags)
  awaitDone 5000000

/-- A loop that polls while a bit is set, `spin` times more at most. -/
def spinWhile (addr : ℕ) (mask : BitVec 32) : ℕ → Mmio Unit
  | 0 => do
      let _ ← Mmio.load addr
      pure ()
  | spin + 1 => do
      let v ← Mmio.load addr
      if v &&& mask ≠ 0 then spinWhile addr mask spin else pure ()

/-! ## Bringing up -/

/-- `emmc_pinmux`. -/
def emmcPinmux : List (BitVec 32) :=
  [0x000006c0#32, 0x000006b0#32, 0x00000000#32, 0x000005f0#32, 0x000005f0#32, 0x000005e0#32,
    0x00000000#32]

/-- `emmc_pinmux_setup`. -/
def emmcPinmuxSetup : Mmio Unit :=
  emmcPinmux.zipIdx.forM fun p => Mmio.store (iocfg0Reg p.2) p.1

/-- `emmc_crg_setup`. -/
def emmcCrgSetup : Mmio Unit := do
  let v ← Mmio.load (crgReg 0x148)
  Mmio.store (crgReg 0x148) (v ||| 1#32)
  Mmio.store (crgReg 0x148) (v &&& ~~~0x0F#32 ||| 0x0E#32)

/-- `emmc_controller_reset`. -/
def emmcControllerReset : Mmio ℤ := do
  Mmio.store dwCtrl ctrlResetAll
  spinWhile dwCtrl ctrlResetAll 100000
  let ctrl ← Mmio.load dwCtrl
  if ctrl &&& ctrlResetAll ≠ 0 then pure (-1)
  else
    Mmio.store dwCmdarg 0
    Mmio.store dwRintsts 0xFFFFFFFF#32
    Mmio.store dwTbbcnt 0xFFFFFFFF#32
    Mmio.store dwCtrl ctrlIntEnable
    Mmio.store dwIntmask 0
    Mmio.store dwTmout 0xFFFFFF40#32
    Mmio.store dwBlksiz 0x200#32
    Mmio.store dwBytcnt 0x200#32
    Mmio.store dwFifoth (bit 28 ||| 0x7F#32 <<< 16)
    Mmio.store dwCtype 0
    pure 0

/-- `emmc_setup_clock`. -/
def emmcSetupClock (divider : BitVec 32) : Mmio ℤ := do
  Mmio.store dwClkena 0
  let r ← emmcUpdateClk
  if r < 0 then pure (-1)
  else
    Mmio.store dwClkdiv divider
    Mmio.store dwClksrc 0
    let r ← emmcUpdateClk
    if r < 0 then pure (-1)
    else
      Mmio.store dwClkena 1
      let r ← emmcUpdateClk
      if r < 0 then pure (-1) else pure 0

/-! ## Identifying the card -/

/-- The globals `emmc_capacity_bytes` and `emmc_cid`. -/
structure Globals where
  capacityBytes : ℕ
  cid : List UInt8
  deriving DecidableEq, Repr

/-- Before `emmc_init`. -/
def Globals.zero : Globals := ⟨0, List.replicate 16 0⟩

/-- The bytes of a word, the high one first. -/
def beBytes (w : BitVec 32) : List UInt8 :=
  [UInt8.ofBitVec (w.extractLsb' 24 8), UInt8.ofBitVec (w.extractLsb' 16 8),
    UInt8.ofBitVec (w.extractLsb' 8 8), UInt8.ofBitVec (w.extractLsb' 0 8)]

/-- `CMD0`, sent without `emmc_send_cmd`; `false` is the return of `-1`. -/
def goIdle : Mmio Bool := do
  Mmio.store dwRintsts 0xFFFFFFFF#32
  Mmio.store dwCmdarg 0
  Mmio.store dwCmd (cmdStart ||| cmdUseHoldReg ||| cmdSendInitialization)
  awaitIdle 5000000
  let stat ← Mmio.load dwRintsts
  pure (stat &&& rintstsCmdDone ≠ 0)
where
  /-- Its spin, which gives up before it polls. -/
  awaitIdle : ℕ → Mmio Unit
    | 0 => pure ()
    | spin + 1 => do
        let stat ← Mmio.load dwRintsts
        if stat &&& rintstsCmdDone = 0 then awaitIdle spin else pure ()

/-- The attempts of `CMD1`, with the OCR of the last one; `none` is the return of `-2`. -/
def sendOpCond (ocr : BitVec 32) : ℕ → Mmio (Option (BitVec 32))
  | 0 => pure (some ocr)
  | attempts + 1 => do
      let r ← emmcSendCmd 1 (ocrHcSector ||| ocrVoltageMask) (cmdRespExpected ||| emmcFlagNoCrc)
      if r < 0 then pure none
      else
        let ocr ← Mmio.load (dwResp 0)
        if ocr &&& ocrBusy ≠ 0 then pure (some ocr) else sendOpCond ocr attempts

/-- `emmc_rca`, in the place where commands take it. -/
def rcaArg : BitVec 32 := 0x0001#32 <<< 16

/-- `emmc_card_identify` from `CMD7` on. -/
def selectCard (g : Globals) : Mmio (ℤ × Globals) := do
  let r ← emmcSendCmd 7 rcaArg cmdRespExpected
  if r < 0 then pure (-7, g) else pure (0, g)

/-- `emmc_card_identify` from `CMD3` on. -/
def addressCard (hc : Bool) (g : Globals) : Mmio (ℤ × Globals) := do
  let r ← emmcSendCmd 3 rcaArg cmdRespExpected
  if r < 0 then pure (-5, g)
  else
    let r ← emmcSendCmd 9 rcaArg (cmdRespExpected ||| cmdRespLong ||| emmcFlagNoCrc)
    if r < 0 then pure (-6, g)
    else if hc then selectCard { g with capacityBytes := 0xFFFFFE00 }
    else
      let csd1 ← Mmio.load (dwResp 1)
      let csd2 ← Mmio.load (dwResp 2)
      selectCard { g with capacityBytes := emmcCapacityBytes ⟨false, csd1.toNat, csd2.toNat⟩ }

/-- `emmc_card_identify`. -/
def emmcCardIdentify (g : Globals) : Mmio (ℤ × Globals) := do
  let done ← goIdle
  if done = false then pure (-1, g)
  else
    let ocr ← sendOpCond 0 1000
    match ocr with
    | none => pure (-2, g)
    | some ocr =>
        if ocr &&& ocrBusy = 0 then pure (-3, g)
        else
          let r ← emmcSendCmd 2 0 (cmdRespExpected ||| cmdRespLong ||| emmcFlagNoCrc)
          if r < 0 then pure (-4, g)
          else
            let r0 ← Mmio.load (dwResp 0)
            let r1 ← Mmio.load (dwResp 1)
            let r2 ← Mmio.load (dwResp 2)
            let r3 ← Mmio.load (dwResp 3)
            addressCard (ocr &&& ocrHcSector ≠ 0)
              { g with cid := beBytes r3 ++ beBytes r2 ++ beBytes r1 ++ beBytes r0 }

/-- `emmc_init`. -/
def emmcInit (g : Globals) : Mmio (ℤ × Globals) := do
  emmcPinmuxSetup
  emmcCrgSetup
  let r ← emmcControllerReset
  if r < 0 then pure (-10, g)
  else
    let r ← emmcSetupClock 0x80#32
    if r < 0 then pure (-11, g)
    else
      Mmio.store dwCardRstn 0
      Mmio.store dwCardRstn 1
      emmcCardIdentify g

/-! ## Reading -/

/-- The bytes of a word, the low one first. -/
def leBytes (w : BitVec 32) : List UInt8 :=
  [UInt8.ofBitVec (w.extractLsb' 0 8), UInt8.ofBitVec (w.extractLsb' 8 8),
    UInt8.ofBitVec (w.extractLsb' 16 8), UInt8.ofBitVec (w.extractLsb' 24 8)]

/-- Some words of the FIFO, as they are stored at `dst`. -/
def fifoRead : ℕ → Mmio (List UInt8)
  | 0 => pure []
  | n + 1 => do
      let w ← Mmio.load dwFifo
      let bytes ← fifoRead n
      pure (leBytes w ++ bytes)

/-- The loop that drains the FIFO: whether it returns `-4`, the words left, and what it stored. -/
def drain : ℕ → ℕ → Mmio (Bool × ℕ × List UInt8)
  | 0, wordsLeft => pure (false, wordsLeft, [])
  | spin + 1, wordsLeft =>
      if wordsLeft = 0 then pure (false, 0, [])
      else do
        let status ← Mmio.load dwStatus
        if statusFifoCount status = 0 then
          let stat ← Mmio.load dwRintsts
          if stat &&& rintstsErrorMask ≠ 0 then pure (true, wordsLeft, [])
          else drain spin wordsLeft
        else
          let avail := min (statusFifoCount status) wordsLeft
          let bytes ← fifoRead avail
          let r ← drain spin (wordsLeft - avail)
          pure (r.1, r.2.1, bytes ++ r.2.2)

/-- The wait for the end of the transfer. -/
def awaitDto : ℕ → Mmio ℤ
  | 0 => pure (-7)
  | spin + 1 => do
      let stat ← Mmio.load dwRintsts
      if stat &&& rintstsErrorMask ≠ 0 then pure (-6)
      else if stat &&& rintstsDto ≠ 0 then pure 0
      else awaitDto spin

/-- `emmc_read_block` from `CMD17` on. -/
def transferBlock (blockNo : BitVec 32) : Mmio (ℤ × List UInt8) := do
  let r ← emmcSendCmd 17 blockNo (cmdRespExpected ||| cmdDataExpected)
  if r < 0 then pure (-3, [])
  else
    let drained ← drain 50000000 128
    if drained.1 then pure (-4, drained.2.2)
    else if drained.2.1 ≠ 0 then pure (-5, drained.2.2)
    else
      let code ← awaitDto 5000000
      pure (code, drained.2.2)

/-- `emmc_read_block`. -/
def emmcReadBlock (g : Globals) (blockNo : BitVec 32) : Mmio (ℤ × List UInt8) :=
  if g.capacityBytes = 0 then pure (-1, [])
  else do
    spinWhile dwStatus statusDataBusy 5000000
    let status ← Mmio.load dwStatus
    if status &&& statusDataBusy ≠ 0 then pure (-2, [])
    else
      let ctrl ← Mmio.load dwCtrl
      Mmio.store dwCtrl (ctrl ||| ctrlFifoReset)
      spinWhile dwCtrl ctrlFifoReset 100000
      Mmio.store dwBlksiz 0x200#32
      Mmio.store dwBytcnt 0x200#32
      Mmio.store dwRintsts 0xFFFFFFFF#32
      transferBlock blockNo

/-- The calls that the agent makes: `emmc_init` before its loop, and a block at a time after it. -/
def emmcSession (blocks : List (BitVec 32)) : Mmio (ℤ × Globals × List (ℤ × List UInt8)) := do
  let r ← emmcInit Globals.zero
  let answers ← blocks.mapM (emmcReadBlock r.2)
  pure (r.1, r.2, answers)

end Himci

end Defib
