import Bk7251.Lib.BitField

/-!
# The general DMA

`driver/general_dma/general_dma.c` as built for BK7221U: the functions on the registers, and `gdma_ctrl` over them.
Each channel has a block of eight words; the counts, the pause addresses and the running addresses of all channels
stand in tables of one word a channel.
-/
namespace Bk7251.Dma

open Lib

/-- `UINT32` -/
abbrev Word := BitVec 32

/-- The words of the peripheral, by their addresses. -/
abbrev Regs := Word → Word

def GENER_DMA_BASE : Word := 0x00809000
def GENER_DMA0_REG0_CONF : Word := GENER_DMA_BASE + 0x00 * 4
def GENER_DMA0_REG1_DST_START_ADDR : Word := GENER_DMA_BASE + 0x01 * 4
def GENER_DMA0_REG2_SRC_START_ADDR : Word := GENER_DMA_BASE + 0x02 * 4
def GENER_DMA0_REG3_DSTLOOP_END_ADDR : Word := GENER_DMA_BASE + 0x03 * 4
def GENER_DMA0_REG4_DSTLOOP_START_ADDR : Word := GENER_DMA_BASE + 0x04 * 4
def GENER_DMA0_REG5_SRCLOOP_END_ADDR : Word := GENER_DMA_BASE + 0x05 * 4
def GENER_DMA0_REG6_SRCLOOP_START_ADDR : Word := GENER_DMA_BASE + 0x06 * 4
def GENER_DMA0_REG7_MUX_REQS : Word := GENER_DMA_BASE + 0x07 * 4
def GENER_DMA0_REG30_INT_CNTS : Word := GENER_DMA_BASE + 0x30 * 4
def GENER_DMA_REG37_PRIO_MODE : Word := GENER_DMA_BASE + 0x37 * 4
def GENER_DMA_REG38_DMA_INT_STATUS : Word := GENER_DMA_BASE + 0x38 * 4
def GENER_DMA0_REG40_SRC_PAUSE_ADDR : Word := GENER_DMA_BASE + 0x40 * 4
def GENER_DMA0_REG48_DST_PAUSE_ADDR : Word := GENER_DMA_BASE + 0x48 * 4
def GENER_DMA0_REG50_SRC_RD_ADDR : Word := GENER_DMA_BASE + 0x50 * 4
def GENER_DMA0_REG58_DST_WR_ADDR : Word := GENER_DMA_BASE + 0x58 * 4

def GDMA_X_DMA_EN : Word := 1#32 <<< 0
def GDMA_X_FIN_INTEN : Word := 1#32 <<< 1
def GDMA_X_HFIN_INTEN : Word := 1#32 <<< 2
def GDMA_X_REPEAT_MODE : Word := 1#32 <<< 3
def GDMA_X_SRCDATA_WIDTH_POSI : Nat := 4
def GDMA_X_SRCDATA_WIDTH_MASK : Word := 0x3
def GDMA_X_DSTDATA_WIDTH_POSI : Nat := 6
def GDMA_X_DSTDATA_WIDTH_MASK : Word := 0x3
def GDMA_DATA_WIDTH_8BIT : Word := 0x0
def GDMA_DATA_WIDTH_16BIT : Word := 0x1
def GDMA_DATA_WIDTH_32BIT : Word := 0x2
def GDMA_X_SRCADDR_INC : Word := 1#32 <<< 8
def GDMA_X_DSTADDR_INC : Word := 1#32 <<< 9
def GDMA_X_SRCADDR_LOOP : Word := 1#32 <<< 10
def GDMA_X_DSTADDR_LOOP : Word := 1#32 <<< 11
def GDMA_X_CHNL_PRIO_POSI : Nat := 12
def GDMA_X_CHNL_PRIO_MASK : Word := 0x3
def GDMA_X_TRANS_LEN_POSI : Nat := 16
def GDMA_X_TRANS_LEN_MASK : Word := 0xffff
def GDMA_X_SRC_REQ_POSI : Nat := 0
def GDMA_X_SRC_REQ_MASK : Word := 0xf
def GDMA_X_DST_REQ_POSI : Nat := 4
def GDMA_X_DST_REQ_MASK : Word := 0xf
def GDMA_X_DTCM_WR_WAIT_WORD : Word := 1#32 <<< 8
def GDMA_X_REMAIN_LEN_POSI : Nat := 0
def GDMA_X_REMAIN_LEN_MASK : Word := 0x1ffff
def GDMA_X_FIN_CNT_POSI : Nat := 24
def GDMA_X_FIN_CNT_MASK : Word := 0xf
def GDMA_X_HFIN_CNT_POSI : Nat := 28
def GDMA_X_HFIN_CNT_MASK : Word := 0xf
def GDMA_PRIO_FIXED : Word := 1#32 <<< 0
def GENER_DMA_FIN_INT_STATUS_MASK : Word := 0x3f
def GENER_DMA_HFIN_INT_STATUS_POSI : Nat := 8
def GENER_DMA_HFIN_INT_STATUS_MASK : Word := 0x3f

def GDMA_CHANNEL_MAX : Word := 6

def ICU_SUCCESS : Word := 0

/-! ### Single fields -/

section

variable (regs : Regs)

/-- `REG_WRITE`. In the interrupt status a 1 clears its bit, as `gdma_flush` and `gdma_isr` have it. -/
def regWrite (addr data : Word) : Regs :=
  Function.update regs addr (if addr = GENER_DMA_REG38_DMA_INT_STATUS then regs addr &&& ~~~data else data)

/-- The body of the functions that switch one bit. -/
def switchBit (regAddr bit enable : Word) : Regs :=
  let regVal := regs regAddr
  let regVal := if enable ≠ 0 then regVal ||| bit else regVal &&& ~~~bit
  regWrite regs regAddr regVal

/-- The body of the functions that store a number in some bits. -/
def insertBits (regAddr mask : Word) (posi : Nat) (value : Word) : Regs :=
  let regVal := regs regAddr
  let regVal := regVal &&& ~~~(mask <<< posi)
  let regVal := regVal ||| ((value &&& mask) <<< posi)
  regWrite regs regAddr regVal

/-- What the `switch` on a data width stores. -/
def widthCode (bitwidth : Word) : Word :=
  if bitwidth = 8 then GDMA_DATA_WIDTH_8BIT
  else if bitwidth = 16 then GDMA_DATA_WIDTH_16BIT
  else GDMA_DATA_WIDTH_32BIT

/-- The body of the functions for the data widths. -/
def cfgDataWidth (regAddr mask : Word) (posi : Nat) (bitwidth : Word) : Regs :=
  let regVal := regs regAddr
  let regVal := regVal &&& ~~~(mask <<< posi)
  let regVal := regVal ||| (widthCode bitwidth <<< posi)
  regWrite regs regAddr regVal

variable (channel : Word)

def gdmaSetDmaEn (enable : Word) : Regs :=
  switchBit regs (GENER_DMA0_REG0_CONF + channel * 8 * 4) GDMA_X_DMA_EN enable

def gdmaCfgFinishInten (enable : Word) : Regs :=
  switchBit regs (GENER_DMA0_REG0_CONF + channel * 8 * 4) GDMA_X_FIN_INTEN enable

def gdmaCfgHalfFinInten (enable : Word) : Regs :=
  switchBit regs (GENER_DMA0_REG0_CONF + channel * 8 * 4) GDMA_X_HFIN_INTEN enable

def gdmaCfgWorkMode («repeat» : Word) : Regs :=
  switchBit regs (GENER_DMA0_REG0_CONF + channel * 8 * 4) GDMA_X_REPEAT_MODE «repeat»

def gdmaCfgSrcdataWidth (bitwidth : Word) : Regs :=
  cfgDataWidth regs (GENER_DMA0_REG0_CONF + channel * 8 * 4) GDMA_X_SRCDATA_WIDTH_MASK
    GDMA_X_SRCDATA_WIDTH_POSI bitwidth

def gdmaCfgDstdataWidth (bitwidth : Word) : Regs :=
  cfgDataWidth regs (GENER_DMA0_REG0_CONF + channel * 8 * 4) GDMA_X_DSTDATA_WIDTH_MASK
    GDMA_X_DSTDATA_WIDTH_POSI bitwidth

def gdmaCfgSrcaddrIncrease (incr : Word) : Regs :=
  switchBit regs (GENER_DMA0_REG0_CONF + channel * 8 * 4) GDMA_X_SRCADDR_INC incr

def gdmaCfgDstaddrIncrease (incr : Word) : Regs :=
  switchBit regs (GENER_DMA0_REG0_CONF + channel * 8 * 4) GDMA_X_DSTADDR_INC incr

def gdmaCfgSrcaddrLoop (loop : Word) : Regs :=
  switchBit regs (GENER_DMA0_REG0_CONF + channel * 8 * 4) GDMA_X_SRCADDR_LOOP loop

def gdmaCfgDstaddrLoop (loop : Word) : Regs :=
  switchBit regs (GENER_DMA0_REG0_CONF + channel * 8 * 4) GDMA_X_DSTADDR_LOOP loop

def gdmaSetChannelPrioprity (prio : Word) : Regs :=
  insertBits regs (GENER_DMA0_REG0_CONF + channel * 8 * 4) GDMA_X_CHNL_PRIO_MASK GDMA_X_CHNL_PRIO_POSI prio

def gdmaSetTransferLength (len : Word) : Regs :=
  insertBits regs (GENER_DMA0_REG0_CONF + channel * 8 * 4) GDMA_X_TRANS_LEN_MASK GDMA_X_TRANS_LEN_POSI (len - 1)

def gdmaSetDstStartAddr (dstptr : Word) : Regs :=
  regWrite regs (GENER_DMA0_REG1_DST_START_ADDR + channel * 8 * 4) dstptr

def gdmaSetSrcStartAddr (srcptr : Word) : Regs :=
  regWrite regs (GENER_DMA0_REG2_SRC_START_ADDR + channel * 8 * 4) srcptr

def gdmaSetDstloopEndaddr (dendptr : Word) : Regs :=
  regWrite regs (GENER_DMA0_REG3_DSTLOOP_END_ADDR + channel * 8 * 4) dendptr

def gdmaSetDstloopStartaddr (dstartptr : Word) : Regs :=
  regWrite regs (GENER_DMA0_REG4_DSTLOOP_START_ADDR + channel * 8 * 4) dstartptr

def gdmaSetSrcloopEndaddr (sendptr : Word) : Regs :=
  regWrite regs (GENER_DMA0_REG5_SRCLOOP_END_ADDR + channel * 8 * 4) sendptr

def gdmaSetSrcloopStartaddr (sstartptr : Word) : Regs :=
  regWrite regs (GENER_DMA0_REG6_SRCLOOP_START_ADDR + channel * 8 * 4) sstartptr

def gdmaSetSrcReqmux (reqmux : Word) : Regs :=
  insertBits regs (GENER_DMA0_REG7_MUX_REQS + channel * 8 * 4) GDMA_X_SRC_REQ_MASK GDMA_X_SRC_REQ_POSI reqmux

def gdmaSetDstReqmux (reqmux : Word) : Regs :=
  insertBits regs (GENER_DMA0_REG7_MUX_REQS + channel * 8 * 4) GDMA_X_DST_REQ_MASK GDMA_X_DST_REQ_POSI reqmux

def gdmaSetDctmWriteWd (read4byte : Word) : Regs :=
  switchBit regs (GENER_DMA0_REG7_MUX_REQS + channel * 8 * 4) GDMA_X_DTCM_WR_WAIT_WORD read4byte

def gdmaSetPriority (fixed : Word) : Regs :=
  switchBit regs GENER_DMA_REG37_PRIO_MODE GDMA_PRIO_FIXED fixed

def gdmaSetSrcPauseAddr (addr : Word) : Regs :=
  regWrite regs (GENER_DMA0_REG40_SRC_PAUSE_ADDR + channel * 4) addr

def gdmaSetDestPauseAddr (addr : Word) : Regs :=
  regWrite regs (GENER_DMA0_REG48_DST_PAUSE_ADDR + channel * 4) addr

def gdmaClrFinishInterruptBit : Regs := regWrite regs GENER_DMA_REG38_DMA_INT_STATUS (1#32 <<< channel)

def gdmaClrHalfFinishInterruptBit : Regs :=
  regWrite regs GENER_DMA_REG38_DMA_INT_STATUS
    (1#32 <<< (channel + BitVec.ofNat 32 GENER_DMA_HFIN_INT_STATUS_POSI))

/-! ### What is read -/

def gdmaGetRemainLen : Word :=
  (regs (GENER_DMA0_REG30_INT_CNTS + channel * 4) >>> GDMA_X_REMAIN_LEN_POSI) &&& GDMA_X_REMAIN_LEN_MASK

def gdmaGetFinishCnt : Word :=
  (regs (GENER_DMA0_REG30_INT_CNTS + channel * 4) >>> GDMA_X_FIN_CNT_POSI) &&& GDMA_X_FIN_CNT_MASK

def gdmaGetHalfFinishCnt : Word :=
  (regs (GENER_DMA0_REG30_INT_CNTS + channel * 4) >>> GDMA_X_HFIN_CNT_POSI) &&& GDMA_X_HFIN_CNT_MASK

def gdmaGetFinishInterruptBit : Word :=
  let regVal := regs GENER_DMA_REG38_DMA_INT_STATUS
  let regVal := regVal &&& GENER_DMA_FIN_INT_STATUS_MASK
  let regVal := regVal &&& (1#32 <<< channel)
  regVal >>> channel

def gdmaGetHalfFinishInterruptBit : Word :=
  let posi := channel + BitVec.ofNat 32 GENER_DMA_HFIN_INT_STATUS_POSI
  let regVal := regs GENER_DMA_REG38_DMA_INT_STATUS
  let regVal := regVal &&& (GENER_DMA_HFIN_INT_STATUS_MASK <<< GENER_DMA_HFIN_INT_STATUS_POSI)
  let regVal := regVal &&& (1#32 <<< posi)
  regVal >>> posi

def gdmaGetSrcPauseAddr : Word := regs (GENER_DMA0_REG40_SRC_PAUSE_ADDR + channel * 4)

def gdmaGetSrcReadAddr : Word := regs (GENER_DMA0_REG50_SRC_RD_ADDR + channel * 4)

def gdmaGetDestWriteAddr : Word := regs (GENER_DMA0_REG58_DST_WR_ADDR + channel * 4)

def gdmaGetReceivedLen : Word :=
  if channel ≥ GDMA_CHANNEL_MAX then 0 else gdmaGetRemainLen regs channel

end

/-! ### Channels -/

/-- `GDMACFG_TPYES_ST`. `u0` to `u3` are the words of the union `u`: the types with one loop have its start and its
end in the first two, type 3 has those of the source in front of those of the destination. -/
structure GdmaCfgTypes where
  channel : Word
  prio : Word
  dstptrIncr : BitVec 8
  srcptrIncr : BitVec 8
  dstdatWidth : BitVec 8
  srcdatWidth : BitVec 8
  srcStartAddr : Word
  dstStartAddr : Word
  srcModule : BitVec 8
  dstModule : BitVec 8
  finHandler : Word
  halfFinHandler : Word
  u0 : Word
  u1 : Word
  u2 : Word
  u3 : Word

/-- The registers, and the tables of handlers by channel. -/
structure Gdma where
  regs : Regs
  pDmaFinHandler : Word → Word
  pDmaHfinHandler : Word → Word

section

variable (regs : Regs) (cfg : GdmaCfgTypes)

/-- What all the types do after the increments. -/
def cfgWidths : Regs :=
  let regs := gdmaCfgSrcdataWidth regs cfg.channel (cfg.srcdatWidth.setWidth 32)
  let regs := gdmaCfgDstdataWidth regs cfg.channel (cfg.dstdatWidth.setWidth 32)
  let regs := gdmaSetChannelPrioprity regs cfg.channel cfg.prio
  let regs := gdmaSetDstStartAddr regs cfg.channel cfg.dstStartAddr
  gdmaSetSrcStartAddr regs cfg.channel cfg.srcStartAddr

/-- What types 0 to 3 do in the same order. -/
def cfgMemory : Regs :=
  let regs := gdmaCfgSrcaddrIncrease regs cfg.channel (cfg.srcptrIncr.setWidth 32)
  let regs := gdmaCfgDstaddrIncrease regs cfg.channel (cfg.dstptrIncr.setWidth 32)
  cfgWidths regs cfg

def gdmaCongfigType0 : Regs :=
  if cfg.channel ≥ GDMA_CHANNEL_MAX then regs
  else
    let regs := regWrite regs (GENER_DMA0_REG0_CONF + cfg.channel * 8 * 4) 0
    cfgMemory regs cfg

def gdmaCongfigType1 : Regs :=
  if cfg.channel ≥ GDMA_CHANNEL_MAX then regs
  else
    let regs := regWrite regs (GENER_DMA0_REG0_CONF + cfg.channel * 8 * 4) 0
    let regs := gdmaCfgSrcaddrLoop regs cfg.channel 1
    let regs := cfgMemory regs cfg
    let regs := gdmaSetSrcloopStartaddr regs cfg.channel cfg.u0
    gdmaSetSrcloopEndaddr regs cfg.channel cfg.u1

def gdmaCongfigType2 : Regs :=
  if cfg.channel ≥ GDMA_CHANNEL_MAX then regs
  else
    let regs := regWrite regs (GENER_DMA0_REG0_CONF + cfg.channel * 8 * 4) 0
    let regs := gdmaCfgDstaddrLoop regs cfg.channel 1
    let regs := cfgMemory regs cfg
    let regs := gdmaSetDstloopStartaddr regs cfg.channel cfg.u0
    gdmaSetDstloopEndaddr regs cfg.channel cfg.u1

def gdmaCongfigType3 : Regs :=
  if cfg.channel ≥ GDMA_CHANNEL_MAX then regs
  else
    let regs := regWrite regs (GENER_DMA0_REG0_CONF + cfg.channel * 8 * 4) 0
    let regs := gdmaCfgSrcaddrLoop regs cfg.channel 1
    let regs := gdmaCfgDstaddrLoop regs cfg.channel 1
    let regs := cfgMemory regs cfg
    let regs := gdmaSetSrcloopStartaddr regs cfg.channel cfg.u0
    let regs := gdmaSetSrcloopEndaddr regs cfg.channel cfg.u1
    let regs := gdmaSetDstloopStartaddr regs cfg.channel cfg.u2
    gdmaSetDstloopEndaddr regs cfg.channel cfg.u3

/-- How types 4 and 5 begin. -/
def cfgModules : Regs :=
  let regs := regWrite regs (GENER_DMA0_REG0_CONF + cfg.channel * 8 * 4) 0
  let regs := gdmaSetSrcReqmux regs cfg.channel (cfg.srcModule.setWidth 32)
  let regs := gdmaSetDstReqmux regs cfg.channel (cfg.dstModule.setWidth 32)
  gdmaCfgWorkMode regs cfg.channel 1

end

/-- How types 4 and 5 end. -/
def cfgHandlers (s : Gdma) (cfg : GdmaCfgTypes) : Gdma :=
  let s :=
    if cfg.finHandler ≠ 0 then
      { s with
        regs := gdmaCfgFinishInten s.regs cfg.channel 1
        pDmaFinHandler := Function.update s.pDmaFinHandler cfg.channel cfg.finHandler }
    else s
  if cfg.halfFinHandler ≠ 0 then
    { s with
      regs := gdmaCfgHalfFinInten s.regs cfg.channel 1
      pDmaHfinHandler := Function.update s.pDmaHfinHandler cfg.channel cfg.halfFinHandler }
  else s

/-- From memory to the FIFO of a module. -/
def gdmaCongfigType4 (s : Gdma) (cfg : GdmaCfgTypes) : Gdma :=
  if cfg.channel ≥ GDMA_CHANNEL_MAX then s
  else
    let regs := cfgModules s.regs cfg
    let regs := gdmaCfgSrcaddrLoop regs cfg.channel 1
    let regs := gdmaCfgDstaddrIncrease regs cfg.channel 0
    let regs := gdmaCfgSrcaddrIncrease regs cfg.channel (cfg.srcptrIncr.setWidth 32)
    let regs := cfgWidths regs cfg
    let regs := gdmaSetSrcloopStartaddr regs cfg.channel cfg.u0
    let regs := gdmaSetSrcloopEndaddr regs cfg.channel cfg.u1
    cfgHandlers { s with regs } cfg

/-- From the FIFO of a module to memory. -/
def gdmaCongfigType5 (s : Gdma) (cfg : GdmaCfgTypes) : Gdma :=
  if cfg.channel ≥ GDMA_CHANNEL_MAX then s
  else
    let regs := cfgModules s.regs cfg
    let regs := gdmaCfgDstaddrLoop regs cfg.channel 1
    let regs := gdmaCfgSrcaddrIncrease regs cfg.channel 0
    let regs := gdmaCfgDstaddrIncrease regs cfg.channel (cfg.dstptrIncr.setWidth 32)
    let regs := cfgWidths regs cfg
    let regs := gdmaSetDstloopStartaddr regs cfg.channel cfg.u0
    let regs := gdmaSetDstloopEndaddr regs cfg.channel cfg.u1
    cfgHandlers { s with regs } cfg

/-! ### Commands -/

/-- `GDMA_CFG_ST` -/
structure GdmaCfg where
  param : Word
  channel : Word

/-- The commands whose `param` is a `GDMA_CFG_ST`. -/
inductive CfgCmd
  | setDmaEnable | cfgFinIntEnable | cfgHfinIntEnable | cfgWorkMode | cfgSrcdataWidth | cfgDstdataWidth
  | cfgSrcaddrIncrease | cfgDstaddrIncrease | cfgSrcaddrLoop | cfgDstaddrLoop | setChnlPrio | setTransLength
  | setDstStartAddr | setSrcStartAddr | setDstLoopEndaddr | setDstLoopStartaddr | setSrcLoopEndaddr
  | setSrcLoopStartaddr | setDstReqMux | setSrcReqMux | setDtcmWriteWord | getRemainLength | setHfinCnt
  | setPrioMode | getFinIntStatus | clrFinIntStatus | getHfinIntStatus | clrHfinIntStatus | setSrcPauseAddr
  | getSrcPauseAddr | setDstPauseAddr | getDstPauseAddr | getSrcReadAddr | getDstWriteAddr

/-- The commands whose `param` is a `GDMACFG_TPYES_ST`. -/
inductive TypeCmd
  | cfgType0 | cfgType1 | cfgType2 | cfgType3 | cfgType4 | cfgType5 | cfgType6

/-- The commands whose `param` is a channel. -/
inductive ChannelCmd
  | setFinCnt | getLeftLen

/-- A call of `gdma_ctrl`, by what `param` is; `other` is a number that is no command. `CMD_GDMA_ENABLE` is not one
of them. -/
inductive Command
  | withCfg (cmd : CfgCmd) (dmaCfg : GdmaCfg)
  | withTypes (cmd : TypeCmd) (cfg : GdmaCfgTypes)
  | withChannel (cmd : ChannelCmd) (channel : Word)
  | other

/-- `param` is `NULL`: no structure has that address, but a channel may be 0. -/
def Command.isNull : Command → Bool
  | .withChannel _ channel => channel = 0
  | _ => false

section

variable (s : Gdma)

def ctrlCfg (cmd : CfgCmd) (dmaCfg : GdmaCfg) : Gdma × Word :=
  let stored (regs : Regs) : Gdma × Word := ({ s with regs }, ICU_SUCCESS)
  match cmd with
  | .setDmaEnable => stored (gdmaSetDmaEn s.regs dmaCfg.channel dmaCfg.param)
  | .cfgFinIntEnable => stored (gdmaCfgFinishInten s.regs dmaCfg.channel dmaCfg.param)
  | .cfgHfinIntEnable => stored (gdmaCfgHalfFinInten s.regs dmaCfg.channel dmaCfg.param)
  | .cfgWorkMode => stored (gdmaCfgWorkMode s.regs dmaCfg.channel dmaCfg.param)
  | .cfgSrcdataWidth => stored (gdmaCfgSrcdataWidth s.regs dmaCfg.channel dmaCfg.param)
  | .cfgDstdataWidth => stored (gdmaCfgDstdataWidth s.regs dmaCfg.channel dmaCfg.param)
  | .cfgSrcaddrIncrease => stored (gdmaCfgSrcaddrIncrease s.regs dmaCfg.channel dmaCfg.param)
  | .cfgDstaddrIncrease => stored (gdmaCfgDstaddrIncrease s.regs dmaCfg.channel dmaCfg.param)
  | .cfgSrcaddrLoop => stored (gdmaCfgSrcaddrLoop s.regs dmaCfg.channel dmaCfg.param)
  | .cfgDstaddrLoop => stored (gdmaCfgDstaddrLoop s.regs dmaCfg.channel dmaCfg.param)
  | .setChnlPrio => stored (gdmaSetChannelPrioprity s.regs dmaCfg.channel dmaCfg.param)
  | .setTransLength => stored (gdmaSetTransferLength s.regs dmaCfg.channel dmaCfg.param)
  | .setDstStartAddr => stored (gdmaSetDstStartAddr s.regs dmaCfg.channel dmaCfg.param)
  | .setSrcStartAddr => stored (gdmaSetSrcStartAddr s.regs dmaCfg.channel dmaCfg.param)
  | .setDstLoopEndaddr => stored (gdmaSetDstloopEndaddr s.regs dmaCfg.channel dmaCfg.param)
  | .setDstLoopStartaddr => stored (gdmaSetDstloopStartaddr s.regs dmaCfg.channel dmaCfg.param)
  | .setSrcLoopEndaddr => stored (gdmaSetSrcloopEndaddr s.regs dmaCfg.channel dmaCfg.param)
  | .setSrcLoopStartaddr => stored (gdmaSetSrcloopStartaddr s.regs dmaCfg.channel dmaCfg.param)
  | .getRemainLength => (s, gdmaGetRemainLen s.regs dmaCfg.channel)
  | .setDstReqMux => stored (gdmaSetDstReqmux s.regs dmaCfg.channel dmaCfg.param)
  | .setSrcReqMux => stored (gdmaSetSrcReqmux s.regs dmaCfg.channel dmaCfg.param)
  | .setDtcmWriteWord => stored (gdmaSetDctmWriteWd s.regs dmaCfg.channel dmaCfg.param)
  | .setHfinCnt => (s, gdmaGetHalfFinishCnt s.regs dmaCfg.channel)
  | .setPrioMode => stored (gdmaSetPriority s.regs dmaCfg.param)
  | .getFinIntStatus => (s, gdmaGetFinishInterruptBit s.regs dmaCfg.channel)
  | .clrFinIntStatus => stored (gdmaClrFinishInterruptBit s.regs dmaCfg.channel)
  | .getHfinIntStatus => (s, gdmaGetHalfFinishInterruptBit s.regs dmaCfg.channel)
  | .clrHfinIntStatus => stored (gdmaClrHalfFinishInterruptBit s.regs dmaCfg.channel)
  | .setSrcPauseAddr => stored (gdmaSetSrcPauseAddr s.regs dmaCfg.channel dmaCfg.param)
  | .getSrcPauseAddr => (s, gdmaGetSrcPauseAddr s.regs dmaCfg.channel)
  | .setDstPauseAddr => stored (gdmaSetDestPauseAddr s.regs dmaCfg.channel dmaCfg.param)
  -- The getter of the source here too; `gdma_get_dest_pause_addr` has no caller.
  | .getDstPauseAddr => (s, gdmaGetSrcPauseAddr s.regs dmaCfg.channel)
  | .getSrcReadAddr => (s, gdmaGetSrcReadAddr s.regs dmaCfg.channel)
  | .getDstWriteAddr => (s, gdmaGetDestWriteAddr s.regs dmaCfg.channel)

def ctrlTypes (cmd : TypeCmd) (cfg : GdmaCfgTypes) : Gdma :=
  match cmd with
  | .cfgType0 => { s with regs := gdmaCongfigType0 s.regs cfg }
  | .cfgType1 => { s with regs := gdmaCongfigType1 s.regs cfg }
  | .cfgType2 => { s with regs := gdmaCongfigType2 s.regs cfg }
  | .cfgType3 => { s with regs := gdmaCongfigType3 s.regs cfg }
  | .cfgType4 => gdmaCongfigType4 s cfg
  | .cfgType5 => gdmaCongfigType5 s cfg
  | .cfgType6 => s

/-- `gdma_ctrl` and what it returns, unless it stops in `ASSERT(param)`. -/
def gdmaCtrl (command : Command) : Option (Gdma × Word) :=
  if command.isNull then none
  else
    match command with
    | .withCfg cmd dmaCfg => some (ctrlCfg s cmd dmaCfg)
    | .withTypes cmd cfg => some (ctrlTypes s cmd cfg, ICU_SUCCESS)
    | .withChannel .setFinCnt channel => some (s, gdmaGetFinishCnt s.regs channel)
    | .withChannel .getLeftLen channel => some (s, gdmaGetReceivedLen s.regs channel)
    | .other => some (s, ICU_SUCCESS)

end

end Bk7251.Dma
