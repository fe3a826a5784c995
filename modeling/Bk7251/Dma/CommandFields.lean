import Bk7251.Dma.GeneralDma

/-!
# What a command of the DMA is about

The fields of the channels, by their words and bits, and for each command what it sets, what it may change and what it
reads. This is read off the names of the commands and the layout of the registers, not off the code.
-/
namespace Bk7251.Dma

open Lib

/-! ### Fields -/

/-- What can be set for a channel. -/
inductive Field
  | dmaEn | finInten | hfinInten | repeatMode | srcdataWidth | dstdataWidth | srcaddrInc | dstaddrInc | srcaddrLoop
  | dstaddrLoop | chnlPrio | transLen
  | dstStartAddr | srcStartAddr | dstloopEndAddr | dstloopStartAddr | srcloopEndAddr | srcloopStartAddr
  | srcReq | dstReq | dtcmWrWaitWord
  | srcPauseAddr | dstPauseAddr
  deriving DecidableEq

/-- The address of a word, by its number. -/
def wordAt (number : Nat) : Word := GENER_DMA_BASE + BitVec.ofNat 32 (4 * number)

namespace Field

/-- The number of the word for channel 0. -/
def slot : Field → Nat
  | dmaEn | finInten | hfinInten | repeatMode | srcdataWidth | dstdataWidth | srcaddrInc | dstaddrInc | srcaddrLoop
  | dstaddrLoop | chnlPrio | transLen => 0
  | dstStartAddr => 1
  | srcStartAddr => 2
  | dstloopEndAddr => 3
  | dstloopStartAddr => 4
  | srcloopEndAddr => 5
  | srcloopStartAddr => 6
  | srcReq | dstReq | dtcmWrWaitWord => 7
  | srcPauseAddr => 0x40
  | dstPauseAddr => 0x48

/-- From the word of one channel to that of the next. -/
def stride : Field → Nat
  | srcPauseAddr | dstPauseAddr => 1
  | _ => 8

def bits : Field → BitField
  | dmaEn => ⟨0, 1⟩
  | finInten => ⟨1, 1⟩
  | hfinInten => ⟨2, 1⟩
  | repeatMode => ⟨3, 1⟩
  | srcdataWidth => ⟨4, 2⟩
  | dstdataWidth => ⟨6, 2⟩
  | srcaddrInc => ⟨8, 1⟩
  | dstaddrInc => ⟨9, 1⟩
  | srcaddrLoop => ⟨10, 1⟩
  | dstaddrLoop => ⟨11, 1⟩
  | chnlPrio => ⟨12, 2⟩
  | transLen => ⟨16, 16⟩
  | srcReq => ⟨0, 4⟩
  | dstReq => ⟨4, 4⟩
  | dtcmWrWaitWord => ⟨8, 1⟩
  | _ => ⟨0, 32⟩

def part (f : Field) (channel : Word) : FieldAt Word := ⟨wordAt (f.slot + f.stride * channel.toNat), f.bits⟩

/-- What a parameter is in the field: a switch is on or off, a data width has a code, and the length is one less. -/
def coded (field : Field) (param : Word) : Word :=
  match field with
  | dmaEn | finInten | hfinInten | repeatMode | srcaddrInc | dstaddrInc | srcaddrLoop | dstaddrLoop
  | dtcmWrWaitWord => if param ≠ 0 then 1 else 0
  | srcdataWidth | dstdataWidth => widthCode param
  | transLen => param - 1
  | _ => param

end Field

/-- What can be set: a field of a channel, or the mode of the priorities. -/
inductive Loc
  | ofChannel (channel : Word) (field : Field)
  | prioMode
  deriving DecidableEq

def Loc.part : Loc → FieldAt Word
  | .ofChannel channel field => field.part channel
  | .prioMode => ⟨wordAt 0x37, ⟨0, 1⟩⟩

def Loc.Valid : Loc → Prop
  | .ofChannel channel _ => channel < GDMA_CHANNEL_MAX
  | .prioMode => True

/-- What the hardware tells about a channel. -/
inductive Status
  | remainLen | finCnt | hfinCnt | finInt | hfinInt | srcRdAddr | dstWrAddr

def Status.part (status : Status) (channel : Word) : FieldAt Word :=
  match status with
  | remainLen => ⟨wordAt (0x30 + channel.toNat), ⟨0, 17⟩⟩
  | finCnt => ⟨wordAt (0x30 + channel.toNat), ⟨24, 4⟩⟩
  | hfinCnt => ⟨wordAt (0x30 + channel.toNat), ⟨28, 4⟩⟩
  | finInt => ⟨wordAt 0x38, ⟨channel.toNat, 1⟩⟩
  | hfinInt => ⟨wordAt 0x38, ⟨channel.toNat + 8, 1⟩⟩
  | srcRdAddr => ⟨wordAt (0x50 + channel.toNat), ⟨0, 32⟩⟩
  | dstWrAddr => ⟨wordAt (0x58 + channel.toNat), ⟨0, 32⟩⟩

/-! ### What a command says -/

/-- The field that a command with a `GDMA_CFG_ST` sets. -/
def CfgCmd.field? : CfgCmd → Option Field
  | setDmaEnable => some .dmaEn
  | cfgFinIntEnable => some .finInten
  | cfgHfinIntEnable => some .hfinInten
  | cfgWorkMode => some .repeatMode
  | cfgSrcdataWidth => some .srcdataWidth
  | cfgDstdataWidth => some .dstdataWidth
  | cfgSrcaddrIncrease => some .srcaddrInc
  | cfgDstaddrIncrease => some .dstaddrInc
  | cfgSrcaddrLoop => some .srcaddrLoop
  | cfgDstaddrLoop => some .dstaddrLoop
  | setChnlPrio => some .chnlPrio
  | setTransLength => some .transLen
  | setDstStartAddr => some .dstStartAddr
  | setSrcStartAddr => some .srcStartAddr
  | setDstLoopEndaddr => some .dstloopEndAddr
  | setDstLoopStartaddr => some .dstloopStartAddr
  | setSrcLoopEndaddr => some .srcloopEndAddr
  | setSrcLoopStartaddr => some .srcloopStartAddr
  | setDstReqMux => some .dstReq
  | setSrcReqMux => some .srcReq
  | setDtcmWriteWord => some .dtcmWrWaitWord
  | setSrcPauseAddr => some .srcPauseAddr
  | setDstPauseAddr => some .dstPauseAddr
  | _ => none

namespace GdmaCfgTypes

variable (cfg : GdmaCfgTypes)

def widths : List (Field × Word) :=
  [(.srcdataWidth, cfg.srcdatWidth.setWidth 32), (.dstdataWidth, cfg.dstdatWidth.setWidth 32),
    (.chnlPrio, cfg.prio), (.dstStartAddr, cfg.dstStartAddr), (.srcStartAddr, cfg.srcStartAddr)]

def memory : List (Field × Word) :=
  [(.srcaddrInc, cfg.srcptrIncr.setWidth 32), (.dstaddrInc, cfg.dstptrIncr.setWidth 32)] ++ cfg.widths

def modules : List (Field × Word) :=
  [(.srcReq, cfg.srcModule.setWidth 32), (.dstReq, cfg.dstModule.setWidth 32), (.repeatMode, 1)]

def handlers : List (Field × Word) :=
  (if cfg.finHandler ≠ 0 then [(.finInten, 1)] else []) ++
    if cfg.halfFinHandler ≠ 0 then [(.hfinInten, 1)] else []

end GdmaCfgTypes

/-- The fields that a type sets, besides those of the configuration word, which it clears first. -/
def TypeCmd.fields (cmd : TypeCmd) (cfg : GdmaCfgTypes) : List (Field × Word) :=
  match cmd with
  | cfgType0 => cfg.memory
  | cfgType1 =>
    [(.srcaddrLoop, 1)] ++ cfg.memory ++ [(.srcloopStartAddr, cfg.u0), (.srcloopEndAddr, cfg.u1)]
  | cfgType2 =>
    [(.dstaddrLoop, 1)] ++ cfg.memory ++ [(.dstloopStartAddr, cfg.u0), (.dstloopEndAddr, cfg.u1)]
  | cfgType3 =>
    [(.srcaddrLoop, 1), (.dstaddrLoop, 1)] ++ cfg.memory ++
      [(.srcloopStartAddr, cfg.u0), (.srcloopEndAddr, cfg.u1), (.dstloopStartAddr, cfg.u2),
        (.dstloopEndAddr, cfg.u3)]
  | cfgType4 =>
    cfg.modules ++ [(.srcaddrLoop, 1), (.dstaddrInc, 0), (.srcaddrInc, cfg.srcptrIncr.setWidth 32)] ++ cfg.widths ++
      [(.srcloopStartAddr, cfg.u0), (.srcloopEndAddr, cfg.u1)] ++ cfg.handlers
  | cfgType5 =>
    cfg.modules ++ [(.dstaddrLoop, 1), (.srcaddrInc, 0), (.dstaddrInc, cfg.dstptrIncr.setWidth 32)] ++ cfg.widths ++
      [(.dstloopStartAddr, cfg.u0), (.dstloopEndAddr, cfg.u1)] ++ cfg.handlers
  | cfgType6 => []

/-- The fields of the configuration word. -/
def confFields : List Field :=
  [.dmaEn, .finInten, .hfinInten, .repeatMode, .srcdataWidth, .dstdataWidth, .srcaddrInc, .dstaddrInc, .srcaddrLoop,
    .dstaddrLoop, .chnlPrio, .transLen]

/-- Values for fields of one channel. -/
def put (channel : Word) (fields : List (Field × Word)) : List (Loc × Word) :=
  fields.map fun x => (.ofChannel channel x.1, x.1.coded x.2)

namespace Command

/-- What a command sets, in order. -/
def sets : Command → List (Loc × Word)
  | .withCfg .setPrioMode dmaCfg => [(.prioMode, if dmaCfg.param ≠ 0 then 1 else 0)]
  | .withCfg cmd dmaCfg => put dmaCfg.channel (cmd.field?.toList.map fun field => (field, dmaCfg.param))
  | .withTypes .cfgType6 _ => []
  | .withTypes cmd cfg =>
    (confFields.map fun field => (.ofChannel cfg.channel field, 0)) ++ put cfg.channel (cmd.fields cfg)
  | .withChannel _ _ => []
  | .other => []

/-- What a command may change: the field that it names, or the words of the channel that it configures. -/
def parts : Command → List (FieldAt Word)
  | .withCfg .clrFinIntStatus dmaCfg => [Status.finInt.part dmaCfg.channel]
  | .withCfg .clrHfinIntStatus dmaCfg => [Status.hfinInt.part dmaCfg.channel]
  | .withTypes _ cfg => (List.range 8).map fun slot => ⟨wordAt (slot + 8 * cfg.channel.toNat), ⟨0, 32⟩⟩
  | command => command.sets.map fun x => x.1.part

/-- The register that a command reads. -/
def reads : Command → Option (FieldAt Word)
  | .withCfg .getRemainLength dmaCfg => some (Status.remainLen.part dmaCfg.channel)
  | .withCfg .setHfinCnt dmaCfg => some (Status.hfinCnt.part dmaCfg.channel)
  | .withCfg .getFinIntStatus dmaCfg => some (Status.finInt.part dmaCfg.channel)
  | .withCfg .getHfinIntStatus dmaCfg => some (Status.hfinInt.part dmaCfg.channel)
  | .withCfg .getSrcPauseAddr dmaCfg => some (Field.srcPauseAddr.part dmaCfg.channel)
  | .withCfg .getDstPauseAddr dmaCfg => some (Field.dstPauseAddr.part dmaCfg.channel)
  | .withCfg .getSrcReadAddr dmaCfg => some (Status.srcRdAddr.part dmaCfg.channel)
  | .withCfg .getDstWriteAddr dmaCfg => some (Status.dstWrAddr.part dmaCfg.channel)
  | .withChannel .setFinCnt channel => some (Status.finCnt.part channel)
  | .withChannel .getLeftLen channel => some (Status.remainLen.part channel)
  | _ => none

/-- The channel whose handlers a command may change. -/
def configures : Command → Option Word
  | .withTypes _ cfg => some cfg.channel
  | _ => none

def Valid : Command → Prop
  | .withCfg .setPrioMode _ => True
  | .withCfg _ dmaCfg => dmaCfg.channel < GDMA_CHANNEL_MAX
  | .withTypes _ cfg => cfg.channel < GDMA_CHANNEL_MAX
  | .withChannel _ channel => channel < GDMA_CHANNEL_MAX
  | .other => True

end Command

/-- A command leaves alone what it does not name. -/
structure Only (command : Command) (s t : Gdma) : Prop where
  regs : ∀ addr i, (∀ p ∈ command.parts, ¬ p.Covers addr i) → (t.regs addr).getLsbD i = (s.regs addr).getLsbD i
  handlers : ∀ channel, command.configures ≠ some channel →
    t.pDmaFinHandler channel = s.pDmaFinHandler channel ∧ t.pDmaHfinHandler channel = s.pDmaHfinHandler channel

/-- What a command should return. -/
def Command.result (command : Command) (regs : Regs) : Word := command.reads.elim ICU_SUCCESS (·.read regs)

end Bk7251.Dma
