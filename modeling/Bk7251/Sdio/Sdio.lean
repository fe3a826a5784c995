import Mathlib.Logic.Function.Basic
import Bk7251.Lib.Heap
import Bk7251.Lib.Bytes

/-!
# The SDIO node lists

`driver/sdio/sdio.c` and `driver/sdio/sutil.c`, with the start of a transfer from `driver/sdio/sdma.c`.
The parameter `blk512` is the build option `FOR_SDIO_BLK_512`. A failed assertion stops the firmware.
-/
namespace Bk7251.Sdio

open Lib

def CELL_COUNT : Nat := 64

def BLOCK_LEN : UInt32 := 512 * 8

def CFG_MSDU_RESV_HEAD_LEN : UInt32 := 96
def CFG_MSDU_RESV_TAIL_LEN : UInt32 := 16
def MALLOC_MAGIC_LEN : UInt32 := 8

def RX_NODE_OK : UInt16 := 0x1
def TX_NODE_OK : UInt16 := 0x2
def RX_NO_NODE : UInt16 := 0xA
def TX_NO_NODE : UInt16 := 0xB

/-- A pointer into an allocated block. -/
structure Addr where
  block : Nat
  off : UInt32

/-- `SDIO_NODE_T` without its callback; `none` is the null pointer. -/
structure SdioNode where
  origAddr : Option Nat
  addr : Option Addr
  length : UInt32

/-- The transfer that `sdma_dma_start` programmed last. -/
structure Dma where
  addr : Option Addr
  off : UInt32
  len : UInt32

/-- `SDIO_S` with `beken_tx_sdio_s`, `da_hd_err` and `peri_busy_count`; the heap holds the size of every
block. `held` are the nodes in the hands of callers. `txIn` to `rxOut` record what entered and left the
two data queues. -/
structure SdioS where
  rxStatus : UInt16
  txStatus : UInt16
  tcLen : UInt32
  rcLen : UInt32
  txSeq : UInt8
  rxSeq : UInt8
  rxLen : UInt32
  txLen : UInt32
  rHdlLen : UInt32
  tHdlLen : UInt32
  txTransactionLen : UInt32
  rxTransactionLen : UInt32
  bekenTxSdioS : UInt8
  daHdErr : UInt8
  periBusyCount : UInt32
  txValid : Bool
  dma : Option Dma
  snode : Nat → SdioNode
  txDat : List Nat
  txingList : List Nat
  rxDat : List Nat
  rxingList : List Nat
  freeNodes : List Nat
  held : List Nat
  heap : Heap UInt32
  txIn : List Nat
  txOut : List Nat
  rxIn : List Nat
  rxOut : List Nat

/-- `sdio_init` over the zeroed struct. -/
def sdioInit : SdioS where
  rxStatus := 0
  txStatus := 0
  tcLen := 0
  rcLen := 0
  txSeq := 0
  rxSeq := 0
  rxLen := 0
  txLen := 0
  rHdlLen := 0
  tHdlLen := 0
  txTransactionLen := 0
  rxTransactionLen := 0
  bekenTxSdioS := 1
  daHdErr := 0
  periBusyCount := 0
  txValid := false
  dma := none
  snode _ := ⟨none, none, 0⟩
  txDat := []
  txingList := []
  rxDat := []
  rxingList := []
  freeNodes := List.range CELL_COUNT
  held := []
  heap := Heap.empty
  txIn := []
  txOut := []
  rxIn := []
  rxOut := []

/-- Why there is no next state: an assertion, or the release of a block that is not allocated. -/
inductive Stop
  | assert
  | badFree

def assert (condition : Bool) : Except Stop Unit :=
  if condition then .ok () else .error .assert

/-- `sdio_alloc_valid_node`; `malloc` says whether there is memory. -/
def sdioAllocValidNode (s : SdioS) (malloc : Bool) (bufSize : UInt32) : SdioS × Option Nat :=
  if bufSize = 0 then (s, none)
  else match s.freeNodes with
    | [] => (s, none)
    | node :: rest =>
      let s := { s with freeNodes := rest }
      if malloc then
        let size := CFG_MSDU_RESV_HEAD_LEN + bufSize + CFG_MSDU_RESV_TAIL_LEN + MALLOC_MAGIC_LEN
        let block := s.heap.next
        ({ s with
            heap := s.heap.alloc size
            snode := Function.update s.snode node
              ⟨some block, some ⟨block, CFG_MSDU_RESV_HEAD_LEN⟩, bufSize⟩ }, some node)
      -- Without memory the node goes back, behind the others.
      else ({ s with freeNodes := s.freeNodes ++ [node] }, none)

/-- `os_free`, which ignores the null pointer. -/
def osFree (heap : Heap UInt32) : Option Nat → Except Stop (Heap UInt32)
  | none => .ok heap
  | some block =>
    match heap.free block with
    | some heap => .ok heap
    | none => .error .badFree

def sdioFreeValidNode (s : SdioS) (node : Nat) : Except Stop SdioS := do
  let heap ← osFree s.heap (s.snode node).origAddr
  .ok { s with
    heap
    snode := Function.update s.snode node ⟨none, none, 0⟩
    freeNodes := s.freeNodes ++ [node] }

/-- `sdma_dma_start(addr + off, len)` -/
def sdmaDmaStart (s : SdioS) (addr : Option Addr) (off len : UInt32) : Except Stop SdioS := do
  assert (len ≠ 0)
  -- The address that is checked is the sum.
  assert (addr.isSome || off ≠ 0)
  .ok { s with dma := some ⟨addr, off, len⟩ }

/-! ### Host commands -/

/-- The fields of `SDIO_DCMD_S` that the host fills in. -/
structure SdioDcmd where
  dataLen : UInt16
  startLen : UInt16
  seq : UInt8
  totalSize : UInt16

/-- The buffer size for a frame of the given size. -/
def mSize (totalSize : UInt16) : UInt32 :=
  if 1024 < totalSize ∧ totalSize ≤ 1536 then 1536
  else if 0 < totalSize ∧ totalSize ≤ 512 then 512
  else if 512 < totalSize ∧ totalSize ≤ 1024 then 1024
  -- Size 0 too, and what is larger than 2048.
  else 2048

/-- The node that a command to write goes to: the one under way, or a new one. -/
def rxingNode (blk512 : Bool) (s : SdioS) (malloc : Bool) (cmd : SdioDcmd) : SdioS × Option Nat :=
  match s.rxingList with
  | node :: rest => ({ s with rxingList := rest }, some node)
  | [] => sdioAllocValidNode s malloc (if blk512 then mSize cmd.totalSize else cmd.dataLen.toUInt32)

/-- A frame with another sequence number gets a buffer of its own. -/
def replaceNode (s : SdioS) (malloc : Bool) (cmd : SdioDcmd) : Option Nat → Except Stop (SdioS × Option Nat)
  | none => .ok (s, none)
  | some node => do
    let s ← sdioFreeValidNode s node
    let p := sdioAllocValidNode s malloc (mSize cmd.totalSize)
    .ok ({ p.1 with rxSeq := cmd.seq }, p.2)

/-- The node of a command to write, with `count` nodes under way. -/
def wrNode (blk512 : Bool) (s : SdioS) (malloc : Bool) (cmd : SdioDcmd) :
    Except Stop (SdioS × Option Nat) :=
  let count := s.rxingList.length
  let p := rxingNode blk512 s malloc cmd
  if blk512 ∧ p.1.rxSeq ≠ cmd.seq ∧ count ≠ 0 then replaceNode p.1 malloc cmd p.2 else .ok p

/-- The lengths that the command announces. -/
def wrLengths (blk512 : Bool) (s : SdioS) (cmd : SdioDcmd) : SdioS :=
  if blk512 then { s with rxLen := cmd.totalSize.toUInt32 }
  else { s with rxLen := cmd.dataLen.toUInt32, rHdlLen := 0 }

/-- The marks of a frame that continues where the driver is not. -/
def wrMarks (blk512 : Bool) (s : SdioS) (cmd : SdioDcmd) : SdioS :=
  -- The beginning of the frame has been missed.
  let s := if blk512 ∧ s.rxSeq ≠ cmd.seq ∧ cmd.startLen ≠ 0 then { s with daHdErr := 1 } else s
  if blk512 ∧ s.rcLen ≠ cmd.startLen.toUInt32 then
    { s with rcLen := cmd.startLen.toUInt32, rHdlLen := cmd.startLen.toUInt32 }
  else s

def wrStart (blk512 : Bool) (s : SdioS) (cmd : SdioDcmd) : Option Nat → Except Stop SdioS
  | some node =>
    let s := { s with
      rxStatus := RX_NODE_OK
      rxTransactionLen := if blk512 then cmd.dataLen.toUInt32 else min32 BLOCK_LEN (s.rxLen - s.rHdlLen)
      rxingList := s.rxingList ++ [node] }
    sdmaDmaStart s (s.snode node).addr (if blk512 then s.rcLen else 0) s.rxTransactionLen
  | none => .ok { s with rxStatus := RX_NO_NODE }

/-- `OPC_WR_DTCM` in `sdio_cmd_handler`. -/
def wrDtcm (blk512 : Bool) (s : SdioS) (malloc : Bool) (cmd : SdioDcmd) : Except Stop SdioS := do
  let s := wrLengths blk512 s cmd
  assert (!blk512 || s.rxingList.length < 2)
  let p ← wrNode blk512 s malloc cmd
  wrStart blk512 (wrMarks blk512 p.1 cmd) cmd p.2

/-- The node that a command to read takes: the one under way, or the oldest to send. -/
def txingNode (s : SdioS) : SdioS × Option Nat :=
  match s.txingList with
  | node :: rest => ({ s with txingList := rest }, some node)
  | [] =>
    match s.txDat with
    | node :: rest => ({ s with txDat := rest, txOut := s.txOut ++ [node] }, some node)
    | [] => (s, none)

/-- `first` says that the frame begins with this transfer, and gets its sequence number. -/
def rdStart (blk512 : Bool) (s : SdioS) (first : Bool) : Option Nat → Except Stop SdioS
  | some node => do
    let s := { s with txStatus := TX_NODE_OK }
    assert (!(blk512 && first) || (s.snode node).addr.isSome)
    let s := if blk512 && first then
        { s with txSeq := s.bekenTxSdioS, bekenTxSdioS := s.bekenTxSdioS + 1 }
      else s
    let s := { s with
      txTransactionLen := min32 BLOCK_LEN (s.txLen - s.tHdlLen)
      txingList := s.txingList ++ [node] }
    sdmaDmaStart s (s.snode node).addr (if blk512 then s.tcLen else 0) s.txTransactionLen
  | none => .ok { s with txStatus := TX_NO_NODE }

/-- `OPC_RD_DTCM` in `sdio_cmd_handler`. -/
def rdDtcm (blk512 : Bool) (s : SdioS) (cmd : SdioDcmd) : Except Stop SdioS := do
  let s := { s with
    -- The node that this command takes may be the last.
    txValid := if s.txDat.length ≤ 1 then false else s.txValid
    txLen := cmd.dataLen.toUInt32
    tHdlLen := 0 }
  let count := s.txingList.length
  assert (!blk512 || count < 2)
  let p := txingNode s
  assert (!blk512 || count ≠ 0 || s.tcLen = 0)
  rdStart blk512 p.1 (count = 0) p.2

/-! ### Completions -/

/-- The end of the transfer of `node`: without blocks, or with all of it moved, it is done with. -/
def txDone (blk512 : Bool) (s : SdioS) (node : Nat) : Except Stop SdioS :=
  if !blk512 ∨ (s.snode node).length ≤ s.tcLen then do
    let s ← sdioFreeValidNode s node
    assert (s.txLen - s.tHdlLen = 0)
    .ok (if blk512 then { s with tcLen := 0 } else s)
  else .ok { s with txingList := s.txingList ++ [node] }

def sdioTxCb (blk512 : Bool) (s : SdioS) : Except Stop SdioS :=
  match s.txingList with
  | [] => do
    assert (s.txStatus = TX_NO_NODE)
    .ok { s with
      txStatus := TX_NODE_OK
      tHdlLen := if blk512 then s.tHdlLen else s.tHdlLen + s.txTransactionLen }
  | node :: rest =>
    txDone blk512
      { s with
        txingList := rest
        tHdlLen := s.tHdlLen + s.txTransactionLen
        tcLen := if blk512 then s.tcLen + s.txTransactionLen else s.tcLen } node

/-- The fields of the frame header that the host has written into the buffer. -/
structure FrameHdr where
  len : UInt16
  seq : UInt8

/-- A frame that is complete goes to the receive queue. -/
def rxDone (s : SdioS) (node : Nat) : Except Stop SdioS := do
  let s := { s with rxDat := s.rxDat ++ [node], rxIn := s.rxIn ++ [node] }
  assert (s.rxLen - s.rHdlLen = 0)
  .ok s

/-- The end of a block of a frame in `node`. -/
def rxBlock (s : SdioS) (node : Nat) (hdr : FrameHdr) : Except Stop SdioS :=
  if s.rcLen ≥ hdr.len.toUInt32 then
    -- A frame without its beginning is dropped when it ends.
    if s.daHdErr = 1 then do
      let s ← sdioFreeValidNode s node
      .ok { s with rcLen := 0, rHdlLen := 0, daHdErr := 0 }
    else do
      let s ← rxDone s node
      .ok { s with rcLen := 0, rHdlLen := 0 }
  else .ok { s with rxingList := s.rxingList ++ [node] }

def sdioRxCb (blk512 : Bool) (s : SdioS) (hdr : FrameHdr) : Except Stop SdioS :=
  match s.rxingList with
  | [] => do
    -- There was no node for the transfer, and its bytes are gone.
    assert (blk512 || s.rxStatus = RX_NO_NODE)
    .ok { s with
      rxStatus := RX_NODE_OK
      rHdlLen := if blk512 then s.rHdlLen else s.rHdlLen + s.rxTransactionLen }
  | node :: rest =>
    let s := { s with rxingList := rest, rHdlLen := s.rHdlLen + s.rxTransactionLen }
    if blk512 then
      rxBlock { s with rcLen := s.rcLen + s.rxTransactionLen, rxSeq := hdr.seq } node hdr
    else rxDone s node

/-! ### The device calls -/

def SDIO_FAILURE : UInt32 := 0xFFFFFFFF
def SDIO_SUCCESS : UInt32 := 0

def H2S_RD_SYNC : UInt32 := 1
def H2S_WR_SYNC : UInt32 := 2
def S2H_RD_SYNC : UInt32 := 3
def S2H_WR_SYNC : UInt32 := 4
def H2S_RD_SPECIAL : UInt32 := 5
def S2H_WR_SPECIAL : UInt32 := 6

/-- A return value: a number, or a pointer to a node cast to one. -/
inductive Ret
  | value (v : UInt32)
  | node (node : Option Nat)

def busy (s : SdioS) : SdioS := { s with periBusyCount := s.periBusyCount + 1 }

def idle (s : SdioS) : SdioS := { s with periBusyCount := s.periBusyCount - 1 }

/-- A read that copies the bytes of `node`; the length of the node is returned. -/
def readNode (s : SdioS) (node : Nat) : Except Stop (SdioS × Ret) := do
  let ret := (s.snode node).length
  let s ← sdioFreeValidNode s node
  .ok (idle s, .value ret)

/-- `userBuf` says whether there is a buffer. -/
def sdioRead (s : SdioS) (userBuf : Bool) (count opFlag : UInt32) : Except Stop (SdioS × Ret) :=
  let s := busy s
  if opFlag = S2H_RD_SYNC then
    -- Returns with the count of busy calls still raised.
    if !userBuf ∨ count = 0 then .ok (s, .value SDIO_FAILURE)
    else match s.txDat with
      | node :: rest => readNode { s with txDat := rest, txOut := s.txOut ++ [node] } node
      | [] => .ok (idle s, .value SDIO_FAILURE)
  else if opFlag = H2S_RD_SYNC then
    if !userBuf ∨ count = 0 then .ok (s, .value SDIO_FAILURE)
    else match s.rxDat with
      | node :: rest => readNode { s with rxDat := rest, rxOut := s.rxOut ++ [node] } node
      | [] => .ok (idle s, .value SDIO_FAILURE)
  else if opFlag = H2S_RD_SPECIAL then
    match s.rxDat with
    | node :: rest =>
      .ok (idle { s with rxDat := rest, rxOut := s.rxOut ++ [node], held := s.held ++ [node] },
        .node (some node))
    | [] => .ok (idle s, .value SDIO_FAILURE)
  else .ok (idle s, .value SDIO_FAILURE)

/-- `userBuf` is null or what it points to: the number of a node for `S2H_WR_SPECIAL`. -/
def sdioWrite (s : SdioS) (malloc : Bool) (userBuf : Option Nat) (count opFlag : UInt32) : SdioS × Ret :=
  let s := busy s
  if opFlag = S2H_WR_SYNC then
    if userBuf.isNone ∨ count = 0 then (s, .value SDIO_FAILURE)
    else match sdioAllocValidNode s malloc count with
      | (s, some node) =>
        (idle { s with txDat := s.txDat ++ [node], txIn := s.txIn ++ [node], txValid := true },
          .value SDIO_SUCCESS)
      | (s, none) => (idle s, .value SDIO_FAILURE)
  else if opFlag = S2H_WR_SPECIAL then
    match userBuf with
    | some node =>
      if count = 0 then (s, .value SDIO_FAILURE)
      else
        (idle { s with
          held := s.held.erase node
          txDat := s.txDat ++ [node]
          txIn := s.txIn ++ [node]
          txValid := true }, .value SDIO_SUCCESS)
    | none => (s, .value SDIO_FAILURE)
  else if opFlag = H2S_WR_SYNC then
    if userBuf.isNone ∨ count = 0 then (s, .value SDIO_FAILURE)
    else match sdioAllocValidNode s malloc count with
      | (s, some node) =>
        (idle { s with rxDat := s.rxDat ++ [node], rxIn := s.rxIn ++ [node] }, .value SDIO_SUCCESS)
      | (s, none) => (idle s, .value SDIO_FAILURE)
  else (idle s, .value SDIO_FAILURE)

/-- The commands of `sdio_ctrl`; the counts come back through the pointer or as the result. -/
inductive Ctrl
  | pushFreeNode (node : Nat)
  | getFreeNode (size : UInt32)
  | regRxCallback
  | getCntFreeNode
  | clearTxValid
  | setTxValid
  | peekS2hCount
  | peekH2sCount
  | other

def sdioCtrl (s : SdioS) (malloc : Bool) (cmd : Ctrl) : Except Stop (SdioS × Ret) :=
  let s := busy s
  match cmd with
  | .pushFreeNode node => do
    let s ← sdioFreeValidNode { s with held := s.held.erase node } node
    .ok (idle s, .value SDIO_SUCCESS)
  | .getFreeNode size =>
    let p := sdioAllocValidNode s malloc size
    .ok (idle { p.1 with held := p.1.held ++ p.2.toList }, .node p.2)
  | .regRxCallback | .other => .ok (idle s, .value SDIO_SUCCESS)
  | .getCntFreeNode => .ok (idle s, .value (UInt32.ofNat s.freeNodes.length))
  | .clearTxValid => .ok (idle { s with txValid := false }, .value SDIO_SUCCESS)
  | .setTxValid => .ok (idle { s with txValid := true }, .value SDIO_SUCCESS)
  | .peekS2hCount => .ok (idle s, .value (UInt32.ofNat s.txDat.length))
  | .peekH2sCount => .ok (idle s, .value (UInt32.ofNat s.rxDat.length))

/-! ### Runs -/

/-- A command of the host, the end of a transfer, a call, or a change that a caller makes to a node. -/
inductive Event
  | wrDtcm (malloc : Bool) (cmd : SdioDcmd)
  | rdDtcm (cmd : SdioDcmd)
  | txCb
  | rxCb (hdr : FrameHdr)
  | read (userBuf : Bool) (count opFlag : UInt32)
  | write (malloc : Bool) (userBuf : Option Nat) (count opFlag : UInt32)
  | ctrl (malloc : Bool) (cmd : Ctrl)
  | edit (node : Nat) (addr : Option Addr) (length : UInt32)

/-- The node that the event is about must be in the caller's hands. -/
def Event.node? : Event → Option Nat
  | .write _ userBuf _ opFlag => if opFlag = S2H_WR_SPECIAL then userBuf else none
  | .ctrl _ (.pushFreeNode node) => some node
  | .edit node _ _ => some node
  | _ => none

def act (blk512 : Bool) (s : SdioS) : Event → Except Stop SdioS
  | .wrDtcm malloc cmd => wrDtcm blk512 s malloc cmd
  | .rdDtcm cmd => rdDtcm blk512 s cmd
  | .txCb => sdioTxCb blk512 s
  | .rxCb hdr => sdioRxCb blk512 s hdr
  | .read userBuf count opFlag => (sdioRead s userBuf count opFlag).map Prod.fst
  | .write malloc userBuf count opFlag => .ok (sdioWrite s malloc userBuf count opFlag).1
  | .ctrl malloc cmd => (sdioCtrl s malloc cmd).map Prod.fst
  | .edit node addr length =>
    .ok { s with snode := Function.update s.snode node { s.snode node with addr, length } }

/-- Nobody passes a node that is not its own. -/
def step (blk512 : Bool) (s : SdioS) (e : Event) : Except Stop SdioS :=
  if ∀ node ∈ e.node?, node ∈ s.held then act blk512 s e else .ok s

/-- The state after all events, or what stopped the firmware on the way. -/
def run (blk512 : Bool) (events : List Event) : Except Stop SdioS :=
  events.foldlM (step blk512) sdioInit

end Bk7251.Sdio
