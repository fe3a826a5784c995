import Bk7251.Lib.Machine
import Bk7251.Lib.Mem

/-!
# The SPI master

`driver/spi/spi_master.c`, and of `driver/spi/spi.c` the access to the FIFOs and `spi_isr`. The controller
shifts at any moment, also between two accesses of the interrupt to its registers; the task that transfers
a message runs only while no interrupt does. Messages follow one another, as the mutex makes them.
-/
namespace Bk7251.SpiMaster

open Lib

/-- `struct spi_message`. The buffer for the answer may be missing. -/
structure Message where
  sendBuf : Mem UInt8
  sendLen : UInt32
  recvBuf : Option (Mem UInt8)
  recvLen : UInt32

/-- A byte that was shifted in, with the number of the message during which it was. -/
structure RxByte where
  byte : UInt8
  message : Nat

/-- One step of the shift register: the byte that left, the one that came, and whether CS was taken. -/
structure Shift where
  sent : UInt8
  got : RxByte
  cs : Bool

/-- `struct bk_spi_dev`; `txPtr` is an offset into the buffer of the message, and `txFinish` the bit
`TX_FINISH_FLAG`. -/
structure Dev where
  txBuf : Mem UInt8
  txPtr : Nat
  txLen : UInt32
  rxPtr : Option (Mem UInt8)
  rxLen : UInt32
  rxOffset : UInt32
  rxDrop : UInt32
  totalLen : UInt32
  txFinish : Bool

/-- The bits of `SPI_STAT` at the beginning of `spi_isr`; `rx` stands also for the end of CS. -/
structure Status where
  rx : Bool
  tx : Bool
  txEmpty : Bool

/-- Where an interrupt is: in the loop of the first callback, before and after the write of the second one,
or before the third. -/
inductive IsrPc
  | none
  | rxCallback (status : Status)
  | write (status : Status)
  | read (status : Status) (txOk : Bool)
  | finish (status : Status)

/-- Where `bk_spi_master_xfer` is. -/
inductive TaskPc
  | none
  | takeCs
  | enableRx
  | enableTx
  | wait
  | disableRx
  | disableTx
  | releaseCs
  | clear

/-- A message and what came of it: its number, the buffer, the bytes that were put into it, and what was
shifted meanwhile. -/
structure Outcome where
  msg : Message
  number : Nat
  recvBuf : Option (Mem UInt8)
  stored : List RxByte
  shifts : List Shift

/-- `msg`, `number`, `stored` and `shifts` are those of the message under way or of the last one. -/
structure State where
  txFifo : List UInt8
  rxFifo : List RxByte
  cs : Bool
  rxIntEn : Bool
  txIntEn : Bool
  txSem : Bool
  dev : Dev
  isr : IsrPc
  task : TaskPc
  msg : Message
  number : Nat
  stored : List RxByte
  shifts : List Shift
  outcomes : List Outcome

/-! ### The FIFOs -/

/-- The loops read a byte that is there and stop otherwise, and nobody else takes one out, so the look at
`RXFIFO_EMPTY` and the read of the byte are one step. -/
def spiReadRxfifo (s : State) : Option (RxByte × State) :=
  match s.rxFifo with
  | [] => none
  | got :: rest => some (got, { s with rxFifo := rest })

/-- `depth` is the size of a FIFO. Nobody else puts a byte in. -/
def spiWriteTxfifo (depth : Nat) (s : State) (data : UInt8) : Option State :=
  if s.txFifo.length < depth then some { s with txFifo := s.txFifo ++ [data] } else none

/-- A byte leaves and one comes; where the other FIFO is full it is lost. -/
def shift (depth : Nat) (s : State) (miso : UInt8) : State :=
  match s.txFifo with
  -- Without a byte to send the clock stands.
  | [] => s
  | sent :: rest =>
    let got : RxByte := ⟨miso, s.number⟩
    { s with
      txFifo := rest
      rxFifo := if s.rxFifo.length < depth then s.rxFifo ++ [got] else s.rxFifo
      shifts := s.shifts ++ [⟨sent, got, s.cs⟩] }

/-! ### The callbacks -/

/-- What both loops do with a byte; the second list are the bytes stored so far. The local copies of the
counters are written back before anything else can look at them. -/
def deliverByte (dev : Dev) (stored : List RxByte) (got : RxByte) : Dev × List RxByte :=
  match dev.rxPtr with
  | none => (dev, stored)
  | some rxbuf =>
    if dev.rxDrop ≠ 0 then ({ dev with rxDrop := dev.rxDrop - 1 }, stored)
    else if dev.rxOffset < dev.rxLen then
      ({ dev with
          rxPtr := some (rxbuf.write dev.rxOffset.toNat [got.byte])
          rxOffset := dev.rxOffset + 1 }, stored ++ [got])
    else (dev, stored)

def deliver (s : State) (got : RxByte) : State :=
  { s with
    dev := (deliverByte s.dev s.stored got).1
    stored := (deliverByte s.dev s.stored got).2 }

def rxCallbackStep (s : State) (status : Status) : State :=
  if status.rx then
    match spiReadRxfifo s with
    | some (got, s) => deliver s got
    -- The loop ends when it finds the FIFO empty.
    | none => { s with isr := .write status }
  else { s with isr := .write status }

/-- The first half of a turn of `bk_spi_tx_needwrite_callback`. -/
def writeStep (depth : Nat) (s : State) (status : Status) : State :=
  if status.tx ∧ s.dev.totalLen ≠ 0 then
    if s.dev.txLen ≠ 0 then
      match spiWriteTxfifo depth s (s.dev.txBuf s.dev.txPtr) with
      | some s => { s with dev.txLen := s.dev.txLen - 1, dev.txPtr := s.dev.txPtr + 1, isr := .read status true }
      | none => { s with isr := .read status false }
    else
      -- Nothing left to send: a filler, to clock in the answer.
      match spiWriteTxfifo depth s 0xff with
      | some s => { s with isr := .read status true }
      | none => { s with isr := .read status false }
  else { s with isr := .finish status }

/-- The second half: a byte is taken from the other FIFO, so that it does not overflow. -/
def readStep (s : State) (status : Status) (txOk : Bool) : State :=
  let s := match spiReadRxfifo s with
    | some (got, s) => deliver s got
    | none => s
  -- Only a byte that was written counts.
  if txOk then
    let s := { s with dev.totalLen := s.dev.totalLen - 1 }
    if s.dev.totalLen = 0 then { s with txIntEn := false, isr := .finish status }
    else { s with isr := .write status }
  else { s with isr := .finish status }

/-- `bk_spi_tx_finish_callback` where the status said that the FIFO is empty, and the end of the
interrupt. -/
def finishStep (s : State) (status : Status) : State :=
  if status.txEmpty ∧ s.dev.totalLen = 0 ∧ s.dev.txFinish = false then
    { s with dev.txFinish := true, txSem := true, isr := .none }
  else { s with isr := .none }

def isrStep (depth : Nat) (s : State) : State :=
  match s.isr with
  | .none => s
  | .rxCallback status => rxCallbackStep s status
  | .write status => writeStep depth s status
  | .read status txOk => readStep s status txOk
  | .finish status => finishStep s status

/-! ### The transfer -/

/-- `bk_spi_master_xfer` up to the end of the first section without interrupts. Without bytes it
returns. -/
def xfer (s : State) (msg : Message) : State :=
  let s := { s with msg := msg, number := s.number + 1, stored := [], shifts := [] }
  if msg.recvLen + msg.sendLen ≠ 0 then
    { s with
      dev := {
        txBuf := msg.sendBuf
        txPtr := 0
        txLen := msg.sendLen
        rxPtr := msg.recvBuf
        rxLen := msg.recvLen
        rxOffset := 0
        rxDrop := msg.sendLen
        totalLen := msg.recvLen + msg.sendLen
        txFinish := false }
      task := .takeCs }
  else { s with outcomes := s.outcomes ++ [⟨msg, s.number, msg.recvBuf, [], []⟩] }

/-- One line of the rest of it; the last one ends in the return. -/
def taskStep (s : State) : State :=
  match s.task with
  | .none => s
  | .takeCs => { s with cs := true, task := .enableRx }
  | .enableRx => { s with rxIntEn := true, task := .enableTx }
  | .enableTx => { s with txIntEn := true, task := .wait }
  | .wait => if s.txSem then { s with txSem := false, task := .disableRx } else s
  | .disableRx => { s with rxIntEn := false, task := .disableTx }
  | .disableTx => { s with txIntEn := false, task := .releaseCs }
  | .releaseCs => { s with cs := false, task := .clear }
  | .clear =>
    { s with
      outcomes := s.outcomes ++ [⟨s.msg, s.number, s.dev.rxPtr, s.stored, s.shifts⟩]
      dev.txPtr := 0
      dev.txLen := 0
      dev.rxPtr := none
      dev.rxLen := 0
      dev.totalLen := 0
      dev.txFinish := true
      task := .none }

/-- A shift with the byte from the slave, the beginning of an interrupt with the causes its status shows, a
step of it, a call, and a step of the call. -/
inductive Event
  | shift (miso : UInt8)
  | isr (rx tx : Bool)
  | isrStep
  | xfer (msg : Message)
  | taskStep

/-- An interrupt needs its enable bit, calls and their steps wait for its end. -/
def step (depth : Nat) (s : State) : Event → State
  | .shift miso => shift depth s miso
  | .isr rx tx =>
    match s.isr with
    | .none =>
      if s.rxIntEn ∨ s.txIntEn then { s with isr := .rxCallback ⟨rx, tx, s.txFifo.isEmpty⟩ } else s
    | _ => s
  | .isrStep => isrStep depth s
  | .xfer msg =>
    match s.isr, s.task with
    | .none, .none => xfer s msg
    | _, _ => s
  | .taskStep =>
    match s.isr with
    | .none => taskStep s
    | _ => s

def noMessage : Message := ⟨fun _ => 0, 0, none, 0⟩

/-- `bk_spi_master_init`. -/
def spiMasterInit : State :=
  { txFifo := []
    rxFifo := []
    cs := false
    rxIntEn := false
    txIntEn := false
    txSem := false
    dev := ⟨fun _ => 0, 0, 0, none, 0, 0, 0, 0, true⟩
    isr := .none
    task := .none
    msg := noMessage
    number := 0
    stored := []
    shifts := []
    outcomes := [] }

end Bk7251.SpiMaster
