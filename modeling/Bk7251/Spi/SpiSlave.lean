import Bk7251.Lib.Ring
import Bk7251.Lib.Fifo

/-!
# The receive FIFO of the SPI slave

`driver/spi/spi_slave.c`. The receive callback runs as an interrupt: when its put index meets the
get index it moves the get index on and sets `is_full`. A reader takes byte by byte with interrupts
disabled for each byte, and the first byte it takes clears `is_full`.
-/
namespace Bk7251.Spi

open Lib

def SPI_SLAVE_RX_FIFO_LEN : Nat := 512

/-- `struct spi_rx_fifo` -/
structure SpiRxFifo where
  buffer : Mem UInt8
  putIndex : Nat
  getIndex : Nat
  isFull : Bool

/-- The FIFO that `bk_spi_slave_init` sets up. -/
def SpiRxFifo.init : SpiRxFifo := ⟨fun _ => 0, 0, 0, false⟩

/-- `index += 1`, and back to 0 at the end of the buffer. -/
def advance (index : Nat) : Nat :=
  if index + 1 ≥ SPI_SLAVE_RX_FIFO_LEN then 0 else index + 1

def bkSpiSlaveGetRxFifo (rxFifo : SpiRxFifo) : Nat :=
  if rxFifo.putIndex ≥ rxFifo.getIndex then rxFifo.putIndex - rxFifo.getIndex
  else SPI_SLAVE_RX_FIFO_LEN - (rxFifo.getIndex - rxFifo.putIndex)

/-- One round of the loop in `bk_spi_slave_spi_rx_callback`. -/
def putByte (rxFifo : SpiRxFifo) (ch : UInt8) : SpiRxFifo :=
  let buffer := rxFifo.buffer.write rxFifo.putIndex [ch]
  let putIndex := advance rxFifo.putIndex
  if putIndex = rxFifo.getIndex then ⟨buffer, putIndex, advance rxFifo.getIndex, true⟩
  else { rxFifo with buffer, putIndex }

/-- `bytes` are what the run finds in the controller's RX FIFO. -/
def bkSpiSlaveSpiRxCallback (rxFifo : SpiRxFifo) (bytes : List UInt8) : SpiRxFifo :=
  bytes.foldl putByte rxFifo

/-- One round of the loop in `bk_spi_slave_get_rx_data`; `none` where it breaks. -/
def takeByte (rxFifo : SpiRxFifo) : Option (UInt8 × SpiRxFifo) :=
  if rxFifo.getIndex = rxFifo.putIndex ∧ rxFifo.isFull = false then none
  else some (rxFifo.buffer rxFifo.getIndex,
    { rxFifo with getIndex := advance rxFifo.getIndex, isFull := false })

/-- The loop with `size` bytes to go, and the bytes it stores from `rx_buf` on. Before each round a
run of the callback may come, and the runs left over come before the call returns. -/
def takeBytes (rxFifo : SpiRxFifo) : Nat → List (List UInt8) → SpiRxFifo × List UInt8
  | 0, runs => (bkSpiSlaveSpiRxCallback rxFifo runs.flatten, [])
  | size + 1, runs =>
    match takeByte (bkSpiSlaveSpiRxCallback rxFifo (runs.headD [])) with
    | none =>
      (bkSpiSlaveSpiRxCallback (bkSpiSlaveSpiRxCallback rxFifo (runs.headD [])) runs.tail.flatten, [])
    | some (ch, rxFifo') =>
      let (left, taken) := takeBytes rxFifo' size runs.tail
      (left, ch :: taken)

/-- `rxBuf` says whether the caller gave a buffer. -/
def bkSpiSlaveGetRxData (rxFifo : SpiRxFifo) (rxBuf : Bool) (len : Nat) (runs : List (List UInt8)) :
    SpiRxFifo × List UInt8 :=
  if rxBuf then takeBytes rxFifo len runs else (bkSpiSlaveSpiRxCallback rxFifo runs.flatten, [])

/-! ### The queue in the buffer -/

/-- The FIFO holds at most one byte less than the buffer. -/
def capacity : Nat := SPI_SLAVE_RX_FIFO_LEN - 1

/-- The queue the FIFO stands for. The flag is up only while the queue is as long as it can be, so it
never makes an empty one readable. -/
structure RxQueue (rxFifo : SpiRxFifo) (q : List UInt8) : Prop where
  put_lt : rxFifo.putIndex < SPI_SLAVE_RX_FIFO_LEN
  get_lt : rxFifo.getIndex < SPI_SLAVE_RX_FIFO_LEN
  length : q.length = Ring.span SPI_SLAVE_RX_FIFO_LEN rxFifo.getIndex rxFifo.putIndex
  queue : Ring.contents rxFifo.buffer SPI_SLAVE_RX_FIFO_LEN rxFifo.getIndex q.length = q
  full : rxFifo.isFull = true → q.length = capacity

theorem advance_eq_slot {index : Nat} (inside : index < SPI_SLAVE_RX_FIFO_LEN) :
    advance index = Ring.slot SPI_SLAVE_RX_FIFO_LEN index 1 := by
  unfold advance Ring.slot
  split <;> split <;> omega

theorem advance_lt (index : Nat) : advance index < SPI_SLAVE_RX_FIFO_LEN := by
  unfold advance
  split
  · decide
  · omega

namespace RxQueue

variable {rxFifo : SpiRxFifo} {q : List UInt8}

theorem length_le (rep : RxQueue rxFifo q) : q.length ≤ capacity := by
  have put := rep.put_lt
  have get := rep.get_lt
  rw [rep.length, capacity, Ring.span]
  split <;> omega

theorem getRxFifo_eq (rep : RxQueue rxFifo q) : bkSpiSlaveGetRxFifo rxFifo = q.length := by
  have put := rep.put_lt
  have get := rep.get_lt
  simp only [rep.length, bkSpiSlaveGetRxFifo, Ring.span, ge_iff_le]
  split <;> omega

theorem init : RxQueue SpiRxFifo.init [] :=
  ⟨by decide, by decide, rfl, rfl, by simp [SpiRxFifo.init]⟩

/-- The put index is behind the queue. -/
theorem slot_length (rep : RxQueue rxFifo q) :
    Ring.slot SPI_SLAVE_RX_FIFO_LEN rxFifo.getIndex q.length = rxFifo.putIndex := by
  have getLt := rep.get_lt
  rw [rep.length]
  exact Ring.slot_span _ _ _ (by omega) (.inl rep.put_lt)

/-- The byte is stored behind the queue. -/
theorem contents_put (rep : RxQueue rxFifo q) (ch : UInt8) :
    Ring.contents (rxFifo.buffer.write rxFifo.putIndex [ch]) SPI_SLAVE_RX_FIFO_LEN rxFifo.getIndex
      (q.length + 1) = q ++ [ch] := by
  have putLt := rep.put_lt
  have getLt := rep.get_lt
  have low := rep.length_le
  rw [capacity] at low
  have stored := Ring.contents_write rxFifo.buffer SPI_SLAVE_RX_FIFO_LEN rxFifo.getIndex q.length [ch]
    (by omega) (by simp only [List.length_singleton]; omega)
    (by rw [rep.slot_length, List.length_singleton]; omega)
  rwa [rep.slot_length, rep.queue, List.length_singleton] at stored

/-- With room for one more byte the indices still differ. -/
theorem put_room (rep : RxQueue rxFifo q) (ch : UInt8) (room : q.length < capacity) :
    RxQueue (putByte rxFifo ch) (q ++ [ch]) := by
  have putLt := rep.put_lt
  have getLt := rep.get_lt
  have room' : q.length + 1 < SPI_SLAVE_RX_FIFO_LEN := by
    rw [capacity] at room
    omega
  have grown := Ring.span_slot_right SPI_SLAVE_RX_FIFO_LEN rxFifo.getIndex rxFifo.putIndex 1
    (by omega) (by rw [← rep.length]; omega)
  rw [← rep.length, ← advance_eq_slot putLt] at grown
  have apart : advance rxFifo.putIndex ≠ rxFifo.getIndex := by
    intro met
    rw [met, Ring.span, if_pos (Nat.le_refl _)] at grown
    omega
  simp only [putByte, if_neg apart]
  refine ⟨advance_lt _, getLt, ?_, ?_, ?_⟩
  · rw [List.length_append, List.length_singleton, grown]
  · rw [List.length_append, List.length_singleton]
    exact rep.contents_put ch
  · intro up
    exact absurd (rep.full up) (Nat.ne_of_lt room)

/-- When the queue is full the put index meets the get index, which moves on. -/
theorem put_full (rep : RxQueue rxFifo q) (ch : UInt8) (full : q.length = capacity) :
    RxQueue (putByte rxFifo ch) ((q ++ [ch]).drop 1) := by
  have putLt := rep.put_lt
  have getLt := rep.get_lt
  have whole : q.length + 1 = SPI_SLAVE_RX_FIFO_LEN := by
    rw [full]
    rfl
  have met : advance rxFifo.putIndex = rxFifo.getIndex := by
    rw [advance_eq_slot putLt, ← rep.slot_length]
    unfold Ring.slot
    split <;> split <;> omega
  have length : ((q ++ [ch]).drop 1).length = q.length := by simp
  simp only [putByte, if_pos met]
  refine ⟨advance_lt _, advance_lt _, ?_, ?_, ?_⟩
  · change ((q ++ [ch]).drop 1).length =
      Ring.span SPI_SLAVE_RX_FIFO_LEN (advance rxFifo.getIndex) (advance rxFifo.putIndex)
    rw [length, met, Ring.span, advance]
    split <;> split <;> omega
  · have rest := Ring.contents_drop (rxFifo.buffer.write rxFifo.putIndex [ch]) SPI_SLAVE_RX_FIFO_LEN
      rxFifo.getIndex (q.length + 1) 1 (by omega) (by omega) (by omega)
    rw [rep.contents_put, ← advance_eq_slot getLt, Nat.add_sub_cancel] at rest
    rw [length]
    exact rest.symm
  · intro _
    rw [length, full]

/-- A byte joins the queue, which drops its oldest when it is full. -/
theorem put (rep : RxQueue rxFifo q) (ch : UInt8) :
    RxQueue (putByte rxFifo ch) (Fifo.newest capacity (q ++ [ch])) := by
  by_cases room : q.length < capacity
  · have fits : (q ++ [ch]).length ≤ capacity := by
      rw [List.length_append, List.length_singleton]
      omega
    rw [Fifo.newest_of_le fits]
    exact rep.put_room ch room
  · have full : q.length = capacity := Nat.le_antisymm rep.length_le (Nat.not_lt.mp room)
    rw [Fifo.newest, List.length_append, List.length_singleton, full, Nat.add_sub_cancel_left]
    exact rep.put_full ch full

theorem callback (rep : RxQueue rxFifo q) (bytes : List UInt8) :
    RxQueue (bkSpiSlaveSpiRxCallback rxFifo bytes) (Fifo.newest capacity (q ++ bytes)) := by
  induction bytes generalizing rxFifo q with
  | nil =>
    rw [List.append_nil, Fifo.newest_of_le rep.length_le]
    exact rep
  | cons ch bytes ih =>
    have next := ih (rep.put ch)
    rw [Fifo.newest_append, List.append_assoc] at next
    exact next

/-- An empty queue gives nothing. -/
theorem take_nil (rep : RxQueue rxFifo []) : takeByte rxFifo = none := by
  have span : Ring.span SPI_SLAVE_RX_FIFO_LEN rxFifo.getIndex rxFifo.putIndex = 0 := rep.length.symm
  have met := (Ring.span_eq_zero _ _ _ rep.get_lt).mp span
  have down : rxFifo.isFull = false := by
    cases up : rxFifo.isFull with
    | false => rfl
    | true => exact absurd (rep.full up) (by decide)
  rw [takeByte, if_pos ⟨met, down⟩]

/-- The oldest byte leaves the queue. -/
theorem take_cons {ch : UInt8} (rep : RxQueue rxFifo (ch :: q)) :
    ∃ rxFifo', takeByte rxFifo = some (ch, rxFifo') ∧ RxQueue rxFifo' q := by
  have putLt := rep.put_lt
  have getLt := rep.get_lt
  have low := rep.length_le
  have length := rep.length
  rw [List.length_cons] at low length
  rw [capacity] at low
  have apart : rxFifo.getIndex ≠ rxFifo.putIndex := fun met => by
    rw [(Ring.span_eq_zero _ _ _ getLt).mpr met] at length
    omega
  have first := Ring.contents_add rxFifo.buffer SPI_SLAVE_RX_FIFO_LEN rxFifo.getIndex 1 q.length
    (by omega) (by omega)
  have queue := rep.queue
  rw [List.length_cons, Nat.add_comm, first, ← advance_eq_slot getLt] at queue
  have single : Ring.contents rxFifo.buffer SPI_SLAVE_RX_FIFO_LEN rxFifo.getIndex 1 =
      [rxFifo.buffer rxFifo.getIndex] := by
    simp [Ring.contents, Ring.slot_zero _ _ getLt]
  rw [single, List.singleton_append, List.cons.injEq] at queue
  obtain ⟨oldest, rest⟩ := queue
  refine ⟨{ rxFifo with getIndex := advance rxFifo.getIndex, isFull := false },
    by rw [takeByte, if_neg fun both => apart both.1, oldest], putLt, advance_lt _, ?_, rest, by simp⟩
  have shrunk := Ring.span_slot_left SPI_SLAVE_RX_FIFO_LEN rxFifo.getIndex rxFifo.putIndex 1 (by omega)
    (.inl putLt) (by omega)
  rw [← length, Nat.add_sub_cancel, ← advance_eq_slot getLt] at shrunk
  exact shrunk.symm

end RxQueue

theorem takeBytes_drains {rxFifo : SpiRxFifo} {q : List UInt8} (rep : RxQueue rxFifo q) (size : Nat)
    (runs : List (List UInt8)) :
    RxQueue (takeBytes rxFifo size runs).1 (Fifo.drain capacity q size runs).1 ∧
      (takeBytes rxFifo size runs).2 = (Fifo.drain capacity q size runs).2 := by
  induction size generalizing rxFifo q runs with
  | zero =>
    simp only [takeBytes, Fifo.drain]
    exact ⟨rep.callback _, trivial⟩
  | succ size ih =>
    have arrived := rep.callback (runs.headD [])
    simp only [takeBytes, Fifo.drain]
    generalize Fifo.newest capacity (q ++ runs.headD []) = q' at arrived ⊢
    generalize bkSpiSlaveSpiRxCallback rxFifo (runs.headD []) = rxFifo' at arrived ⊢
    cases q' with
    | nil =>
      simp only [arrived.take_nil]
      exact ⟨arrived.callback _, trivial⟩
    | cons ch q' =>
      obtain ⟨left, taken, rest⟩ := arrived.take_cons
      obtain ⟨last, bytes⟩ := ih rest runs.tail
      rw [taken]
      exact ⟨last, congrArg _ bytes⟩

/-! ### Runs -/

/-- A run of the callback, or one of the two calls. -/
inductive SpiSlaveOp
  | spiRxCallback (bytes : List UInt8)
  | getRxData (rxBuf : Bool) (len : Nat) (runs : List (List UInt8))
  | getRxFifo

def spiSlaveStep (rxFifo : SpiRxFifo) : SpiSlaveOp → SpiRxFifo × Fifo.Answer UInt8
  | .spiRxCallback bytes => (bkSpiSlaveSpiRxCallback rxFifo bytes, .taken bytes.length)
  | .getRxData rxBuf len runs =>
    ((bkSpiSlaveGetRxData rxFifo rxBuf len runs).1, .bytes (bkSpiSlaveGetRxData rxFifo rxBuf len runs).2)
  | .getRxFifo => (rxFifo, .size (bkSpiSlaveGetRxFifo rxFifo))

def SpiSlaveOp.onQueue : SpiSlaveOp → Fifo.LossyCall UInt8
  | .spiRxCallback bytes => .arrive bytes
  | .getRxData rxBuf len runs => .take (if rxBuf then len else 0) runs
  | .getRxFifo => .used

theorem spiSlaveStep_simulates (rxFifo : SpiRxFifo) (q : List UInt8) (op : SpiSlaveOp)
    (rep : RxQueue rxFifo q) :
    RxQueue (spiSlaveStep rxFifo op).1 (Fifo.serveLossy capacity q op.onQueue).1 ∧
      (spiSlaveStep rxFifo op).2 = (Fifo.serveLossy capacity q op.onQueue).2 := by
  cases op with
  | spiRxCallback bytes =>
    simp only [spiSlaveStep, SpiSlaveOp.onQueue, Fifo.serveLossy]
    exact ⟨rep.callback bytes, trivial⟩
  | getRxData rxBuf len runs =>
    cases rxBuf with
    | false =>
      simp only [spiSlaveStep, bkSpiSlaveGetRxData, SpiSlaveOp.onQueue, Fifo.serveLossy, Fifo.drain,
        Bool.false_eq_true, if_false]
      exact ⟨rep.callback _, trivial⟩
    | true =>
      obtain ⟨last, bytes⟩ := takeBytes_drains rep len runs
      exact ⟨last, congrArg _ bytes⟩
  | getRxFifo => exact ⟨rep, congrArg _ rep.getRxFifo_eq⟩

/-- Every run of callbacks and calls answers as a queue of 511 bytes that drops its oldest. In the state
it reaches the FIFO reports the length of the queue, a call that no callback interrupts returns the
oldest bytes, and what was returned so far arrived in that order, each byte once. -/
theorem rx_fifo_refines_lossy (ops : List SpiSlaveOp) :
    let run := Machine.run spiSlaveStep SpiRxFifo.init ops
    let queue := Machine.run (Fifo.serveLossy capacity) [] (ops.map SpiSlaveOp.onQueue)
    run.2 = queue.2 ∧ bkSpiSlaveGetRxFifo run.1 = queue.1.length ∧
      (∀ len, (bkSpiSlaveGetRxData run.1 true len []).2 = queue.1.take len ∧
        RxQueue (bkSpiSlaveGetRxData run.1 true len []).1 (queue.1.drop len)) ∧
      ((run.2.map Fifo.Answer.given).flatten ++ queue.1).Sublist
        ((ops.map SpiSlaveOp.onQueue).map Fifo.LossyCall.arrivals).flatten := by
  intro run queue
  obtain ⟨rep, outs⟩ := Machine.run_simulates spiSlaveStep
    (fun q op => Fifo.serveLossy capacity q op.onQueue) RxQueue (fun _ => True)
    (fun rxFifo q op rep _ => spiSlaveStep_simulates rxFifo q op rep) SpiRxFifo.init [] ops RxQueue.init
    (fun _ _ => trivial)
  rw [← Machine.run_map (Fifo.serveLossy capacity) SpiSlaveOp.onQueue] at rep outs
  refine ⟨outs, rep.getRxFifo_eq, fun len => ?_, ?_⟩
  · obtain ⟨last, bytes⟩ := takeBytes_drains rep len []
    rw [Fifo.drain_undisturbed len rep.length_le] at last bytes
    exact ⟨bytes, last⟩
  · have once := Fifo.serveLossy_run_sublist capacity [] (ops.map SpiSlaveOp.onQueue)
    rwa [← outs] at once

end Bk7251.Spi
