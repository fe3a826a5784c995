import Mathlib.Data.List.Infix
import Bk7251.Lib.Bytes
import Bk7251.Spi.SpiMaster

/-!
# What a master transfer delivers

An invariant ties the bytes still to be written, those in the FIFOs and those shifted to the message under
way. It is kept by every step as long as CS is released and the answer handed back in time.
-/
namespace Bk7251.SpiMaster

open Lib

/-- The bytes of the message and the filler for the answer. -/
def expected (msg : Message) : List UInt8 :=
  msg.sendBuf.read 0 msg.sendLen.toNat ++ List.replicate msg.recvLen.toNat 0xff

/-- Exactly the expected bytes left while CS was taken, the buffer holds what came with the filler, and all
of that came during this message. -/
structure Right (o : Outcome) : Prop where
  sent : (o.shifts.filter Shift.cs).map Shift.sent = expected o.msg
  received : ∀ buf, o.recvBuf = some buf → buf.read 0 o.msg.recvLen.toNat =
    ((o.shifts.filter Shift.cs).drop o.msg.sendLen.toNat).map fun x => x.got.byte
  own : ∀ got ∈ o.stored, got.message = o.number

/-- There is an answer to be delivered. -/
def Message.Wants (msg : Message) : Prop := msg.recvBuf ≠ none ∧ msg.recvLen ≠ 0

/-! ### The invariant -/

/-- Interrupts may be enabled. -/
def TaskPc.opened : TaskPc → Bool
  | .enableTx | .wait | .disableRx | .disableTx => true
  | _ => false

/-- CS is taken. -/
def TaskPc.inCs : TaskPc → Bool
  | .none | .takeCs | .clear => false
  | _ => true

/-- The wait is behind. -/
def TaskPc.past : TaskPc → Bool
  | .takeCs | .enableRx | .enableTx | .wait => false
  | _ => true

/-- The number of bytes that are still to be written into the FIFO; in the second half of a turn one is
written and not yet counted. -/
def left (isr : IsrPc) (totalLen : UInt32) : Nat :=
  match isr with
  | .read _ true => totalLen.toNat - 1
  | _ => totalLen.toNat

/-- What left, what is in the FIFO and what is still to be written are the expected bytes. -/
structure Sends (msg : Message) (shifts : List Shift) (txFifo : List UInt8) (dev : Dev) (left : Nat) :
    Prop where
  fits : msg.sendLen.toNat + msg.recvLen.toNat < 2 ^ 32
  ahead : dev.txLen.toNat ≤ left
  sent : expected msg = shifts.map Shift.sent ++ txFifo ++
    (dev.txBuf.read dev.txPtr dev.txLen.toNat ++ List.replicate (left - dev.txLen.toNat) 0xff)

/-- What came is what was taken from the FIFO and what is still in it, and of what was taken all but the
first `sendLen` bytes are in the buffer. -/
structure Takes (msg : Message) (shifts : List Shift) (rxFifo : List RxByte) (dev : Dev)
    (stored : List RxByte) (taken : List RxByte) (buf : Mem UInt8) : Prop where
  came : shifts.map Shift.got = taken ++ rxFifo
  drop : dev.rxDrop.toNat = msg.sendLen.toNat - taken.length
  offset : dev.rxOffset.toNat = taken.length - msg.sendLen.toNat
  kept : stored = taken.drop msg.sendLen.toNat
  rxPtr : dev.rxPtr = some buf
  buffer : buf.read 0 (taken.length - msg.sendLen.toNat) = stored.map RxByte.byte

structure Receives (msg : Message) (shifts : List Shift) (rxFifo : List RxByte) (dev : Dev)
    (stored : List RxByte) : Prop where
  rxLen : dev.rxLen = msg.recvLen
  present : dev.rxPtr = none ↔ msg.recvBuf = none
  nothing : ¬ msg.Wants → stored = []
  takes : msg.Wants → ∃ taken buf, Takes msg shifts rxFifo dev stored taken buf

/-- The semaphore is given once a message, when all its bytes are written. -/
structure Signals (s : State) : Prop where
  sem : s.txSem = true → s.dev.txFinish = true ∧ s.dev.totalLen = 0
  past : s.task.past = true → s.txSem = false ∧ s.dev.txFinish = true ∧ s.dev.totalLen = 0
  pending : ∀ status, s.isr = .read status true → s.dev.totalLen ≠ 0

structure Inv (s : State) : Prop where
  outcomes : ∀ o ∈ s.outcomes, Right o
  quiet : s.task.opened = false → s.isr = .none ∧ s.rxIntEn = false ∧ s.txIntEn = false
  rxOff : s.task = .disableTx → s.rxIntEn = false
  cs : s.task.inCs = true → s.cs = true
  empty : s.task.inCs = false → s.txFifo = []
  shiftsCs : ∀ x ∈ s.shifts, x.cs = true
  tagged : ∀ x ∈ s.shifts, x.got.message = s.number
  signals : Signals s
  sends : s.task ≠ .none → Sends s.msg s.shifts s.txFifo s.dev (left s.isr s.dev.totalLen)
  receives : s.task ≠ .none → Receives s.msg s.shifts s.rxFifo s.dev s.stored

theorem length_expected (msg : Message) :
    (expected msg).length = msg.sendLen.toNat + msg.recvLen.toNat := by
  rw [expected, List.length_append, Mem.length_read, List.length_replicate]

section

variable {msg : Message} {shifts : List Shift} {txFifo : List UInt8} {rxFifo : List RxByte} {dev : Dev}
  {stored : List RxByte} {got : RxByte} {n : Nat}

/-- Never more is shifted than the message is long. -/
theorem Sends.length_shifts (sends : Sends msg shifts txFifo dev n) :
    shifts.length ≤ msg.sendLen.toNat + msg.recvLen.toNat := by
  have lengths := congrArg List.length sends.sent
  simp only [length_expected, List.length_append, List.length_map] at lengths
  omega

/-- Nothing of a message of this length has left yet. -/
theorem Sends.begin (fits : msg.sendLen.toNat + msg.recvLen.toNat < 2 ^ 32) {dev : Dev}
    (txBuf : dev.txBuf = msg.sendBuf) (txPtr : dev.txPtr = 0) (txLen : dev.txLen = msg.sendLen) :
    Sends msg [] [] dev (msg.sendLen.toNat + msg.recvLen.toNat) := by
  refine ⟨fits, ?_, ?_⟩
  · rw [txLen]
    exact Nat.le_add_right _ _
  · rw [txBuf, txPtr, txLen, Nat.add_sub_cancel_left]
    rfl

/-- The next byte of the message goes into the FIFO. -/
theorem Sends.write_byte (sends : Sends msg shifts txFifo dev n) (bytes : dev.txLen ≠ 0) :
    Sends msg shifts (txFifo ++ [dev.txBuf dev.txPtr])
      { dev with txLen := dev.txLen - 1, txPtr := dev.txPtr + 1 } (n - 1) := by
  have ahead := sends.ahead
  have some_bytes := (toNat_ne_zero dev.txLen).mp bytes
  have fewer := toNat_pred dev.txLen bytes
  refine ⟨sends.fits, ?_, ?_⟩
  · change (dev.txLen - 1).toNat ≤ n - 1
    omega
  · have whole : dev.txLen.toNat = 1 + (dev.txLen - 1).toNat := by omega
    have next : dev.txBuf.read dev.txPtr dev.txLen.toNat =
        dev.txBuf dev.txPtr :: dev.txBuf.read (dev.txPtr + 1) (dev.txLen - 1).toNat := by
      rw [whole, Mem.read_add]
      rfl
    have filler : n - 1 - (dev.txLen - 1).toNat = n - dev.txLen.toNat := by omega
    rw [sends.sent, next, filler]
    simp only [List.append_assoc, List.cons_append, List.nil_append]

/-- After the message a byte of filler goes into the FIFO. -/
theorem Sends.write_filler (sends : Sends msg shifts txFifo dev n) (no_bytes : dev.txLen = 0)
    (more : n ≠ 0) : Sends msg shifts (txFifo ++ [0xff]) dev (n - 1) := by
  have zero : dev.txLen.toNat = 0 := by
    rw [no_bytes]
    rfl
  refine ⟨sends.fits, ?_, ?_⟩
  · rw [zero]
    exact Nat.zero_le _
  · have next : List.replicate n (0xff : UInt8) = 0xff :: List.replicate (n - 1) 0xff := by
      rw [← List.replicate_succ, Nat.sub_add_cancel (Nat.one_le_iff_ne_zero.mpr more)]
    rw [sends.sent, zero, Nat.sub_zero, Nat.sub_zero, next]
    simp only [Mem.read_zero, List.append_assoc, List.cons_append, List.nil_append]

/-- A byte of the FIFO leaves. -/
theorem Sends.shift {x : Shift} (sends : Sends msg shifts (x.sent :: txFifo) dev n) :
    Sends msg (shifts ++ [x]) txFifo dev n := by
  refine ⟨sends.fits, sends.ahead, ?_⟩
  rw [sends.sent]
  simp only [List.map_append, List.map_cons, List.map_nil, List.append_assoc, List.cons_append,
    List.nil_append]

/-- With nothing left to write and nothing in the FIFO, all of it has left. -/
theorem Sends.all (sends : Sends msg shifts [] dev 0) : shifts.map Shift.sent = expected msg := by
  have zero : dev.txLen.toNat = 0 := Nat.le_zero.mp sends.ahead
  rw [sends.sent, zero, Mem.read_zero, Nat.sub_zero, List.replicate_zero, List.append_nil, List.append_nil,
    List.append_nil]

/-! ### A byte from the FIFO -/

/-- The counters of the other direction stay. -/
theorem deliverByte_tx (dev : Dev) (stored : List RxByte) (got : RxByte) :
    (deliverByte dev stored got).1.txBuf = dev.txBuf ∧ (deliverByte dev stored got).1.txPtr = dev.txPtr ∧
      (deliverByte dev stored got).1.txLen = dev.txLen ∧
      (deliverByte dev stored got).1.totalLen = dev.totalLen ∧
      (deliverByte dev stored got).1.txFinish = dev.txFinish := by
  unfold deliverByte
  repeat' split
  all_goals exact ⟨rfl, rfl, rfl, rfl, rfl⟩

theorem Sends.congr {dev' : Dev} (sends : Sends msg shifts txFifo dev n) (txBuf : dev'.txBuf = dev.txBuf)
    (txPtr : dev'.txPtr = dev.txPtr) (txLen : dev'.txLen = dev.txLen) :
    Sends msg shifts txFifo dev' n := by
  refine ⟨sends.fits, ?_, ?_⟩
  · rw [txLen]
    exact sends.ahead
  · rw [txBuf, txPtr, txLen]
    exact sends.sent

theorem Receives.congr {dev' : Dev} (receives : Receives msg shifts rxFifo dev stored)
    (rxLen : dev'.rxLen = dev.rxLen) (rxDrop : dev'.rxDrop = dev.rxDrop)
    (rxOffset : dev'.rxOffset = dev.rxOffset) (rxPtr : dev'.rxPtr = dev.rxPtr) :
    Receives msg shifts rxFifo dev' stored := by
  refine ⟨rxLen.trans receives.rxLen, rxPtr ▸ receives.present, receives.nothing, fun wanted => ?_⟩
  obtain ⟨taken, buf, takes⟩ := receives.takes wanted
  exact ⟨taken, buf, takes.came, rxDrop ▸ takes.drop, rxOffset ▸ takes.offset, takes.kept,
    rxPtr.trans takes.rxPtr, takes.buffer⟩

/-- A byte that came with the message itself is dropped. -/
theorem Takes.deliver_early {taken : List RxByte} {buf : Mem UInt8}
    (takes : Takes msg shifts (got :: rxFifo) dev stored taken buf)
    (early : taken.length < msg.sendLen.toNat) :
    Takes msg shifts rxFifo (deliverByte dev stored got).1 (deliverByte dev stored got).2
      (taken ++ [got]) buf := by
  have grown : (taken ++ [got]).length = taken.length + 1 := List.length_append
  have drop := takes.drop
  have offset := takes.offset
  have dropping : dev.rxDrop ≠ 0 := by
    rw [toNat_ne_zero, drop]
    omega
  have delivered : deliverByte dev stored got = ({ dev with rxDrop := dev.rxDrop - 1 }, stored) := by
    simp only [deliverByte, takes.rxPtr, if_pos dropping]
  rw [delivered]
  refine ⟨?_, ?_, ?_, ?_, takes.rxPtr, ?_⟩
  · rw [takes.came, List.append_assoc, List.singleton_append]
  · rw [grown]
    have fewer := toNat_pred dev.rxDrop dropping
    change (dev.rxDrop - 1).toNat = _
    omega
  · rw [grown]
    change dev.rxOffset.toNat = _
    omega
  · have before : taken.drop msg.sendLen.toNat = [] := List.drop_eq_nil_of_le (Nat.le_of_lt early)
    have after : (taken ++ [got]).drop msg.sendLen.toNat = [] :=
      List.drop_eq_nil_of_le (by rw [grown]; omega)
    rw [takes.kept, before, after]
  · -- nothing of the answer came before, and nothing has now
    have none_yet : taken.length - msg.sendLen.toNat = 0 := by omega
    have none_now : (taken ++ [got]).length - msg.sendLen.toNat = 0 := by
      rw [grown]
      omega
    have buffer := takes.buffer
    rw [none_yet] at buffer
    rw [none_now]
    exact buffer

/-- A byte of the answer goes into the buffer. -/
theorem Takes.deliver_late {taken : List RxByte} {buf : Mem UInt8}
    (takes : Takes msg shifts (got :: rxFifo) dev stored taken buf)
    (late : msg.sendLen.toNat ≤ taken.length) (room : taken.length < msg.sendLen.toNat + dev.rxLen.toNat) :
    Takes msg shifts rxFifo (deliverByte dev stored got).1 (deliverByte dev stored got).2
      (taken ++ [got]) (buf.write dev.rxOffset.toNat [got.byte]) := by
  have grown : (taken ++ [got]).length = taken.length + 1 := List.length_append
  have drop := takes.drop
  have offset := takes.offset
  have dropped : ¬ dev.rxDrop ≠ 0 := by
    rw [toNat_ne_zero, drop]
    omega
  have inside : dev.rxOffset < dev.rxLen := by
    rw [UInt32.lt_iff_toNat_lt]
    omega
  have delivered : deliverByte dev stored got =
      ({ dev with
          rxPtr := some (buf.write dev.rxOffset.toNat [got.byte])
          rxOffset := dev.rxOffset + 1 }, stored ++ [got]) := by
    simp only [deliverByte, takes.rxPtr, if_neg dropped, if_pos inside]
  have next : (taken ++ [got]).length - msg.sendLen.toNat = taken.length - msg.sendLen.toNat + 1 := by
    rw [grown]
    omega
  rw [delivered]
  refine ⟨?_, ?_, ?_, ?_, rfl, ?_⟩
  · rw [takes.came, List.append_assoc, List.singleton_append]
  · rw [grown]
    change dev.rxDrop.toNat = _
    omega
  · have short := dev.rxLen.toNat_lt
    have one : (1 : UInt32).toNat = 1 := rfl
    rw [toNat_add _ _ (by omega), offset, next, one]
  · rw [takes.kept, List.drop_append_of_le_length late]
  · rw [next, offset, Mem.read_write_push, takes.buffer, List.map_append]
    rfl

theorem Takes.deliver {taken : List RxByte} {buf : Mem UInt8}
    (takes : Takes msg shifts (got :: rxFifo) dev stored taken buf) (rxLen : dev.rxLen = msg.recvLen)
    (few : shifts.length ≤ msg.sendLen.toNat + msg.recvLen.toNat) :
    ∃ buf, Takes msg shifts rxFifo (deliverByte dev stored got).1 (deliverByte dev stored got).2
      (taken ++ [got]) buf := by
  by_cases early : taken.length < msg.sendLen.toNat
  · exact ⟨buf, takes.deliver_early early⟩
  · have lengths := congrArg List.length takes.came
    simp only [List.length_map, List.length_append, List.length_cons] at lengths
    exact ⟨_, takes.deliver_late (Nat.not_lt.mp early) (by rw [rxLen]; omega)⟩

theorem Receives.deliver (receives : Receives msg shifts (got :: rxFifo) dev stored)
    (sends : Sends msg shifts txFifo dev n) :
    Receives msg shifts rxFifo (deliverByte dev stored got).1 (deliverByte dev stored got).2 := by
  have rxLen : (deliverByte dev stored got).1.rxLen = dev.rxLen := by
    unfold deliverByte
    repeat' split
    all_goals rfl
  have present : (deliverByte dev stored got).1.rxPtr = none ↔ dev.rxPtr = none := by
    unfold deliverByte
    split
    · exact Iff.rfl
    · next rxbuf rxPtr =>
      rw [rxPtr]
      repeat' split
      all_goals simp [rxPtr]
  refine ⟨rxLen.trans receives.rxLen, present.trans receives.present, fun unwanted => ?_, fun wanted => ?_⟩
  · have empty := receives.nothing unwanted
    unfold deliverByte
    cases rxPtr : dev.rxPtr with
    | none => exact empty
    | some rxbuf =>
      -- a buffer without a length
      have zero : dev.rxLen = 0 := by
        by_contra positive
        refine unwanted ⟨fun absent => ?_, receives.rxLen ▸ positive⟩
        have missing := receives.present.mpr absent
        rw [rxPtr] at missing
        exact absurd missing (Option.some_ne_none rxbuf)
      have full : ¬ dev.rxOffset < dev.rxLen := by
        rw [zero]
        exact UInt32.not_lt_zero
      dsimp only
      rw [if_neg full]
      split
      · exact empty
      · exact empty
  · obtain ⟨taken, buf, takes⟩ := receives.takes wanted
    obtain ⟨buf, takes⟩ := takes.deliver receives.rxLen sends.length_shifts
    exact ⟨_, buf, takes⟩

/-- Nothing has come yet. -/
theorem Receives.begin {dev : Dev} (clean : msg.Wants → rxFifo = []) (rxLen : dev.rxLen = msg.recvLen)
    (rxPtr : dev.rxPtr = msg.recvBuf) (rxDrop : dev.rxDrop = msg.sendLen) (rxOffset : dev.rxOffset = 0) :
    Receives msg [] rxFifo dev [] := by
  refine ⟨rxLen, by rw [rxPtr], fun _ => rfl, fun wanted => ?_⟩
  obtain ⟨buf, present⟩ := Option.ne_none_iff_exists'.mp wanted.1
  refine ⟨[], buf, ?_, ?_, ?_, List.drop_nil.symm, rxPtr.trans present, ?_⟩
  · rw [clean wanted]
    rfl
  · rw [rxDrop]
    rfl
  · rw [rxOffset, List.length_nil, Nat.zero_sub]
    rfl
  · rw [List.length_nil, Nat.zero_sub]
    rfl

/-- A byte comes behind those in the FIFO. -/
theorem Receives.shift (receives : Receives msg shifts rxFifo dev stored) (x : Shift) :
    Receives msg (shifts ++ [x]) (rxFifo ++ [x.got]) dev stored := by
  refine ⟨receives.rxLen, receives.present, receives.nothing, fun wanted => ?_⟩
  obtain ⟨taken, buf, takes⟩ := receives.takes wanted
  refine ⟨taken, buf, ?_, takes.drop, takes.offset, takes.kept, takes.rxPtr, takes.buffer⟩
  rw [List.map_append, takes.came, List.append_assoc]
  rfl

/-- Once everything that came was taken, all of the answer is stored, and it is in the buffer. -/
theorem Takes.all {taken : List RxByte} {buf : Mem UInt8} (takes : Takes msg shifts [] dev stored taken buf)
    (length : shifts.length = msg.sendLen.toNat + msg.recvLen.toNat) :
    stored = (shifts.drop msg.sendLen.toNat).map Shift.got ∧
      buf.read 0 msg.recvLen.toNat = stored.map RxByte.byte := by
  have came : shifts.map Shift.got = taken := takes.came.trans (List.append_nil taken)
  have answer : taken.length - msg.sendLen.toNat = msg.recvLen.toNat := by
    rw [← came, List.length_map, length, Nat.add_sub_cancel_left]
  refine ⟨?_, ?_⟩
  · rw [List.map_drop, came]
    exact takes.kept
  · rw [← answer]
    exact takes.buffer

end

/-! ### The interrupt -/

variable {depth : Nat} {s : State}

theorem opened_inCs {task : TaskPc} (opened : task.opened = true) : task.inCs = true ∧ task ≠ .none := by
  cases task <;> simp_all [TaskPc.opened, TaskPc.inCs]

namespace Inv

/-- An interrupt runs while the transfer waits or is next to its wait. -/
theorem opened_of_isr (inv : Inv s) (running : s.isr ≠ .none) : s.task.opened = true := by
  by_contra closed
  exact running (inv.quiet (Bool.eq_false_iff.mpr closed)).1

/-- A step of the interrupt leaves most things alone. -/
theorem isr_step (inv : Inv s) (running : s.isr ≠ .none) {txFifo : List UInt8} {rxFifo : List RxByte}
    {txIntEn txSem : Bool} {dev : Dev} {isr : IsrPc} {stored : List RxByte}
    (signals : Signals { s with txFifo, rxFifo, txIntEn, txSem, dev, isr, stored })
    (sends : Sends s.msg s.shifts txFifo dev (left isr dev.totalLen))
    (receives : Receives s.msg s.shifts rxFifo dev stored) :
    Inv { s with txFifo, rxFifo, txIntEn, txSem, dev, isr, stored } := by
  have opened := inv.opened_of_isr running
  refine ⟨inv.outcomes, fun closed => ?_, inv.rxOff, inv.cs, fun outside => ?_, inv.shiftsCs, inv.tagged,
    signals, fun _ => sends, fun _ => receives⟩
  · change s.task.opened = false at closed
    rw [opened] at closed
    exact absurd closed.symm Bool.false_ne_true
  · change s.task.inCs = false at outside
    rw [(opened_inCs opened).1] at outside
    exact absurd outside.symm Bool.false_ne_true

variable {status : Status}

/-- A byte taken from the FIFO changes nothing else that matters. -/
theorem taken {got : RxByte} {rest : List RxByte} (inv : Inv s) (running : s.isr ≠ .none)
    (rxFifo : s.rxFifo = got :: rest) : Inv (deliver { s with rxFifo := rest } got) := by
  have busy : s.task ≠ .none := (opened_inCs (inv.opened_of_isr running)).2
  have sends := inv.sends busy
  have receives := inv.receives busy
  obtain ⟨txBuf, txPtr, txLen, totalLen, txFinish⟩ := deliverByte_tx s.dev s.stored got
  rw [rxFifo] at receives
  refine inv.isr_step running ⟨?_, ?_, ?_⟩ ?_ (receives.deliver sends)
  · simp only [txFinish, totalLen]
    exact inv.signals.sem
  · simp only [txFinish, totalLen]
    exact inv.signals.past
  · simp only [totalLen]
    exact inv.signals.pending
  · simp only [totalLen]
    exact sends.congr txBuf txPtr txLen

theorem rxCallback (inv : Inv s) (isr : s.isr = .rxCallback status) : Inv (rxCallbackStep s status) := by
  have running : s.isr ≠ .none := by simp [isr]
  have busy : s.task ≠ .none := (opened_inCs (inv.opened_of_isr running)).2
  have sends := inv.sends busy
  rw [isr] at sends
  have ended : Inv { s with isr := .write status } :=
    inv.isr_step running
      ⟨inv.signals.sem, inv.signals.past, fun _ written => nomatch written⟩ sends (inv.receives busy)
  unfold rxCallbackStep
  split
  · cases rxFifo : s.rxFifo with
    | nil =>
      simp only [spiReadRxfifo, rxFifo]
      rw [← rxFifo]
      exact ended
    | cons got rest =>
      simp only [spiReadRxfifo, rxFifo]
      exact inv.taken running rxFifo
  · exact ended

theorem write (inv : Inv s) (isr : s.isr = .write status) : Inv (writeStep depth s status) := by
  have running : s.isr ≠ .none := by simp [isr]
  have busy : s.task ≠ .none := (opened_inCs (inv.opened_of_isr running)).2
  have sends := inv.sends busy
  have receives := inv.receives busy
  rw [isr] at sends
  unfold writeStep
  by_cases work : status.tx = true ∧ s.dev.totalLen ≠ 0
  · have more := (toNat_ne_zero s.dev.totalLen).mp work.2
    have refused : Inv { s with isr := .read status false } :=
      inv.isr_step running
        ⟨inv.signals.sem, inv.signals.past, fun _ written => nomatch written⟩ sends receives
    rw [if_pos work]
    -- first the bytes of the message, then the filler
    by_cases bytes : s.dev.txLen ≠ 0
    · rw [if_pos bytes]
      unfold spiWriteTxfifo
      by_cases room : s.txFifo.length < depth
      · rw [if_pos room]
        exact inv.isr_step running ⟨inv.signals.sem, inv.signals.past, fun _ _ => work.2⟩
          (sends.write_byte bytes) (receives.congr rfl rfl rfl rfl)
      · rw [if_neg room]
        exact refused
    · rw [if_neg bytes]
      unfold spiWriteTxfifo
      by_cases room : s.txFifo.length < depth
      · rw [if_pos room]
        exact inv.isr_step running ⟨inv.signals.sem, inv.signals.past, fun _ _ => work.2⟩
          (sends.write_filler (not_not.mp bytes) more) receives
      · rw [if_neg room]
        exact refused
  · rw [if_neg work]
    exact inv.isr_step running
      ⟨inv.signals.sem, inv.signals.past, fun _ written => nomatch written⟩ sends receives

/-- What the second half of a turn does after its read. -/
def countStep (s : State) (status : Status) (txOk : Bool) : State :=
  if txOk then
    let s := { s with dev.totalLen := s.dev.totalLen - 1 }
    if s.dev.totalLen = 0 then { s with txIntEn := false, isr := .finish status }
    else { s with isr := .write status }
  else { s with isr := .finish status }

theorem count {txOk : Bool} (inv : Inv s) (isr : s.isr = .read status txOk) :
    Inv (countStep s status txOk) := by
  have running : s.isr ≠ .none := by simp [isr]
  have busy : s.task ≠ .none := (opened_inCs (inv.opened_of_isr running)).2
  have sends := inv.sends busy
  have receives := inv.receives busy
  rw [isr] at sends
  unfold countStep
  cases txOk with
  | false =>
    exact inv.isr_step running
      ⟨inv.signals.sem, inv.signals.past, fun _ written => nomatch written⟩ sends receives
  | true =>
    have pending := inv.signals.pending status isr
    have unsignalled (given : s.txSem = true) : False := pending (inv.signals.sem given).2
    have waiting (past : s.task.past = true) : False := pending (inv.signals.past past).2.2
    have sends' : Sends s.msg s.shifts s.txFifo { s.dev with totalLen := s.dev.totalLen - 1 }
        (s.dev.totalLen - 1).toNat := by
      rw [toNat_pred _ pending]
      exact ⟨sends.fits, sends.ahead, sends.sent⟩
    rw [if_pos rfl]
    dsimp only
    -- the same for the last byte and for any other
    split
    all_goals
      exact inv.isr_step running
        ⟨fun given => (unsignalled given).elim, fun past => (waiting past).elim,
          fun _ written => nomatch written⟩ sends' (receives.congr rfl rfl rfl rfl)

theorem read {txOk : Bool} (inv : Inv s) (isr : s.isr = .read status txOk) :
    Inv (readStep s status txOk) := by
  have running : s.isr ≠ .none := by simp [isr]
  cases rxFifo : s.rxFifo with
  | nil =>
    have nothing : readStep s status txOk = countStep s status txOk := by
      simp only [readStep, countStep, spiReadRxfifo, rxFifo]
    rw [nothing]
    exact inv.count isr
  | cons got rest =>
    have one : readStep s status txOk = countStep (deliver { s with rxFifo := rest } got) status txOk := by
      simp only [readStep, countStep, spiReadRxfifo, rxFifo]
    rw [one]
    exact (inv.taken running rxFifo).count isr

theorem finish (inv : Inv s) (isr : s.isr = .finish status) : Inv (finishStep s status) := by
  have running : s.isr ≠ .none := by simp [isr]
  have busy : s.task ≠ .none := (opened_inCs (inv.opened_of_isr running)).2
  have sends := inv.sends busy
  have receives := inv.receives busy
  rw [isr] at sends
  unfold finishStep
  split
  · next done =>
    refine inv.isr_step running
      ⟨fun _ => ⟨rfl, done.2.1⟩, fun past => ?_, fun _ written => nomatch written⟩
      (sends.congr rfl rfl rfl) (receives.congr rfl rfl rfl rfl)
    have set := (inv.signals.past past).2.1
    rw [done.2.2] at set
    exact absurd set Bool.false_ne_true
  · exact inv.isr_step running
      ⟨inv.signals.sem, inv.signals.past, fun _ written => nomatch written⟩ sends receives

theorem isrStep (inv : Inv s) : Inv (isrStep depth s) := by
  unfold SpiMaster.isrStep
  split
  · exact inv
  · next isr => exact inv.rxCallback isr
  · next isr => exact inv.write isr
  · next isr => exact inv.read isr
  · next isr => exact inv.finish isr

theorem isr_entry (inv : Inv s) (rx tx : Bool) : Inv (step depth s (.isr rx tx)) := by
  simp only [step]
  split
  · next isr =>
    split
    · next enabled =>
      have opened : s.task.opened = true := by
        by_contra closed
        have quiet := inv.quiet (Bool.eq_false_iff.mpr closed)
        rw [quiet.2.1, quiet.2.2] at enabled
        exact absurd enabled (by decide)
      obtain ⟨outcomes, -, rxOff, cs, empty, shiftsCs, tagged, signals, sends, receives⟩ := inv
      refine ⟨outcomes, fun closed => ?_, rxOff, cs, empty, shiftsCs, tagged,
        ⟨signals.sem, signals.past, fun _ written => nomatch written⟩, fun busy => ?_, receives⟩
      · rw [opened] at closed
        exact absurd closed.symm Bool.false_ne_true
      · have before := sends busy
        rw [isr] at before
        exact before
    · exact inv
  · exact inv

/-- A step of the shift register, as long as the other FIFO has room. -/
theorem shifted (inv : Inv s) (miso : UInt8) (room : s.txFifo ≠ [] → s.rxFifo.length < depth) :
    Inv (shift depth s miso) := by
  unfold shift
  split
  · exact inv
  · next sent rest txFifo =>
    have inside : s.task.inCs = true := by
      by_contra outside
      have empty := inv.empty (Bool.eq_false_iff.mpr outside)
      rw [txFifo] at empty
      exact List.cons_ne_nil _ _ empty
    have fits : s.rxFifo.length < depth := room (by rw [txFifo]; exact List.cons_ne_nil _ _)
    dsimp only
    rw [if_pos fits]
    obtain ⟨outcomes, quiet, rxOff, cs, -, shiftsCs, tagged, signals, sends, receives⟩ := inv
    refine ⟨outcomes, quiet, rxOff, cs, fun outside => ?_, fun x member => ?_, fun x member => ?_,
      ⟨signals.sem, signals.past, signals.pending⟩, fun busy => ?_, fun busy => ?_⟩
    · change s.task.inCs = false at outside
      rw [inside] at outside
      exact absurd outside.symm Bool.false_ne_true
    · rcases List.mem_append.mp member with old | new
      · exact shiftsCs x old
      · rw [List.mem_singleton.mp new]
        exact cs inside
    · rcases List.mem_append.mp member with old | new
      · exact tagged x old
      · rw [List.mem_singleton.mp new]
    · have before := sends busy
      rw [txFifo] at before
      exact before.shift (x := ⟨sent, ⟨miso, s.number⟩, s.cs⟩)
    · exact (receives busy).shift ⟨sent, ⟨miso, s.number⟩, s.cs⟩

end Inv

/-! ### The transfer -/

/-- A message whose length fits a `UINT32` begins with no byte left over from an earlier one. -/
theorem Inv.xfer (inv : Inv s) (msg : Message) (idle : s.isr = .none) (free : s.task = .none)
    (fits : msg.sendLen.toNat + msg.recvLen.toNat < 2 ^ 32) (clean : msg.Wants → s.rxFifo = []) :
    Inv (xfer s msg) := by
  have total : (msg.recvLen + msg.sendLen).toNat = msg.sendLen.toNat + msg.recvLen.toNat := by
    rw [UInt32.toNat_add, Nat.add_comm]
    exact Nat.mod_eq_of_lt fits
  have empty : s.txFifo = [] := inv.empty (by rw [free]; rfl)
  have quiet := inv.quiet (by rw [free]; rfl)
  have past := inv.signals.past (by rw [free]; rfl)
  unfold SpiMaster.xfer
  dsimp only
  split
  · refine ⟨inv.outcomes, fun _ => quiet, (fun last => nomatch last), (fun inside => nomatch inside),
      fun _ => empty, (fun _ member => nomatch member), (fun _ member => nomatch member),
      ⟨fun given => ?_, (fun late => nomatch late), fun _ written => ?_⟩, fun _ => ?_, fun _ => ?_⟩
    · change s.txSem = true at given
      rw [past.1] at given
      exact absurd given Bool.false_ne_true
    · rw [idle] at written
      exact nomatch written
    · change Sends msg [] s.txFifo _ (left s.isr (msg.recvLen + msg.sendLen))
      have length : left s.isr (msg.recvLen + msg.sendLen) = msg.sendLen.toNat + msg.recvLen.toNat := by
        rw [idle]
        exact total
      rw [length, empty]
      exact .begin fits rfl rfl rfl
    · exact .begin clean rfl rfl rfl rfl
  · next zero =>
    have none_at_all : msg.sendLen.toNat + msg.recvLen.toNat = 0 := by
      rw [← total, not_not.mp zero]
      rfl
    have no_send : msg.sendLen.toNat = 0 := by omega
    have no_recv : msg.recvLen.toNat = 0 := by omega
    refine ⟨fun o member => ?_, fun _ => quiet, ?_, ?_, fun _ => empty, (fun _ member => nomatch member),
      (fun _ member => nomatch member), ⟨inv.signals.sem, inv.signals.past, inv.signals.pending⟩, ?_, ?_⟩
    · rcases List.mem_append.mp member with old | new
      · exact inv.outcomes o old
      · rw [List.mem_singleton.mp new]
        refine ⟨?_, fun buf _ => ?_, (fun _ member => nomatch member)⟩
        · simp only [expected, no_send, no_recv]
          rfl
        · simp only [no_send, no_recv]
          rfl
    · exact inv.rxOff
    · exact inv.cs
    · exact fun busy => absurd free busy
    · exact fun busy => absurd free busy

/-- The call hands back what was promised. -/
theorem Inv.outcome_right (inv : Inv s) (idle : s.isr = .none) (last : s.task = .clear)
    (drained : s.msg.Wants → s.rxFifo = []) :
    Right ⟨s.msg, s.number, s.dev.rxPtr, s.stored, s.shifts⟩ := by
  have busy : s.task ≠ .none := by simp [last]
  have sends := inv.sends busy
  have receives := inv.receives busy
  have empty : s.txFifo = [] := inv.empty (by rw [last]; rfl)
  have done := (inv.signals.past (by rw [last]; rfl)).2.2
  have none_left : left s.isr s.dev.totalLen = 0 := by
    rw [idle, done]
    rfl
  have all_cs : s.shifts.filter Shift.cs = s.shifts := List.filter_eq_self.mpr inv.shiftsCs
  rw [none_left, empty] at sends
  have sent := sends.all
  have length : s.shifts.length = s.msg.sendLen.toNat + s.msg.recvLen.toNat := by
    have lengths := congrArg List.length sent
    rwa [length_expected, List.length_map] at lengths
  by_cases wanted : s.msg.Wants
  · obtain ⟨taken, buf, takes⟩ := receives.takes wanted
    rw [drained wanted] at takes
    obtain ⟨stored, buffer⟩ := takes.all length
    refine ⟨?_, fun buf' present => ?_, fun got member => ?_⟩
    · rw [all_cs, sent]
    · obtain rfl : buf = buf' := Option.some.inj (takes.rxPtr.symm.trans present)
      rw [all_cs, buffer, stored, List.map_map]
      rfl
    · change got ∈ s.stored at member
      rw [stored] at member
      obtain ⟨x, inside, rfl⟩ := List.mem_map.mp member
      exact inv.tagged x (List.mem_of_mem_drop inside)
  · refine ⟨?_, fun buf present => ?_, fun got member => ?_⟩
    · rw [all_cs, sent]
    · have zero : s.msg.recvLen = 0 := by
        by_contra positive
        refine wanted ⟨fun absent => ?_, positive⟩
        have missing : s.dev.rxPtr = some buf := present
        rw [receives.present.mpr absent] at missing
        exact nomatch missing
      have none_asked : s.msg.recvLen.toNat = 0 := by
        rw [zero]
        rfl
      have nothing : s.shifts.drop s.msg.sendLen.toNat = [] :=
        List.drop_eq_nil_of_le (by omega)
      simp only [none_asked, all_cs, nothing]
      rfl
    · change got ∈ s.stored at member
      rw [receives.nothing wanted] at member
      exact nomatch member

/-- A line of the call before its last one leaves most things alone. -/
theorem Inv.task_step (inv : Inv s) (busy : s.task ≠ .none) {task : TaskPc}
    {cs rxIntEn txIntEn txSem : Bool}
    (quiet : task.opened = false → s.isr = .none ∧ rxIntEn = false ∧ txIntEn = false)
    (rxOff : task = .disableTx → rxIntEn = false) (taken : task.inCs = true → cs = true)
    (empty : task.inCs = false → s.txFifo = [])
    (sem : txSem = true → s.dev.txFinish = true ∧ s.dev.totalLen = 0)
    (past : task.past = true → txSem = false ∧ s.dev.txFinish = true ∧ s.dev.totalLen = 0) :
    Inv { s with task, cs, rxIntEn, txIntEn, txSem } where
  outcomes := inv.outcomes
  quiet := quiet
  rxOff := rxOff
  cs := taken
  empty := empty
  shiftsCs := inv.shiftsCs
  tagged := inv.tagged
  signals := ⟨sem, past, inv.signals.pending⟩
  sends _ := inv.sends busy
  receives _ := inv.receives busy

/-- One line of the call: CS is released when the last byte has left, and the answer is handed back when
the last byte of it was read. -/
theorem Inv.taskStep (inv : Inv s) (idle : s.isr = .none)
    (shifted : s.task = .releaseCs → s.txFifo = [])
    (drained : s.task = .clear → s.msg.Wants → s.rxFifo = []) : Inv (taskStep s) := by
  cases task : s.task with
  | none => simpa only [SpiMaster.taskStep, task] using inv
  | takeCs =>
    simp only [SpiMaster.taskStep, task]
    have quiet := inv.quiet (by rw [task]; rfl)
    exact inv.task_step (by simp [task]) (fun _ => quiet) (fun last => nomatch last) (fun _ => rfl)
      (fun outside => nomatch outside) inv.signals.sem (fun late => nomatch late)
  | enableRx =>
    simp only [SpiMaster.taskStep, task]
    have taken := inv.cs (by rw [task]; rfl)
    exact inv.task_step (by simp [task]) (fun closed => nomatch closed) (fun last => nomatch last)
      (fun _ => taken) (fun outside => nomatch outside) inv.signals.sem (fun late => nomatch late)
  | enableTx =>
    simp only [SpiMaster.taskStep, task]
    have taken := inv.cs (by rw [task]; rfl)
    exact inv.task_step (by simp [task]) (fun closed => nomatch closed) (fun last => nomatch last)
      (fun _ => taken) (fun outside => nomatch outside) inv.signals.sem (fun late => nomatch late)
  | wait =>
    simp only [SpiMaster.taskStep, task]
    have taken := inv.cs (by rw [task]; rfl)
    split
    · next given =>
      -- the semaphore is taken, and what it stood for stays true
      have signalled := inv.signals.sem given
      exact inv.task_step (by simp [task]) (fun closed => nomatch closed) (fun last => nomatch last)
        (fun _ => taken) (fun outside => nomatch outside) (fun again => nomatch again)
        (fun _ => ⟨rfl, signalled⟩)
    · exact inv
  | disableRx =>
    simp only [SpiMaster.taskStep, task]
    have taken := inv.cs (by rw [task]; rfl)
    have past := inv.signals.past (by rw [task]; rfl)
    exact inv.task_step (by simp [task]) (fun closed => nomatch closed) (fun _ => rfl) (fun _ => taken)
      (fun outside => nomatch outside) inv.signals.sem (fun _ => past)
  | disableTx =>
    simp only [SpiMaster.taskStep, task]
    have taken := inv.cs (by rw [task]; rfl)
    have past := inv.signals.past (by rw [task]; rfl)
    exact inv.task_step (by simp [task]) (fun _ => ⟨idle, inv.rxOff task, rfl⟩) (fun last => nomatch last)
      (fun _ => taken) (fun outside => nomatch outside) inv.signals.sem (fun _ => past)
  | releaseCs =>
    simp only [SpiMaster.taskStep, task]
    have quiet := inv.quiet (by rw [task]; rfl)
    have past := inv.signals.past (by rw [task]; rfl)
    exact inv.task_step (by simp [task]) (fun _ => quiet) (fun last => nomatch last)
      (fun inside => nomatch inside) (fun _ => shifted task) inv.signals.sem (fun _ => past)
  | clear =>
    simp only [SpiMaster.taskStep, task]
    have unwritten (status : Status) : s.isr ≠ .read status true := by simp [idle]
    have quiet := inv.quiet (by rw [task]; rfl)
    have past := inv.signals.past (by rw [task]; rfl)
    refine ⟨fun o member => ?_, fun _ => quiet, (fun last => nomatch last), (fun inside => nomatch inside),
      fun _ => inv.empty (by rw [task]; rfl), inv.shiftsCs, inv.tagged,
      ⟨fun _ => ⟨rfl, rfl⟩, fun _ => ⟨past.1, rfl, rfl⟩, fun _ written => absurd written (unwritten _)⟩,
      fun busy => absurd rfl busy, fun busy => absurd rfl busy⟩
    rcases List.mem_append.mp member with old | new
    · exact inv.outcomes o old
    · rw [List.mem_singleton.mp new]
      exact inv.outcome_right idle task (drained task)

/-! ### Runs -/

/-- No byte is lost for want of room in the FIFO for what comes. -/
def NoOverrun (depth : Nat) (s : State) : Event → Prop
  | .shift _ => s.txFifo ≠ [] → s.rxFifo.length < depth
  | _ => True

/-- The length of the message fits a `UINT32`, and the transfer is neither too early with CS nor with the
answer: when CS is released the last byte has left, when the answer is handed back its last byte was read,
and when a message with an answer begins no byte of an earlier one is left. -/
def InTime (s : State) (e : Event) : Prop :=
  match s.isr, s.task, e with
  | .none, .none, .xfer msg =>
    msg.sendLen.toNat + msg.recvLen.toNat < 2 ^ 32 ∧ (msg.Wants → s.rxFifo = [])
  | .none, .releaseCs, .taskStep => s.txFifo = []
  | .none, .clear, .taskStep => s.msg.Wants → s.rxFifo = []
  | _, _, _ => True

instance (depth : Nat) (s : State) (e : Event) : Decidable (NoOverrun depth s e) := by
  unfold NoOverrun
  split <;> infer_instance

instance (msg : Message) : Decidable msg.Wants :=
  inferInstanceAs (Decidable (msg.recvBuf ≠ none ∧ msg.recvLen ≠ 0))

instance (s : State) (e : Event) : Decidable (InTime s e) := by
  unfold InTime
  split <;> infer_instance

theorem Inv.step (inv : Inv s) (e : Event) (room : NoOverrun depth s e) (inTime : InTime s e) :
    Inv (step depth s e) := by
  cases e with
  | shift miso => exact inv.shifted miso room
  | isr rx tx => exact inv.isr_entry rx tx
  | isrStep => exact inv.isrStep
  | xfer msg =>
    simp only [SpiMaster.step]
    split
    · next idle free =>
      simp only [InTime, idle, free] at inTime
      exact inv.xfer msg idle free inTime.1 inTime.2
    · exact inv
  | taskStep =>
    simp only [SpiMaster.step]
    split
    · next idle =>
      refine inv.taskStep idle (fun task => ?_) (fun task => ?_)
      · simpa only [InTime, idle, task] using inTime
      · simpa only [InTime, idle, task] using inTime
    · exact inv

theorem inv_init : Inv spiMasterInit := by
  refine ⟨(fun _ member => nomatch member), fun _ => ⟨rfl, rfl, rfl⟩, fun _ => rfl,
    (fun inside => nomatch inside), fun _ => rfl, (fun _ member => nomatch member), (fun _ member => nomatch member),
    ⟨(fun given => nomatch given), fun _ => ⟨rfl, rfl, rfl⟩, (fun _ written => nomatch written)⟩,
    fun busy => absurd rfl busy, fun busy => absurd rfl busy⟩

/-- Every message of a run is right whose steps are all in time. -/
theorem messages_right (depth : Nat) (events : List Event)
    (room : Along (step depth) (NoOverrun depth) spiMasterInit events)
    (inTime : Along (step depth) InTime spiMasterInit events) :
    ∀ o ∈ (events.foldl (step depth) spiMasterInit).outcomes, Right o := by
  have kept := (room.and inTime).invariant (P := Inv)
    (fun _ e inv fine => inv.step e fine.1 fine.2) inv_init
  exact kept.outcomes

/-- One byte, and one of an answer. -/
def shortMessage : Message := ⟨fun _ => 0x9f, 1, some fun _ => 0, 1⟩

/-- The call up to its wait, and the first interrupt, which writes both bytes. -/
def shortStart : List Event :=
  .xfer shortMessage :: List.replicate 3 .taskStep ++ .isr false true :: List.replicate 6 .isrStep

/-- Both bytes are shifted and read before the call goes on. -/
def shortInTime : List Event :=
  shortStart ++ [.shift 0x00, .shift 0xc2, .isr true false] ++ List.replicate 5 .isrStep ++
    List.replicate 5 .taskStep

theorem messages_right_short :
    ∃ o ∈ (shortInTime.foldl (step 16) spiMasterInit).outcomes,
      o.stored = [⟨0xc2, 1⟩] ∧ Right o :=
  ⟨_, List.mem_cons_self, rfl, messages_right 16 shortInTime (by decide) (by decide) _ List.mem_cons_self⟩

/-- The interrupt that writes the bytes saw the FIFO empty before it did, so the call goes on at once: CS
is released and the answer handed back before anything was shifted. -/
theorem cs_released_before_shift :
    ∃ events, Along (step 16) (NoOverrun 16) spiMasterInit events ∧
      ∃ o ∈ (events.foldl (step 16) spiMasterInit).outcomes, o.shifts = [] ∧ ¬ Right o := by
  refine ⟨shortStart ++ List.replicate 5 .taskStep, by decide, _, List.mem_cons_self, rfl, fun right => ?_⟩
  exact absurd right.sent (by decide)

end Bk7251.SpiMaster
