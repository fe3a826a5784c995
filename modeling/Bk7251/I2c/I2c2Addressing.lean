import Bk7251.I2c.I2c2

/-!
# The bytes before the data

What the controller does in a turn, and how a transfer of any addressing mode gets from the first byte of
the address to the last one.
-/
namespace Bk7251.I2c2

open Lib
open I2c (I2cOp BusEvent)

variable {hw : Controller} {slave : Slave} {s : State}

/-! ### A turn of the controller -/

/-- The bytes of `line` with what the slave says to each. -/
def sentBytes (slave : Slave) (line : Mem UInt8) (n k : Nat) : List BusEvent :=
  (List.range' n k).map fun i => .sent (line i) (slave.ack i)

theorem sentBytes_succ (slave : Slave) (line : Mem UInt8) (n k : Nat) :
    sentBytes slave line n (k + 1) = .sent (line n) (slave.ack n) :: sentBytes slave line (n + 1) k := by
  rw [sentBytes, List.range'_succ, List.map_cons]
  rfl

theorem sentBytes_add (slave : Slave) (line : Mem UInt8) (n j k : Nat) :
    sentBytes slave line n (j + k) = sentBytes slave line n j ++ sentBytes slave line (n + j) k := by
  rw [sentBytes, ← List.range'_append_1, List.map_append]
  rfl

theorem read_succ (line : Mem UInt8) (n k : Nat) : line.read n (k + 1) = line n :: line.read (n + 1) k := by
  rw [Nat.add_comm k 1, Mem.read_add]
  rfl

/-- The state after `j` bytes of the FIFO. -/
def afterBytes (slave : Slave) (line : Mem UInt8) (len j : Nat) (s : State) : State :=
  { s with
    txFifo := line.read (s.sent + j) (len - j)
    bus := s.bus ++ sentBytes slave line s.sent j
    sent := s.sent + j
    stat.ack := if j = 0 then s.stat.ack else slave.ack (s.sent + j - 1) }

theorem afterBytes_zero {line : Mem UInt8} {len : Nat} (fifo : s.txFifo = line.read s.sent len) :
    afterBytes slave line len 0 s = s := by
  rw [afterBytes, Nat.add_zero, Nat.sub_zero, ← fifo, if_pos rfl]
  simp [sentBytes]

theorem afterBytes_succ (slave : Slave) (line : Mem UInt8) (len j : Nat) (s : State) :
    afterBytes slave line len j (afterBytes slave line (len + 1) 1 s) =
      afterBytes slave line (len + 1) (j + 1) s := by
  have position : s.sent + 1 + j = s.sent + (j + 1) := by omega
  have last : j = 0 → slave.ack s.sent = slave.ack (s.sent + j) := by
    rintro rfl
    rfl
  simpa [afterBytes, sentBytes, List.range'_succ, position] using last

theorem busSend_eq (slave : Slave) (halts : Bool) (line : Mem UInt8) (k : Nat) {s : State} {len : Nat}
    (fifo : s.txFifo = line.read s.sent len) :
    ∃ j ≤ len, (j = min k len ∨ 0 < j ∧ slave.ack (s.sent + j - 1) = false) ∧
      busSend slave halts k s = afterBytes slave line len j s := by
  induction k generalizing s len with
  | zero => exact ⟨0, Nat.zero_le _, .inl (Nat.zero_min _).symm, (afterBytes_zero fifo).symm⟩
  | succ k ih =>
    cases len with
    | zero =>
      -- nothing is left in the FIFO
      refine ⟨0, Nat.le_refl _, .inl (Nat.min_zero _).symm, ?_⟩
      rw [afterBytes_zero fifo, busSend, fifo, Mem.read_zero]
    | succ len =>
      have first : busSend slave halts (k + 1) s =
          if halts ∧ slave.ack s.sent = false then afterBytes slave line (len + 1) 1 s
          else busSend slave halts k (afterBytes slave line (len + 1) 1 s) := by
        rw [read_succ] at fifo
        rw [busSend, fifo]
        rfl
      rw [first]
      split
      next refused =>
        -- the transfer halts at this byte
        exact ⟨1, by omega, .inr ⟨Nat.one_pos, refused.2⟩, rfl⟩
      next =>
        have rest : (afterBytes slave line (len + 1) 1 s).txFifo =
            line.read (afterBytes slave line (len + 1) 1 s).sent len := rfl
        obtain ⟨j, few, reason, sent⟩ := ih rest
        refine ⟨j + 1, by omega, ?_, ?_⟩
        · rcases reason with all | ⟨some, refused⟩
          · exact .inl (by omega)
          · refine .inr ⟨Nat.succ_pos j, ?_⟩
            have last : s.sent + 1 + j - 1 = s.sent + (j + 1) - 1 := by omega
            rwa [← last]
        · rw [sent, afterBytes_succ]

/-- The bytes on the bus, once a start that is due is there. -/
def busNow (s : State) : List BusEvent := s.bus ++ if s.stat.sta then [.start] else []

/-- The state at the next interrupt, with `j` bytes sent. -/
def atInterrupt (slave : Slave) (line : Mem UInt8) (len j : Nat) (s : State) : State :=
  { s with
    txFifo := line.read (s.sent + j) (len - j)
    bus := busNow s ++ sentBytes slave line s.sent j
    sent := s.sent + j
    stat.ack := if j = 0 then s.stat.ack else slave.ack (s.sent + j - 1)
    stat.busy := s.stat.sta || s.stat.busy
    stat.si := true }

/-- The controller sends something, and unless a byte is refused it makes the room that the level asks
for. -/
theorem busTurn_eq (hw : Controller) (slave : Slave) (line : Mem UInt8) {s : State} {len : Nat}
    (fifo : s.txFifo = line.read s.sent len) :
    ∃ j ≤ len, (0 < len → 0 < j) ∧
      (len - j ≤ FIFO_DEPTH - (fifoEmptyNum s.stat.intMode).toNat ∨ slave.ack (s.sent + j - 1) = false) ∧
      busTurn hw slave s = atInterrupt slave line len j s := by
  have length : s.txFifo.length = len := by rw [fifo, Mem.length_read]
  have started : (if s.stat.sta then { s with bus := s.bus ++ [.start], stat.busy := true } else s) =
      { s with bus := busNow s, stat.busy := s.stat.sta || s.stat.busy } := by
    unfold busNow
    cases sta : s.stat.sta with
    | true => simp
    | false => simp
  -- one byte at least, as many as the level asks for, or more at a later interrupt
  obtain ⟨j, few, reason, sent⟩ := busSend_eq slave hw.halts line
    (max (max 1 (len - (FIFO_DEPTH - (fifoEmptyNum s.stat.intMode).toNat))) (hw.pace s.sent))
    (s := { s with bus := busNow s, stat.busy := s.stat.sta || s.stat.busy }) fifo
  refine ⟨j, few, ?_, ?_, ?_⟩
  · rcases reason with all | ⟨some, -⟩ <;> omega
  · rcases reason with all | ⟨-, refused⟩
    · exact .inl (by omega)
    · exact .inr refused
  · simp only [busTurn, started, length]
    rw [sent]
    rfl

/-- One byte in the FIFO is sent, however late the controller interrupts. -/
theorem busTurn_single (hw : Controller) (slave : Slave) {byte : UInt8} (fifo : s.txFifo = [byte]) :
    busTurn hw slave s = { s with
      txFifo := []
      bus := busNow s ++ [.sent byte (slave.ack s.sent)]
      sent := s.sent + 1
      stat.ack := slave.ack s.sent
      stat.busy := s.stat.sta || s.stat.busy
      stat.si := true } := by
  have line : s.txFifo = Mem.read (fun _ => byte) s.sent 1 := fifo
  obtain ⟨j, few, some, -, turned⟩ := busTurn_eq hw slave (fun _ => byte) line
  obtain rfl : j = 1 := by omega
  rw [turned]
  rfl

/-- Nothing to send: the interrupt is for bytes that came. -/
theorem busTurn_nil (hw : Controller) (fifo : s.txFifo = []) (sta : s.stat.sta = false) :
    busTurn hw slave s = { s with stat.si := true } := by
  have line : s.txFifo = Mem.read (fun _ => 0) s.sent 0 := fifo
  obtain ⟨j, few, -, -, turned⟩ := busTurn_eq hw slave (fun _ => 0) line
  obtain rfl : j = 0 := Nat.le_zero.mp few
  rw [turned, atInterrupt, sta]
  simp [busNow, sentBytes, fifo, sta]

/-! ### The addressing modes -/

def workMode (rw al ia : Bool) : UInt8 :=
  (if rw then RW_BIT else 0) ||| (if al then AL_BIT else 0) ||| if ia then IA_BIT else 0

/-- A byte of the address that is in the FIFO, with the flags and the start bit that go with it. -/
structure Phase where
  flag : UInt8
  byte : UInt8
  sta : Bool

/-- The address bytes of a transfer, in the order of the interrupts. -/
def phases (rw al ia : Bool) (op : I2cOp) : List Phase :=
  let address7 := (op.salveId <<< 1) &&& ~~~0x01
  let address10 := (0xF0 : UInt8) ||| ((op.salveId >>> 7) &&& 0x06)
  match rw, al, ia with
  | false, false, false => [⟨0x13, address7, true⟩]
  | false, false, true => [⟨0x01, address7, true⟩, ⟨0x13, op.opAddr, false⟩]
  | false, true, false => [⟨0x01, address10, true⟩, ⟨0x13, op.salveId, false⟩]
  | false, true, true =>
    [⟨0x01, address10, true⟩, ⟨0x02, op.salveId, false⟩, ⟨0x1B, op.opAddr, false⟩]
  | true, false, false => [⟨0x13, address7 ||| 0x01, true⟩]
  | true, false, true =>
    [⟨0x01, address7, true⟩, ⟨0x0A, op.opAddr, false⟩, ⟨0x1B, (op.salveId <<< 1) ||| 0x01, true⟩]
  | true, true, false =>
    [⟨0x01, address10, true⟩, ⟨0x02, op.salveId, false⟩, ⟨0x13, readAddr10 op.salveId, true⟩]
  | true, true, true =>
    [⟨0x01, address10, true⟩, ⟨0x02, op.salveId, false⟩, ⟨0x0A, op.opAddr, false⟩,
      ⟨0x1B, readAddr10 op.salveId, true⟩]

/-- The message of a transfer before any data. -/
def message (rw al ia : Bool) (count : UInt32) (op : I2cOp) (flag : UInt8) : Msg :=
  ⟨workMode rw al ia, op.opAddr, op.salveId, 0, count, flag, 0, 1⟩

/-- The case of the interrupt for a direction. -/
def master (slave : Slave) (rw : Bool) (s : State) (stat : Status) (sta : Bool) : State × Status :=
  if rw then masterRead slave s stat sta else masterWrite s stat

/-- The interrupt for the byte of `p` puts that of `q` into the FIFO. A read looks for the acknowledgement
of a byte behind a start only. -/
def Leads (rw al ia : Bool) (count : UInt32) (op : I2cOp) (p q : Phase) : Prop :=
  ∀ (slave : Slave) (s : State) (stat : Status), s.gi2c2 = message rw al ia count op p.flag →
    stat.sta = false → stat.ack = true ∨ rw = true ∧ p.sta = false →
    master slave rw s stat p.sta =
      ({ putDat q.byte s with gi2c2.addrFlag := q.flag }, { stat with sta := q.sta })

theorem and_allOnes (x : UInt8) : x &&& 0xFF = x := by
  have ones : (0xFF : UInt8) = -1 := by decide
  rw [ones, UInt8.and_neg_one]

theorem phases_chain (rw al ia : Bool) (count : UInt32) (op : I2cOp) :
    (phases rw al ia op).IsChain (Leads rw al ia count op) := by
  -- the interrupt clears the start bit before it looks at the phase
  have lead (p q : Phase) (steps : ∀ (slave : Slave) (s : State) (stat : Status),
      s.gi2c2 = message rw al ia count op p.flag → stat.ack = true ∨ rw = true ∧ p.sta = false →
      master slave rw s { stat with sta := false } p.sta =
        ({ putDat q.byte s with gi2c2.addrFlag := q.flag }, { stat with sta := q.sta })) :
      Leads rw al ia count op p q := by
    intro slave s stat msg sta passes
    have same : { stat with sta := false } = stat := by rw [← sta]
    rw [← steps slave s stat msg passes, same]
  -- the flags are numbers in each of the eight modes
  cases rw <;> cases al <;> cases ia <;>
    simp only [phases, List.isChain_cons_cons, List.isChain_singleton, and_true] <;>
    first
    | trivial
    | (repeat' constructor) <;>
      · apply lead
        intro slave ⟨gi2c2, _, _, _, _, _, _, _⟩ stat msg passes
        obtain rfl : gi2c2 = _ := msg
        simp +decide at passes
        simp +decide [master, masterRead, masterWrite, message, workMode, orFlag, and_allOnes, RW_BIT,
          AL_BIT, IA_BIT, passes]

/-! ### The wait -/

theorem isr_master {rw al ia : Bool} (slave : Slave) (mode : s.gi2c2.wkMode = workMode rw al ia)
    (si : s.stat.si = true) :
    i2c2Isr slave s =
      let r := master slave rw s { s.stat with sta := false } s.stat.sta
      { r.1 with stat := { r.2 with si := false } } := by
  -- of the mode the interrupt looks at the role and the direction only
  have work : s.gi2c2.wkMode &&& 0x03 = if rw then 0x01 else 0x00 := by
    rw [mode]
    cases rw <;> cases al <;> cases ia <;> rfl
  rw [i2c2Isr, si, if_neg Bool.noConfusion, work]
  cases rw <;> rfl

theorem waitBusy_turn {fuel : Nat} (busy : s.gi2c2.transDone = 0) (sto : s.stat.sto = false) :
    waitBusy hw slave (fuel + 1) s = waitBusy hw slave fuel (i2c2Isr slave (busTurn hw slave s)) := by
  have free : busStop s = s := by
    rw [busStop, sto]
    rfl
  have waits : ¬ i2c2GetBusy s = false := by
    rw [i2c2GetBusy, busy]
    cases s.stat.busy <;> decide
  rw [waitBusy, free]
  exact if_neg waits

/-- The transfer is over but for the stop. -/
structure Finished (wkMode : UInt8) (bus : List BusEvent) (userBuf : Mem UInt8) (touched : List Nat)
    (s : State) : Prop where
  wkMode : s.gi2c2.wkMode = wkMode
  transDone : s.gi2c2.transDone = 1
  sto : s.stat.sto = true
  bus : s.bus = bus
  userBuf : s.userBuf = userBuf
  touched : s.touched = touched

/-- The transfer is over and the bus is free. -/
structure Stopped (wkMode : UInt8) (bus : List BusEvent) (userBuf : Mem UInt8) (touched : List Nat)
    (s : State) : Prop where
  wkMode : s.gi2c2.wkMode = wkMode
  sto : s.stat.sto = false
  busy : s.stat.busy = false
  txFifo : s.txFifo = []
  bus : s.bus = bus ++ [.stop]
  userBuf : s.userBuf = userBuf
  touched : s.touched = touched

theorem Finished.waitBusy (hw : Controller) (slave : Slave) (fuel : Nat) {wkMode : UInt8}
    {bus : List BusEvent} {userBuf : Mem UInt8} {touched : List Nat}
    (finished : Finished wkMode bus userBuf touched s) :
    ∃ t, waitBusy hw slave fuel s = some t ∧ Stopped wkMode bus userBuf touched t := by
  have free : i2c2GetBusy (busStop s) = false := by
    rw [i2c2GetBusy, busStop, if_pos finished.sto, finished.transDone]
    rfl
  -- the stop frees the bus before the loop looks at it
  refine ⟨busStop s, ?_, ?_⟩
  · unfold I2c2.waitBusy
    exact if_pos free
  · unfold busStop
    rw [if_pos finished.sto]
    refine ⟨finished.wkMode, rfl, rfl, rfl, ?_, finished.userBuf, finished.touched⟩
    exact congrArg (· ++ [BusEvent.stop]) finished.bus

/-- A byte that is refused ends a write, and a read if it comes behind a start. -/
theorem isr_refused (rw al ia : Bool) (mode : s.gi2c2.wkMode = workMode rw al ia) (si : s.stat.si = true)
    (check : s.gi2c2.ackCheck = 1) (refused : s.stat.ack = false) (looks : rw = false ∨ s.stat.sta = true) :
    i2c2Isr slave s = { s with
      gi2c2.transDone := 1
      stat := { s.stat with si := false, sta := false, sto := true } } := by
  have checked : s.gi2c2.ackCheck ≠ 0 := by
    rw [check]
    decide
  rw [isr_master slave mode si]
  cases rw with
  | false => rw [master, if_neg Bool.noConfusion, masterWrite, if_pos ⟨checked, refused⟩]
  | true =>
    rw [master, if_pos rfl, masterRead, if_pos ⟨looks.resolve_left Bool.noConfusion, checked, refused⟩]

/-! ### Through the address -/

/-- The byte of a phase is the next one on the bus. -/
structure Addressing (rw al ia : Bool) (count : UInt32) (op : I2cOp) (userBuf : Mem UInt8)
    (intMode : BitVec 2) (p : Phase) (n : Nat) (s : State) : Prop where
  msg : s.gi2c2 = message rw al ia count op p.flag
  txFifo : s.txFifo = [p.byte]
  sta : s.stat.sta = p.sta
  sto : s.stat.sto = false
  intMode : s.stat.intMode = intMode
  userBuf : s.userBuf = userBuf
  sent : s.sent = n
  taken : s.taken = 0
  touched : s.touched = []

/-- What is on the bus when the last of the phases is due, behind what was there for the first. -/
def phaseBus (slave : Slave) : Nat → Phase → List Phase → List BusEvent
  | _, _, [] => []
  | n, p, q :: ps =>
    .sent p.byte (slave.ack n) :: ((if q.sta then [.start] else []) ++ phaseBus slave (n + 1) q ps)

section
variable {rw al ia : Bool} {count : UInt32} {op : I2cOp} {userBuf : Mem UInt8} {intMode : BitVec 2}
variable {p q : Phase} {n : Nat}

theorem Addressing.refused (hw : Controller) (addressing : Addressing rw al ia count op userBuf intMode p n s)
    (nack : slave.ack n = false) (looks : rw = false ∨ p.sta = true) :
    Finished (workMode rw al ia) (busNow s ++ [.sent p.byte false]) userBuf []
      (i2c2Isr slave (busTurn hw slave s)) := by
  have msg := addressing.msg
  have turn := busTurn_single hw slave addressing.txFifo
  rw [addressing.sent, nack] at turn
  have isr : i2c2Isr slave (busTurn hw slave s) = { busTurn hw slave s with
      gi2c2.transDone := 1
      stat := { (busTurn hw slave s).stat with si := false, sta := false, sto := true } } := by
    apply isr_refused rw al ia <;> rw [turn]
    · rw [msg]
      rfl
    · rw [msg]
      rfl
    · rwa [addressing.sta]
  rw [isr, turn]
  refine ⟨?_, rfl, rfl, rfl, addressing.userBuf, addressing.touched⟩
  rw [msg]
  rfl

theorem Leads.isr (leads : Leads rw al ia count op p q) (msg : s.gi2c2 = message rw al ia count op p.flag)
    (empty : s.txFifo = []) (si : s.stat.si = true) (sta : s.stat.sta = p.sta)
    (passes : s.stat.ack = true ∨ rw = true ∧ p.sta = false) :
    i2c2Isr slave s = { s with
      gi2c2.addrFlag := q.flag
      txFifo := [q.byte]
      stat := { s.stat with si := false, sta := q.sta } } := by
  have mode : s.gi2c2.wkMode = workMode rw al ia := by
    rw [msg]
    rfl
  have room : s.txFifo.length < FIFO_DEPTH := by
    rw [empty]
    decide
  rw [isr_master slave mode si, sta, leads slave s { s.stat with sta := false } msg rfl passes, putDat,
    if_pos room, empty]
  rfl

theorem Addressing.turn (hw : Controller) (addressing : Addressing rw al ia count op userBuf intMode p n s)
    (leads : Leads rw al ia count op p q) (passes : slave.ack n = true ∨ rw = true ∧ p.sta = false) :
    ∃ t, i2c2Isr slave (busTurn hw slave s) = t ∧
      Addressing rw al ia count op userBuf intMode q (n + 1) t ∧
      busNow t = busNow s ++ .sent p.byte (slave.ack n) :: if q.sta then [.start] else [] := by
  have msg := addressing.msg
  have next : i2c2Isr slave (busTurn hw slave s) = { s with
      gi2c2.addrFlag := q.flag
      txFifo := [q.byte]
      bus := busNow s ++ [.sent p.byte (slave.ack n)]
      sent := n + 1
      stat := { s.stat with
        si := false
        ack := slave.ack n
        sta := q.sta
        busy := s.stat.sta || s.stat.busy } } := by
    rw [busTurn_single hw slave addressing.txFifo, addressing.sent]
    exact leads.isr msg rfl rfl addressing.sta passes
  refine ⟨_, next, ?_, ?_⟩
  · constructor
    · rw [msg]
      rfl
    · rfl
    · rfl
    · exact addressing.sto
    · exact addressing.intMode
    · exact addressing.userBuf
    · rfl
    · exact addressing.taken
    · exact addressing.touched
  · simp [busNow]

/-- The address as a whole, by induction on the phases: it is refused at some byte, or its last one is
due. -/
theorem Addressing.run (hw : Controller) (slave : Slave) (fuel : Nat) {ps : List Phase}
    (addressing : Addressing rw al ia count op userBuf intMode p n s)
    (chain : (p :: ps).IsChain (Leads rw al ia count op)) :
    (∃ i < ps.length, slave.ack (n + i) = false ∧ ∃ bus byte t,
      waitBusy hw slave (fuel + ps.length) s = some t ∧
      Stopped (workMode rw al ia) (bus ++ [.sent byte false]) userBuf [] t) ∨
    ∃ q t, (p :: ps).getLast? = some q ∧
      waitBusy hw slave (fuel + ps.length) s = waitBusy hw slave fuel t ∧
      Addressing rw al ia count op userBuf intMode q (n + ps.length) t ∧
      busNow t = busNow s ++ phaseBus slave n p ps := by
  induction ps generalizing p n s with
  | nil => exact .inr ⟨p, s, rfl, rfl, addressing, (List.append_nil _).symm⟩
  | cons q ps ih =>
    obtain ⟨leads, chain⟩ := List.isChain_cons_cons.mp chain
    have busy : s.gi2c2.transDone = 0 := by
      rw [addressing.msg]
      rfl
    rw [List.length_cons, ← Nat.add_assoc, waitBusy_turn busy addressing.sto]
    by_cases passes : slave.ack n = true ∨ rw = true ∧ p.sta = false
    · obtain ⟨u, turned, next, bus⟩ := addressing.turn hw leads passes
      rw [turned]
      rcases ih next chain with ⟨i, inside, refused, stopped⟩ | ⟨last, t, least, waited, there, bus'⟩
      · refine .inl ⟨i + 1, Nat.succ_lt_succ inside, ?_, stopped⟩
        rwa [Nat.add_assoc, Nat.add_comm 1] at refused
      · refine .inr ⟨last, t, ?_, waited, ?_, ?_⟩
        · rwa [List.getLast?_cons_cons]
        · rwa [Nat.add_assoc, Nat.add_comm 1] at there
        · rw [bus', bus, phaseBus, List.append_assoc]
          rfl
    · -- a write ends at any byte that is refused, a read at one behind a start
      have nack : slave.ack n = false := by
        cases acknowledged : slave.ack n with
        | false => rfl
        | true => exact absurd (.inl acknowledged) passes
      have looks : rw = false ∨ p.sta = true := by
        cases rw with
        | false => exact .inl rfl
        | true =>
          cases sta : p.sta with
          | false => exact absurd (.inr ⟨rfl, sta⟩) passes
          | true => exact .inr rfl
      obtain ⟨t, waited, stopped⟩ := (addressing.refused hw nack looks).waitBusy hw slave (fuel + ps.length)
      exact .inl ⟨0, Nat.succ_pos _, nack, _, _, t, waited, stopped⟩

end

end Bk7251.I2c2
