import Bk7251.I2c.Calls
import Bk7251.I2c.I2c2Transfers

/-!
# What the calls of the second controller return

Which counts and slaves a call is right for, whatever level the transfers before have left in the register
and however late the controller interrupts.
-/
namespace Bk7251.I2c2

open Lib
open I2c (I2cOp BusEvent)

/-! ### What the calls promise -/

def sentByte : BusEvent → Option UInt8
  | .sent byte _ => some byte
  | _ => none

/-- No byte that was sent is without its acknowledgement. -/
def Acknowledged (bus : List BusEvent) : Prop := ∀ byte, BusEvent.sent byte false ∉ bus

/-- The address of a transfer that writes. -/
def addressBytes (al ia : Bool) (op : I2cOp) : List UInt8 :=
  (if al then [(0xF0 : UInt8) ||| ((op.salveId >>> 7) &&& 0x06), op.salveId]
    else [(op.salveId <<< 1) &&& ~~~0x01]) ++
  if ia then [op.opAddr] else []

/-- The number of address bytes of a transfer that reads. -/
def readAddressCount (al ia : Bool) : Nat := if al then (if ia then 4 else 3) else if ia then 3 else 1

/-- A write that returns 0 sent the address and the bytes of the buffer, all of them acknowledged; and none
comes from beyond the buffer. -/
structure WriteRight (al ia : Bool) (op : I2cOp) (userBuf : Mem UInt8) (count : UInt32)
    (result : State × UInt32) : Prop where
  acknowledged : result.2 = 0 → Acknowledged result.1.bus
  sent : result.2 = 0 →
    result.1.bus.filterMap sentByte = addressBytes al ia op ++ userBuf.read 0 count.toNat
  inside : ∀ offset ∈ result.1.touched, offset < count.toNat

/-- A read that returns 0 left in the buffer what the slave sent once it had acknowledged the address; and
nothing is stored beyond it. -/
structure ReadRight (count : UInt32) (result : State × UInt32) : Prop where
  acknowledged : result.2 = 0 → Acknowledged result.1.bus
  stored : result.2 = 0 →
    result.1.userBuf.read 0 count.toNat = result.1.bus.filterMap BusEvent.data
  inside : ∀ offset ∈ result.1.touched, offset < count.toNat

/-- The count fits `remain_data_cnt`, and the slave acknowledges every byte. -/
def WriteFits (slave : Slave) (al ia : Bool) (op : I2cOp) (count : UInt32) : Prop :=
  count.toNat < 256 ∧ ∀ i < (addressBytes al ia op).length + count.toNat, slave.ack i = true

/-- The count fits `remain_data_cnt`, or goes beyond it by less than the first batch; and the slave
acknowledges the address. -/
def ReadFits (slave : Slave) (al ia : Bool) (intMode : BitVec 2) (count : UInt32) : Prop :=
  0 < count.toNat ∧ count.toNat < 256 + (fifoDataNum intMode).toNat ∧
    ∀ i < readAddressCount al ia, slave.ack i = true

/-- Between two calls of a master; the level in the register is any. -/
structure Idle (al ia : Bool) (s : State) : Prop where
  mode : ∃ rw, s.gi2c2.wkMode = workMode rw al ia
  sto : s.stat.sto = false
  busy : s.stat.busy = false
  txFifo : s.txFifo = []

variable {hw : Controller} {slave : Slave} {fuel : Nat} {s : State}
variable {al ia : Bool} {count : UInt32} {op : I2cOp} {userBuf : Mem UInt8}

/-! ### What is on the bus -/

theorem acknowledged_append (bus bus' : List BusEvent) :
    Acknowledged (bus ++ bus') ↔ Acknowledged bus ∧ Acknowledged bus' := by
  simp only [Acknowledged, List.mem_append, not_or, forall_and]

theorem acknowledged_cons_sent (byte : UInt8) (ack : Bool) (bus : List BusEvent) :
    Acknowledged (.sent byte ack :: bus) ↔ ack = true ∧ Acknowledged bus := by
  cases ack with
  | false =>
    apply iff_of_false
    · exact fun all => all byte List.mem_cons_self
    · exact fun all => Bool.noConfusion all.1
  | true => simp [Acknowledged]

theorem acknowledged_start : Acknowledged [.start] := by simp [Acknowledged]

theorem acknowledged_stop : Acknowledged [.stop] := by simp [Acknowledged]

/-- A transfer that ends with a refused byte. -/
theorem not_acknowledged_refused (bus : List BusEvent) (byte : UInt8) :
    ¬ Acknowledged (bus ++ [.sent byte false] ++ [.stop]) := by
  intro all
  apply all byte
  simp

theorem acknowledged_received (bytes : List UInt8) : Acknowledged (bytes.map BusEvent.received) := by
  simp [Acknowledged]

theorem acknowledged_sentBytes (line : Mem UInt8) (n k : Nat) :
    Acknowledged (sentBytes slave line n k) ↔ ∀ i < k, slave.ack (n + i) = true := by
  induction k generalizing n with
  | zero => simp [sentBytes, Acknowledged]
  | succ k ih =>
    rw [sentBytes_succ, acknowledged_cons_sent, ih, Nat.forall_lt_succ_left]
    simp only [Nat.add_zero, Nat.add_assoc, Nat.add_comm 1]

theorem acknowledged_phaseBus (n : Nat) (p : Phase) (ps : List Phase) :
    Acknowledged (phaseBus slave n p ps) ↔ ∀ i < ps.length, slave.ack (n + i) = true := by
  induction ps generalizing n p with
  | nil => simp [phaseBus, Acknowledged]
  | cons q ps ih =>
    -- a start in between has no acknowledgement
    have start (bus : List BusEvent) :
        Acknowledged ((if q.sta then [.start] else []) ++ bus) ↔ Acknowledged bus := by
      cases q.sta with
      | false => exact Iff.rfl
      | true => exact (acknowledged_append _ _).trans (and_iff_right acknowledged_start)
    rw [phaseBus, acknowledged_cons_sent, start, ih, List.length_cons, Nat.forall_lt_succ_left]
    simp only [Nat.add_zero, Nat.add_assoc, Nat.add_comm 1]

theorem sentBytes_bytes (line : Mem UInt8) (n k : Nat) :
    (sentBytes slave line n k).filterMap sentByte = line.read n k := by
  induction k generalizing n with
  | zero => rfl
  | succ k ih =>
    rw [sentBytes_succ, read_succ, ← ih]
    rfl

/-- The bytes of all phases but the last. -/
theorem phaseBus_bytes (n : Nat) (p : Phase) (ps : List Phase) :
    (phaseBus slave n p ps).filterMap sentByte = ((p :: ps).dropLast).map Phase.byte := by
  induction ps generalizing n p with
  | nil => rfl
  | cons q ps ih =>
    rw [phaseBus, List.dropLast_cons_cons, List.map_cons, ← ih (n + 1) q]
    cases q.sta <;> rfl

theorem phaseBus_data (n : Nat) (p : Phase) (ps : List Phase) :
    (phaseBus slave n p ps).filterMap BusEvent.data = [] := by
  induction ps generalizing n p with
  | nil => rfl
  | cons q ps ih =>
    have later := ih (n + 1) q
    rw [phaseBus]
    cases q.sta <;> simpa [BusEvent.data] using later

/-! ### Up to the data -/

theorem workMode_write (rw al ia : Bool) : workMode rw al ia &&& ~~~RW_BIT = workMode false al ia := by
  cases rw <;> cases al <;> cases ia <;> rfl

theorem workMode_read (rw al ia : Bool) : workMode rw al ia ||| RW_BIT = workMode true al ia := by
  cases rw <;> cases al <;> cases ia <;> rfl

/-- The level a transfer starts with. -/
def level (rw : Bool) (intMode : BitVec 2) (count : UInt32) : BitVec 2 :=
  intMode ||| startMode ⟨workMode rw false false, 0, 0, 0, count, 0, 0, 1⟩

/-- A call starts with the first byte of the address. -/
theorem setup_addressing (rw : Bool) (userBuf : Mem UInt8) (count : UInt32) (op : I2cOp) (idle : Idle al ia s) :
    ∃ p ps, phases rw al ia op = p :: ps ∧
      Addressing rw al ia count op userBuf (level rw s.stat.intMode count) p 0
        (i2c2SendStart (i2c2Message (workMode rw al ia) userBuf count op s)) ∧
      busNow (i2c2SendStart (i2c2Message (workMode rw al ia) userBuf count op s)) = [.start] := by
  have room : ([] : List UInt8).length < FIFO_DEPTH := by decide
  -- the first byte depends on the mode only
  cases rw <;> cases al <;> cases ia <;>
    · refine ⟨_, _, rfl, ?_, ?_⟩
      · constructor <;>
          simp +decide [i2c2SendStart, i2c2Message, i2c2SendAddr, putDat, orFlag, message, workMode, level,
            startMode, idle.txFifo, idle.sto, RW_BIT, MS_BIT, AL_BIT, IA_BIT]
      · simp +decide [i2c2SendStart, i2c2Message, i2c2SendAddr, putDat, orFlag, busNow, workMode,
          idle.txFifo, RW_BIT, MS_BIT, AL_BIT, IA_BIT]

theorem phases_last (rw al ia : Bool) (op : I2cOp) {q : Phase} (last : (phases rw al ia op).getLast? = some q) :
    q.flag &&& 0x10 ≠ 0 ∧ (rw = true → q.sta = true) := by
  cases rw <;> cases al <;> cases ia <;>
    · obtain rfl := Option.some.inj last
      simp +decide

theorem phases_write (al ia : Bool) (op : I2cOp) :
    (phases false al ia op).map Phase.byte = addressBytes al ia op := by
  cases al <;> cases ia <;> rfl

theorem phases_read (al ia : Bool) (op : I2cOp) : (phases true al ia op).length = readAddressCount al ia := by
  cases al <;> cases ia <;> rfl

theorem length_phases (rw al ia : Bool) (op : I2cOp) : (phases rw al ia op).length ≤ 4 := by
  cases rw <;> cases al <;> cases ia <;> simp [phases]

/-- A call that waits to the end returns 0 whatever has happened. -/
theorem i2c2Transfer_returns {rw : Bool} {bus : List BusEvent} {buf : Mem UInt8} {touched : List Nat}
    (waited : ∃ t, waitBusy hw slave fuel
        (i2c2SendStart (i2c2Message (workMode rw al ia) userBuf count op s)) = some t ∧
      Stopped (workMode rw al ia) bus buf touched t) :
    ∃ t, i2c2Transfer (workMode rw al ia) fuel hw slave userBuf count op s = some (t, 0) ∧ Idle al ia t ∧
      t.bus = bus ++ [.stop] ∧ t.userBuf = buf ∧ t.touched = touched := by
  obtain ⟨t, returned, stopped⟩ := waited
  refine ⟨{ t with gi2c2.transDone := 0 }, ?_, ?_, stopped.bus, stopped.userBuf, stopped.touched⟩
  · rw [i2c2Transfer, returned]
    rfl
  · exact ⟨⟨rw, stopped.wkMode⟩, stopped.sto, stopped.busy, stopped.txFifo⟩

/-! ### Writing -/

/-- The last byte of the address is due, and no data is in the FIFO yet. -/
theorem Addressing.filling {intMode : BitVec 2} {q : Phase} {n : Nat}
    (addressing : Addressing false al ia count op userBuf intMode q n s) (last : q.flag &&& 0x10 ≠ 0) :
    Filling slave al ia count userBuf n q.byte (busNow s) 0 s := by
  have msg := addressing.msg
  constructor
  · rw [msg]
    rfl
  · rw [msg]
    rfl
  · rw [msg]
    exact last
  · rw [msg]
    rfl
  · rw [msg]
    rfl
  · rw [msg]
    rfl
  · exact Nat.zero_le _
  · exact addressing.sto
  · rw [addressing.sent]
  · rw [addressing.sent]
    exact Nat.lt_succ_self n
  · have one : n + 1 + 0 - n = 1 := by omega
    rw [addressing.sent, one, dataLine_first, addressing.txFifo]
  · intro _
    exact .inr addressing.sent
  · rw [addressing.sent, Nat.sub_self]
    exact (List.append_nil _).symm
  · exact addressing.userBuf
  · exact addressing.touched

/-- A write that got past the address sends `i` bytes from the last of the address on, to the end of the
count or to the first that is refused; it is right when that is all of them. -/
theorem writeRight_iff {t : State} {p q : Phase} {ps : List Phase} {i used : Nat}
    (script : phases false al ia op = p :: ps) (last : (p :: ps).getLast? = some q)
    (bus : t.bus = [.start] ++ phaseBus slave 0 p ps ++
      sentBytes slave (dataLine ps.length q.byte userBuf) ps.length i ++ [.stop])
    (touched : t.touched = List.range' 0 used)
    (most : i ≤ count.toNat % 256 + 1) (fewer : used ≤ count.toNat % 256)
    (reason : i = count.toNat % 256 + 1 ∨ 0 < i ∧ slave.ack (ps.length + i - 1) = false) :
    WriteRight al ia op userBuf count (t, 0) ↔ WriteFits slave al ia op count := by
  have bytes := phases_write al ia op
  rw [script] at bytes
  have length := congrArg List.length bytes
  rw [List.length_map, List.length_cons] at length
  have acks : Acknowledged t.bus ↔
      (∀ j < ps.length, slave.ack j = true) ∧ ∀ j < i, slave.ack (ps.length + j) = true := by
    simp only [bus, acknowledged_append, acknowledged_start, acknowledged_phaseBus,
      acknowledged_sentBytes, acknowledged_stop, Nat.zero_add, true_and, and_true]
  have data : t.bus.filterMap sentByte = ((p :: ps).dropLast).map Phase.byte ++
      (dataLine ps.length q.byte userBuf).read ps.length i := by
    have started : [BusEvent.start].filterMap sentByte = [] := rfl
    have stopped : [BusEvent.stop].filterMap sentByte = [] := rfl
    simp only [bus, List.filterMap_append, phaseBus_bytes, sentBytes_bytes, started, stopped,
      List.nil_append, List.append_nil]
  constructor
  · intro right
    obtain ⟨address, all⟩ := acks.mp (right.acknowledged rfl)
    have whole : i = count.toNat % 256 + 1 := by
      rcases reason with whole | ⟨some, refused⟩
      · exact whole
      · have acknowledged := all (i - 1) (Nat.sub_lt some Nat.one_pos)
        rw [← Nat.add_sub_assoc some] at acknowledged
        cases acknowledged.symm.trans refused
    -- the remainder of the count is on the bus, and the whole count is promised
    have lengths := congrArg List.length (data.symm.trans (right.sent rfl))
    simp only [List.length_append, List.length_map, List.length_dropLast_cons, Mem.length_read] at lengths
    refine ⟨by omega, ?_⟩
    intro j inside
    by_cases early : j < ps.length
    · exact address j early
    · have acknowledged := all (j - ps.length) (by omega)
      rwa [Nat.add_sub_cancel' (Nat.not_lt.mp early)] at acknowledged
  · rintro ⟨fits, all⟩
    rw [Nat.mod_eq_of_lt fits] at most fewer reason
    have whole : i = count.toNat + 1 := by
      rcases reason with whole | ⟨some, refused⟩
      · exact whole
      · cases refused.symm.trans (all _ (by omega))
    constructor
    · intro _
      apply acks.mpr
      constructor
      · intro j inside
        exact all j (by omega)
      · intro j inside
        exact all _ (by omega)
    · intro _
      -- the last byte of the address comes before the buffer on the line
      have rest := dataLine_read ps.length q.byte userBuf 0 count.toNat
      rw [Nat.add_zero] at rest
      rw [data, whole, Nat.add_comm count.toNat 1, Mem.read_add, dataLine_first, rest, ← List.append_assoc,
        ← bytes]
      have whole := congrArg (List.map Phase.byte) (List.dropLast_append_getLast? q last)
      rw [List.map_append] at whole
      exact congrArg (· ++ userBuf.read 0 count.toNat) whole
    · intro offset member
      rw [touched] at member
      have below := (List.mem_range'_1.mp member).2
      omega

theorem i2c2Write_right_iff (hw : Controller) (slave : Slave) (userBuf : Mem UInt8) (count : UInt32)
    (op : I2cOp) (idle : Idle al ia s) (enough : 300 ≤ fuel) :
    ∃ t, i2c2Write fuel hw slave userBuf count op s = some (t, 0) ∧ Idle al ia t ∧
      (WriteRight al ia op userBuf count (t, 0) ↔ WriteFits slave al ia op count) := by
  obtain ⟨rw, mode⟩ := idle.mode
  obtain ⟨p, ps, script, addressing, start⟩ := setup_addressing false userBuf count op idle
  have chain := phases_chain false al ia count op
  have length := congrArg List.length (phases_write al ia op)
  have short := length_phases false al ia op
  rw [script] at chain length short
  rw [List.length_map, List.length_cons] at length
  rw [List.length_cons] at short
  obtain ⟨rest, rfl⟩ : ∃ rest, fuel = rest + ps.length := ⟨fuel - ps.length, by omega⟩
  rw [i2c2Write, mode, workMode_write]
  rcases addressing.run hw slave rest chain with
    ⟨i, inside, refused, bus, byte, t, waited, stopped⟩ | ⟨q, u, last, waited, addressed, onBus⟩
  · -- the address is refused
    obtain ⟨t, returned, idle, bus', -, -⟩ := i2c2Transfer_returns ⟨t, waited, stopped⟩
    refine ⟨t, returned, idle, ?_⟩
    apply iff_of_false
    · intro right
      exact not_acknowledged_refused bus byte (bus' ▸ right.acknowledged rfl)
    · intro fits
      rw [Nat.zero_add] at refused
      cases refused.symm.trans (fits.2 i (by omega))
  · rw [Nat.zero_add] at addressed
    have lastPhase : (phases false al ia op).getLast? = some q := by rwa [script]
    have enough : count.toNat % 256 - 0 < rest := by omega
    obtain ⟨t, i, used, sent, most, fewer, reason, stopped⟩ :=
      (addressed.filling (phases_last false al ia op lastPhase).1).waitBusy hw enough
    rw [← waited] at sent
    obtain ⟨t, returned, idle, bus, -, touched⟩ := i2c2Transfer_returns ⟨t, sent, stopped⟩
    rw [onBus, start] at bus
    exact ⟨t, returned, idle, writeRight_iff script last bus touched most fewer reason⟩

/-! ### Reading -/

/-- The number of bytes a read takes from a slave that acknowledges the address. -/
def readLength (intMode : BitVec 2) (count : UInt32) : Nat :=
  todo (fifoDataNum (level true intMode count)).toNat (count.toNat % 256)

theorem readLength_le (intMode : BitVec 2) (count : UInt32) : readLength intMode count ≤ 267 := by
  have few := (fifoDataNum_le (level true intMode count)).2
  unfold readLength todo
  split <;> omega

/-- The level that stands can only make the batches smaller. -/
theorem fifoDataNum_or (intMode asked : BitVec 2) :
    (fifoDataNum (intMode ||| asked)).toNat ≤ (fifoDataNum asked).toNat := by
  revert intMode asked
  decide

theorem readLength_eq_iff (intMode : BitVec 2) (count : UInt32) :
    readLength intMode count = count.toNat ↔
      0 < count.toNat ∧ count.toNat < 256 + (fifoDataNum intMode).toNat := by
  obtain ⟨some, most⟩ := fifoDataNum_le intMode
  have small := count.toNat_lt
  -- the level asked for is or-ed to the one that stands in the register
  have asked : level true intMode count = intMode ||| if count > 12 then 0 else if count > 8 then 1
      else if count > 4 then 2 else 3 := by
    have reads : workMode true false false &&& RW_BIT ≠ 0 := by decide
    rw [level, startMode, if_pos reads]
  have numbers : (12 : UInt32).toNat = 12 ∧ (8 : UInt32).toNat = 8 ∧ (4 : UInt32).toNat = 4 := by decide
  rw [readLength, asked]
  simp only [gt_iff_lt, UInt32.lt_iff_toNat_lt, numbers]
  split
  next many =>
    have stands : intMode ||| 0 = intMode := BitVec.or_zero
    rw [stands]
    unfold todo
    split <;> omega
  next few =>
    -- a short count is at least one batch
    have batch : ∀ asked : BitVec 2, (fifoDataNum asked).toNat ≤ count.toNat ∨ count.toNat = 0 ∧ asked = 3 →
        (todo (fifoDataNum (intMode ||| asked)).toNat (count.toNat % 256) = count.toNat ↔
          0 < count.toNat ∧ count.toNat < 256 + (fifoDataNum intMode).toNat) := by
      intro asked enough
      have fewer := fifoDataNum_or intMode asked
      have one : (fifoDataNum 3).toNat = 1 := rfl
      have positive := (fifoDataNum_le (intMode ||| asked)).1
      unfold todo
      rcases enough with enough | ⟨none, rfl⟩
      · have nonempty := (fifoDataNum_le asked).1
        split <;> omega
      · split <;> omega
    have levels : (fifoDataNum 1).toNat = 8 ∧ (fifoDataNum 2).toNat = 4 ∧ (fifoDataNum 3).toNat = 1 := by
      decide
    split_ifs
    · exact batch 1 (by omega)
    · exact batch 2 (by omega)
    · apply batch 3
      rcases Nat.eq_zero_or_pos count.toNat with none | some
      · exact .inr ⟨none, rfl⟩
      · exact .inl (by omega)

theorem isr_acknowledged (al ia : Bool) (mode : s.gi2c2.wkMode = workMode true al ia) (si : s.stat.si = true)
    (sta : s.stat.sta = true) (ack : s.stat.ack = true) (addressed : s.gi2c2.addrFlag &&& 0x10 ≠ 0) :
    i2c2Isr slave s = { s with stat := { s.stat with si := false, ack := true, sta := false } } := by
  have passes : ¬ (s.stat.sta = true ∧ s.gi2c2.ackCheck ≠ 0 ∧ s.stat.ack = false) := by
    rw [ack]
    exact fun refused => Bool.noConfusion refused.2.2
  rw [isr_master slave mode si, master, if_pos rfl, masterRead, if_neg passes, if_pos addressed, if_pos sta]

/-- The slave has acknowledged the last byte of the address, and its own bytes are next. -/
theorem Addressing.receiving (hw : Controller) {intMode : BitVec 2} {q : Phase} {n : Nat}
    (addressing : Addressing true al ia count op userBuf intMode q n s) (flag : q.flag &&& 0x10 ≠ 0)
    (sta : q.sta = true) (acknowledged : slave.ack n = true) :
    Receiving slave al ia count userBuf (busNow s ++ [.sent q.byte true])
      (todo (fifoDataNum intMode).toNat (count.toNat % 256)) 0 (i2c2Isr slave (busTurn hw slave s)) := by
  have msg := addressing.msg
  have mode : s.gi2c2.wkMode = workMode true al ia := by
    rw [msg]
    rfl
  have addressed : s.gi2c2.addrFlag &&& 0x10 ≠ 0 := by
    rw [msg]
    exact flag
  have started : s.stat.sta = true := addressing.sta.trans sta
  have turn := busTurn_single hw slave addressing.txFifo
  rw [addressing.sent, acknowledged] at turn
  have isr : i2c2Isr slave (busTurn hw slave s) = { busTurn hw slave s with
      stat := { (busTurn hw slave s).stat with si := false, ack := true, sta := false } } := by
    apply isr_acknowledged al ia <;> rw [turn]
    · exact mode
    · exact started
    · exact addressed
  rw [isr, turn]
  have few := (fifoDataNum_le intMode).2
  have left : (count.toNat + 512 - 0) % 256 = count.toNat % 256 := by omega
  constructor
  · exact mode
  · exact addressed
  · rw [msg]
    rfl
  · rw [msg]
    rfl
  · rw [msg]
    rfl
  · rw [Nat.zero_add, left, addressing.intMode]
  · unfold todo
    split <;> omega
  · exact addressing.sto
  · rfl
  · rfl
  · exact addressing.taken
  · exact (List.append_nil _).symm
  · exact addressing.userBuf.trans (Mem.write_nil userBuf 0).symm
  · exact addressing.touched

/-- A read whose address is refused is not right. -/
theorem readRight_iff_refused {bus : List BusEvent} {byte : UInt8} {t : State} {i : Nat} (intMode : BitVec 2)
    (inside : i < readAddressCount al ia) (refused : slave.ack i = false)
    (onBus : t.bus = bus ++ [.sent byte false] ++ [.stop]) :
    ReadRight count (t, 0) ↔ ReadFits slave al ia intMode count := by
  apply iff_of_false
  · intro right
    exact not_acknowledged_refused bus byte (onBus ▸ right.acknowledged rfl)
  · intro fits
    cases refused.symm.trans (fits.2.2 i inside)

/-- A read that got past the address is right when it takes as many bytes as were asked for. -/
theorem readRight_iff {t : State} {p : Phase} {ps : List Phase} {byte : UInt8} {intMode : BitVec 2}
    (number : ps.length + 1 = readAddressCount al ia) (acknowledged : slave.ack ps.length = true)
    (bus : t.bus = [.start] ++ phaseBus slave 0 p ps ++ [.sent byte true] ++
      (dataFrom slave 0 (readLength intMode count)).map .received ++ [.stop])
    (buf : t.userBuf = userBuf.write 0 (dataFrom slave 0 (readLength intMode count)))
    (touched : t.touched = List.range' 0 (readLength intMode count)) :
    ReadRight count (t, 0) ↔ ReadFits slave al ia intMode count := by
  have acks : Acknowledged t.bus ↔ ∀ j < ps.length, slave.ack j = true := by
    simp only [bus, acknowledged_append, acknowledged_start, acknowledged_phaseBus,
      acknowledged_cons_sent, acknowledged_received, acknowledged_stop, Nat.zero_add, true_and, and_true,
      and_iff_left (show Acknowledged [] from fun _ member => nomatch member)]
  have data : t.bus.filterMap BusEvent.data = dataFrom slave 0 (readLength intMode count) := by
    have started : [BusEvent.start].filterMap BusEvent.data = [] := rfl
    have stopped : [BusEvent.stop].filterMap BusEvent.data = [] := rfl
    have address : [BusEvent.sent byte true].filterMap BusEvent.data = [] := rfl
    have same : BusEvent.data ∘ BusEvent.received = some := rfl
    simp only [bus, List.filterMap_append, phaseBus_data, started, stopped, address, List.filterMap_map,
      same, List.filterMap_some, List.nil_append, List.append_nil]
  constructor
  · intro right
    -- what was taken is as long as the buffer that was asked for
    have lengths := congrArg List.length (right.stored rfl)
    rw [data, Mem.length_read, length_dataFrom] at lengths
    obtain ⟨some, most⟩ := (readLength_eq_iff intMode count).mp lengths.symm
    refine ⟨some, most, ?_⟩
    intro j inside
    rcases Nat.lt_or_ge j ps.length with early | late
    · exact acks.mp (right.acknowledged rfl) j early
    · obtain rfl : j = ps.length := by omega
      exact acknowledged
  · rintro ⟨some, most, all⟩
    have length := (readLength_eq_iff intMode count).mpr ⟨some, most⟩
    rw [length] at buf touched data
    constructor
    · intro _
      apply acks.mpr
      intro j inside
      exact all j (by omega)
    · intro _
      have stored := Mem.read_write_self userBuf 0 (dataFrom slave 0 count.toNat)
      rw [length_dataFrom] at stored
      rw [data, buf]
      exact stored
    · intro offset member
      rw [touched] at member
      have below := (List.mem_range'_1.mp member).2
      omega

theorem i2c2Read_right_iff (hw : Controller) (slave : Slave) (userBuf : Mem UInt8) (count : UInt32)
    (op : I2cOp) (idle : Idle al ia s) (enough : 300 ≤ fuel) :
    ∃ t, i2c2Read fuel hw slave userBuf count op s = some (t, 0) ∧ Idle al ia t ∧
      (ReadRight count (t, 0) ↔ ReadFits slave al ia s.stat.intMode count) := by
  obtain ⟨rw, mode⟩ := idle.mode
  obtain ⟨p, ps, script, addressing, start⟩ := setup_addressing true userBuf count op idle
  have chain := phases_chain true al ia count op
  have number := phases_read al ia op
  have short := length_phases true al ia op
  rw [script] at chain number short
  rw [List.length_cons] at number short
  obtain ⟨rest, rfl⟩ : ∃ rest, fuel = rest + ps.length := ⟨fuel - ps.length, by omega⟩
  rw [i2c2Read, mode, workMode_read]
  rcases addressing.run hw slave rest chain with
    ⟨i, inside, refused, bus, byte, t, waited, stopped⟩ | ⟨q, u, last, waited, addressed, onBus⟩
  · -- a byte of the address before the last is refused
    rw [Nat.zero_add] at refused
    obtain ⟨t, returned, idle, bus', -, -⟩ := i2c2Transfer_returns ⟨t, waited, stopped⟩
    exact ⟨t, returned, idle, readRight_iff_refused _ (by omega) refused bus'⟩
  · rw [Nat.zero_add] at addressed
    have lastPhase : (phases true al ia op).getLast? = some q := by rwa [script]
    obtain ⟨flag, sta⟩ := phases_last true al ia op lastPhase
    obtain ⟨rest, rfl⟩ : ∃ fewer, rest = fewer + 1 := ⟨rest - 1, by omega⟩
    have busy : u.gi2c2.transDone = 0 := by
      rw [addressed.msg]
      rfl
    rw [waitBusy_turn busy addressed.sto] at waited
    cases acknowledged : slave.ack ps.length with
    | false =>
      obtain ⟨t, sent, stopped⟩ :=
        (addressed.refused hw acknowledged (.inr (sta rfl))).waitBusy hw slave rest
      obtain ⟨t, returned, idle, bus, -, -⟩ := i2c2Transfer_returns ⟨t, waited.trans sent, stopped⟩
      exact ⟨t, returned, idle, readRight_iff_refused _ (by omega) acknowledged bus⟩
    | true =>
      have receiving := addressed.receiving hw flag (sta rfl) acknowledged
      rw [← readLength, onBus, start] at receiving
      have bound := readLength_le s.stat.intMode count
      have enough : readLength s.stat.intMode count - 0 ≤ rest := by omega
      obtain ⟨t, sent, stopped⟩ := receiving.waitBusy hw enough
      obtain ⟨t, returned, idle, bus, buf, touched⟩ := i2c2Transfer_returns ⟨t, waited.trans sent, stopped⟩
      exact ⟨t, returned, idle, readRight_iff number acknowledged bus buf touched⟩

/-- A master's call returns, and is right exactly when the slave and the count fit, for any level that
stands in the register and any pace of the controller; and it leaves the driver as it found it, for the
next call. -/
theorem i2c2_right_iff (idle : Idle al ia s) (enough : 300 ≤ fuel) (hw : Controller) (slave : Slave)
    (userBuf : Mem UInt8) (count : UInt32) (op : I2cOp) :
    (∃ t, i2c2Write fuel hw slave userBuf count op s = some (t, 0) ∧ Idle al ia t ∧
      (WriteRight al ia op userBuf count (t, 0) ↔ WriteFits slave al ia op count)) ∧
    ∃ t, i2c2Read fuel hw slave userBuf count op s = some (t, 0) ∧ Idle al ia t ∧
      (ReadRight count (t, 0) ↔ ReadFits slave al ia s.stat.intMode count) := by
  constructor
  · exact i2c2Write_right_iff hw slave userBuf count op idle enough
  · exact i2c2Read_right_iff hw slave userBuf count op idle enough

/-- A master with 7-bit addresses, with the level 3 of a short read before. -/
def opened : State :=
  { gi2c2 := ⟨0, 0, 0, 0, 0, 0, 0, 0⟩
    stat := ⟨false, 3, false, false, false, false, false, false⟩
    txFifo := []
    userBuf := fun _ => 0
    bus := []
    sent := 0
    taken := 0
    touched := [] }

/-- A read of 20 bytes from a slave that takes everything. -/
theorem i2c2_right_iff_twenty :
    ∃ t, i2c2Read 300 ⟨fun _ => 0, true⟩ ⟨fun _ => true, UInt8.ofNat⟩ (fun _ => 0) 20 ⟨0x21, 3⟩ opened =
      some (t, 0) ∧ ReadRight 20 (t, 0) := by
  have idle : Idle false false opened := ⟨⟨false, rfl⟩, rfl, rfl, rfl⟩
  obtain ⟨t, returned, -, right_iff⟩ := (i2c2_right_iff idle (Nat.le_refl 300) ⟨fun _ => 0, true⟩
    ⟨fun _ => true, UInt8.ofNat⟩ (fun _ => 0) 20 ⟨0x21, 3⟩).2
  exact ⟨t, returned, right_iff.mpr ⟨by decide, by decide, fun _ _ => rfl⟩⟩

/-- A write of 256 bytes to the same slave sends the address alone and returns 0. -/
theorem write_sends_nothing :
    ∃ t, i2c2Write 1 ⟨fun _ => 0, true⟩ ⟨fun _ => true, UInt8.ofNat⟩ (fun _ => 7) 256 ⟨0x21, 3⟩ opened =
      some (t, 0) ∧ t.bus = [.start, .sent 0x42 true, .stop] ∧
      ¬ WriteRight false false ⟨0x21, 3⟩ (fun _ => 7) 256 (t, 0) := by
  refine ⟨_, rfl, by decide, ?_⟩
  intro right
  have lengths := congrArg List.length (right.sent rfl)
  rw [List.length_append, Mem.length_read] at lengths
  exact absurd lengths (by decide)

end Bk7251.I2c2
