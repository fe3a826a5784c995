import Bk7251.I2c.Transfers

/-!
# What the calls of the driver return

A call is right when a result of 0 means that the bytes asked for went over the bus. Which slaves and
counts that holds for is settled for every call after any others.
-/
namespace Bk7251.I2c

open Lib

variable {slave : Nat → Reply} {fuel : Nat} {s : State} {userBuf : Mem UInt8} {count : UInt32} {op : I2cOp}

def I2cOp.address (op : I2cOp) : UInt8 := (op.salveId &&& 0x7f) <<< 1

/-- The byte of an event that the slave sent. -/
def BusEvent.data : BusEvent → Option UInt8
  | .received byte => some byte
  | _ => none

/-- Between two calls. -/
structure Idle (s : State) : Prop where
  transDone : s.gi2c1.transDone = 0
  sto : s.config.sto = false

theorem idle_init : Idle i2c1Init := ⟨rfl, rfl⟩

/-- A call that waits returns the error of the wait. -/
theorem i2c1Transfer_returns {txMode : UInt8} {errorNo : UInt8} {bus : List BusEvent} {buf : Mem UInt8}
    {touched : List Nat} (idle : Idle s)
    (waited : ∃ t, waitDone slave fuel 0 (i2c1Setup txMode userBuf count op s) = some t ∧
      Stopped errorNo bus buf touched t) :
    ∃ t, i2c1Transfer txMode fuel slave userBuf count op s = some (t, errorNo.toUInt32) ∧ Idle t ∧
      t.bus = bus ++ [.stop] ∧ t.userBuf = buf ∧ t.touched = touched := by
  obtain ⟨t, returned, stopped⟩ := waited
  refine ⟨{ t with gi2c1.transDone := 0 }, ?_, ⟨rfl, stopped.sto⟩, stopped.bus, stopped.userBuf,
    stopped.touched⟩
  unfold i2c1Transfer
  rw [if_neg (not_not_intro idle.transDone), returned, Option.map_some, stopped.errorNo]

/-! ### Writing -/

theorem write_refused (userBuf : Mem UInt8) (count : UInt32) (op : I2cOp) (idle : Idle s) {reply : Reply}
    (refused : reply.ack = false) :
    Finished 0 [.start, .sent op.address false] userBuf []
      (i2c1Isr (busByte reply (i2c1Setup 1 userBuf count op s))) := by
  constructor <;> simp [i2c1Isr, busByte, busStop, masterWrite, i2c1Setup, refused, idle.sto, I2cOp.address]

theorem write_addressed (userBuf : Mem UInt8) (count : UInt32) (op : I2cOp) (idle : Idle s) {reply : Reply}
    (acknowledged : reply.ack = true) :
    ∃ t, i2c1Isr (busByte reply (i2c1Setup 1 userBuf count op s)) = t ∧ Sending t ∧
      t.gi2c1.remainNum = count.toUInt16 ∧ t.gi2c1.pData = 0 ∧ t.dat = op.opAddr ∧
      t.bus = [.start, .sent op.address true] ∧ t.userBuf = userBuf ∧ t.touched = [] := by
  refine ⟨_, rfl, ?_⟩
  have step : i2c1Isr (busByte reply (i2c1Setup 1 userBuf count op s)) =
      { gi2c1 := ⟨1, op.opAddr, count.toUInt16, 0, op.salveId, 0x13, 0, 0⟩
        config := { s.config with txMode := true, ensmb := true, sta := false, si := false, ackRx := true }
        dat := op.opAddr
        userBuf := userBuf
        bus := [.start, .sent op.address true]
        touched := [] } := by
    simp [i2c1Isr, busByte, busStop, masterWrite, i2c1Setup, acknowledged, idle.sto, I2cOp.address]
  rw [step]
  refine ⟨?_, rfl, rfl, rfl, rfl, rfl, rfl⟩
  have writes : (1 : UInt8) &&& 0x01 ≠ 0 := by decide
  have addressed : (0x13 : UInt8) &&& 0x10 ≠ 0 := by decide
  exact ⟨writes, addressed, rfl, rfl, rfl, idle.sto, rfl⟩

/-- A write returns 0 whatever happens. -/
theorem i2c1Write_returns (slave : Nat → Reply) (userBuf : Mem UInt8) (count : UInt32) (op : I2cOp)
    (idle : Idle s) (enough : 65539 ≤ fuel) :
    ∃ t used, i2c1Write fuel slave userBuf count op s = some (t, 0) ∧ Idle t ∧
      used ≤ count.toUInt16.toNat ∧ t.touched = List.range' 0 used ∧
      t.bus = .start :: sentUntilNack slave 0
        (op.address :: op.opAddr :: userBuf.read 0 count.toUInt16.toNat) ++ [.stop] := by
  have small := count.toUInt16.toNat_lt
  obtain ⟨fuel, rfl⟩ := Nat.exists_eq_succ_of_ne_zero (Nat.ne_of_gt (Nat.zero_lt_of_lt enough))
  have turn : waitDone slave (fuel + 1) 0 (i2c1Setup 1 userBuf count op s) = _ :=
    waitDone_turn rfl
  cases acknowledged : (slave 0).ack with
  -- refused at its address, and still without an error
  | false =>
    obtain ⟨t, waited, stopped⟩ := (write_refused userBuf count op idle acknowledged).waitDone
    rw [← turn] at waited
    obtain ⟨t, returned, idle, bus, -, touched⟩ := i2c1Transfer_returns idle ⟨t, waited, stopped⟩
    refine ⟨t, 0, returned, idle, Nat.zero_le _, touched, ?_⟩
    rw [bus, sentUntilNack, acknowledged]
    rfl
  | true =>
    obtain ⟨u, turned, sending, remain, pData, dat, bus, buf, touched⟩ :=
      write_addressed userBuf count op idle acknowledged
    have left : u.gi2c1.remainNum.toNat < fuel := by
      rw [remain]
      omega
    obtain ⟨t, used, waited, few, stopped⟩ := sending.waitDone left
    rw [← turned, ← turn] at waited
    rw [remain, bus, touched, pData, dat, buf] at stopped
    rw [remain] at few
    obtain ⟨t, returned, idle, bus, -, touched⟩ := i2c1Transfer_returns idle ⟨t, waited, stopped⟩
    refine ⟨t, used, returned, idle, few, touched, ?_⟩
    have first (rest : List UInt8) : sentUntilNack slave 0 (op.address :: rest) =
        .sent op.address true :: sentUntilNack slave 1 rest := by
      rw [sentUntilNack, acknowledged]
      rfl
    rw [bus, first]
    rfl

/-! ### Reading -/

/-- A byte sent while reading: refused with an error where an address is still to come. -/
theorem read_refused (idle : Idle s) {reply : Reply} (refused : reply.ack = false) :
    Finished 1 [.start, .sent op.address false] userBuf []
      (i2c1Isr (busByte reply (i2c1Setup 0 userBuf count op s))) := by
  constructor <;> simp [i2c1Isr, busByte, busStop, masterRead, i2c1Setup, refused, idle.sto, I2cOp.address]

/-- The slave's address is through, and the register's address is the next byte. -/
def readRegister (userBuf : Mem UInt8) (count : UInt32) (op : I2cOp) (s : State) : State :=
  { gi2c1 := ⟨0, op.opAddr, count.toUInt16, 0, op.salveId, 0x0A, 0, 0⟩
    config := { s.config with txMode := true, ensmb := true, sta := false, si := false, ackRx := true }
    dat := op.opAddr
    userBuf := userBuf
    bus := [.start, .sent op.address true]
    touched := [] }

/-- The repeated start is due. -/
def readRestart (userBuf : Mem UInt8) (count : UInt32) (op : I2cOp) (s : State) : State :=
  { readRegister userBuf count op s with
    gi2c1 := ⟨0, op.opAddr, count.toUInt16, 0, op.salveId, 0x1B, 0, 0⟩
    config := { s.config with txMode := true, ensmb := true, sta := true, si := false, ackRx := true }
    dat := (op.salveId <<< 1) ||| 0x01
    bus := [.start, .sent op.address true, .sent op.opAddr true] }

theorem read_registered (idle : Idle s) {reply : Reply} (acknowledged : reply.ack = true) :
    i2c1Isr (busByte reply (i2c1Setup 0 userBuf count op s)) = readRegister userBuf count op s := by
  simp [i2c1Isr, busByte, busStop, masterRead, i2c1Setup, readRegister, acknowledged, idle.sto,
    I2cOp.address]

theorem register_refused (idle : Idle s) {reply : Reply} (refused : reply.ack = false) :
    Finished 1 [.start, .sent op.address true, .sent op.opAddr false] userBuf []
      (i2c1Isr (busByte reply (readRegister userBuf count op s))) := by
  have pending : (0x0A : UInt8) &&& 0x10 = 0 := by decide
  constructor <;> simp [i2c1Isr, busByte, busStop, masterRead, readRegister, refused, idle.sto, pending]

theorem register_acknowledged (idle : Idle s) {reply : Reply} (acknowledged : reply.ack = true) :
    i2c1Isr (busByte reply (readRegister userBuf count op s)) = readRestart userBuf count op s := by
  have pending : (0x0A : UInt8) &&& 0x10 = 0 := by decide
  have registered : (0x0A : UInt8) &&& 0x08 ≠ 0 := by decide
  have flag : (0x0A : UInt8) ||| 0x13 = 0x1B := by decide
  simp [i2c1Isr, busByte, busStop, masterRead, readRegister, readRestart, acknowledged, idle.sto, pending,
    registered, flag]

/-- Refused after the repeated start: no error. -/
theorem restart_refused (userBuf : Mem UInt8) (count : UInt32) (op : I2cOp) (idle : Idle s) {reply : Reply}
    (refused : reply.ack = false) :
    ∃ bus, bus.filterMap BusEvent.data = [] ∧ Finished 0 bus userBuf []
      (i2c1Isr (busByte reply (readRestart userBuf count op s))) := by
  have addressed : (0x1B : UInt8) &&& 0x10 ≠ 0 := by decide
  refine ⟨[.start, .sent op.address true, .sent op.opAddr true, .start,
    .sent ((op.salveId <<< 1) ||| 0x01) false], rfl, ?_⟩
  constructor <;> simp [i2c1Isr, busByte, busStop, masterRead, readRegister, readRestart, refused, idle.sto,
    addressed]

theorem restart_acknowledged (userBuf : Mem UInt8) (count : UInt32) (op : I2cOp) (idle : Idle s)
    {reply : Reply} (acknowledged : reply.ack = true) :
    ∃ t, i2c1Isr (busByte reply (readRestart userBuf count op s)) = t ∧ Receiving t ∧
      t.gi2c1.remainNum = count.toUInt16 ∧ t.gi2c1.pData = 0 ∧ t.bus.filterMap BusEvent.data = [] ∧
      t.userBuf = userBuf ∧ t.touched = [] := by
  refine ⟨_, rfl, ?_⟩
  have addressed : (0x1B : UInt8) &&& 0x10 ≠ 0 := by decide
  have step : i2c1Isr (busByte reply (readRestart userBuf count op s)) =
      { readRestart userBuf count op s with
        config := { s.config with
          txMode := false, ensmb := true, sta := false, si := false, ackRx := true, ackTx := true }
        bus := [.start, .sent op.address true, .sent op.opAddr true, .start,
          .sent ((op.salveId <<< 1) ||| 0x01) true] } := by
    simp [i2c1Isr, busByte, busStop, masterRead, readRegister, readRestart, acknowledged, idle.sto,
      addressed]
  rw [step]
  refine ⟨?_, rfl, rfl, rfl, rfl, rfl⟩
  have reads : (0 : UInt8) &&& 0x01 = 0 := by decide
  exact ⟨reads, addressed, rfl, rfl, rfl, idle.sto, rfl⟩

def readErrorNo (slave : Nat → Reply) : UInt8 := if (slave 0).ack ∧ (slave 1).ack then 0 else 1

/-- The number of bytes a read takes from the slave. -/
def readLength (slave : Nat → Reply) (count : UInt32) : Nat :=
  if (slave 0).ack ∧ (slave 1).ack ∧ (slave 2).ack then (count.toUInt16 - 1).toNat + 1 else 0

/-- The three bytes before the data, one after the other, and then the data. -/
theorem read_waits (slave : Nat → Reply) (userBuf : Mem UInt8) (count : UInt32) (op : I2cOp) (idle : Idle s)
    (enough : 65539 ≤ fuel) :
    ∃ bus, bus.filterMap BusEvent.data = dataFrom slave 3 (readLength slave count) ∧
      ∃ t, waitDone slave fuel 0 (i2c1Setup 0 userBuf count op s) = some t ∧
        Stopped (readErrorNo slave) bus (userBuf.write 0 (dataFrom slave 3 (readLength slave count)))
          (List.range' 0 (readLength slave count)) t := by
  obtain ⟨fuel, rfl⟩ : ∃ rest, fuel = rest + 1 + 1 + 1 := ⟨fuel - 3, by omega⟩
  have nothing : userBuf.write 0 (dataFrom slave 3 0) = userBuf := Mem.write_nil userBuf 0
  rw [waitDone_turn (s := i2c1Setup 0 userBuf count op s) rfl]
  cases first : (slave 0).ack with
  | false =>
    have error : readErrorNo slave = 1 := by simp [readErrorNo, first]
    have length : readLength slave count = 0 := by simp [readLength, first]
    rw [error, length, nothing]
    exact ⟨_, rfl, (read_refused idle first).waitDone⟩
  | true =>
    rw [read_registered idle first, waitDone_turn (s := readRegister userBuf count op s) rfl]
    cases second : (slave 1).ack with
    | false =>
      have error : readErrorNo slave = 1 := by simp [readErrorNo, second]
      have length : readLength slave count = 0 := by simp [readLength, second]
      rw [error, length, nothing]
      exact ⟨_, rfl, (register_refused idle second).waitDone⟩
    | true =>
      have error : readErrorNo slave = 0 := by simp [readErrorNo, first, second]
      rw [register_acknowledged idle second, waitDone_turn (s := readRestart userBuf count op s) rfl, error]
      cases third : (slave 2).ack with
      -- the error number is set only before the repeated start
      | false =>
        have length : readLength slave count = 0 := by simp [readLength, third]
        obtain ⟨bus, data, finished⟩ := restart_refused userBuf count op idle third
        rw [length, nothing]
        exact ⟨bus, data, finished.waitDone⟩
      | true =>
        have length : readLength slave count = (count.toUInt16 - 1).toNat + 1 := by
          simp [readLength, first, second, third]
        -- the count goes down before it is looked at, so 0 stands for 65536
        have small := (count.toUInt16 - 1).toNat_lt
        obtain ⟨u, turned, receiving, remain, pData, data, buf, touched⟩ :=
          restart_acknowledged userBuf count op idle third
        have left : (u.gi2c1.remainNum - 1).toNat < fuel := by
          rw [remain]
          omega
        obtain ⟨t, waited, stopped⟩ := receiving.waitDone left
        rw [remain, ← length, pData, buf, touched] at stopped
        refine ⟨_, ?_, t, turned ▸ waited, stopped⟩
        rw [List.filterMap_append, data, List.filterMap_map]
        exact List.filterMap_some

theorem i2c1Read_returns (slave : Nat → Reply) (userBuf : Mem UInt8) (count : UInt32) (op : I2cOp)
    (idle : Idle s) (enough : 65539 ≤ fuel) :
    ∃ t, i2c1Read fuel slave userBuf count op s = some (t, (readErrorNo slave).toUInt32) ∧ Idle t ∧
      t.bus.filterMap BusEvent.data = dataFrom slave 3 (readLength slave count) ∧
      t.userBuf = userBuf.write 0 (dataFrom slave 3 (readLength slave count)) ∧
      t.touched = List.range' 0 (readLength slave count) := by
  obtain ⟨bus, data, waited⟩ := read_waits slave userBuf count op idle enough
  obtain ⟨t, returned, idle, sent, buf, touched⟩ := i2c1Transfer_returns idle waited
  refine ⟨t, returned, idle, ?_, buf, touched⟩
  rw [sent, List.filterMap_append, data]
  exact List.append_nil _

/-! ### What the calls promise -/

/-- A write that returns 0 put both addresses and the bytes on the bus, all of them acknowledged; and none
comes from beyond the buffer. -/
structure WriteRight (op : I2cOp) (userBuf : Mem UInt8) (count : UInt32) (result : State × UInt32) :
    Prop where
  sent : result.2 = 0 → result.1.bus =
    [.start, .sent op.address true, .sent op.opAddr true] ++
      (userBuf.read 0 count.toNat).map (BusEvent.sent · true) ++ [.stop]
  inside : ∀ offset ∈ result.1.touched, offset < count.toNat

/-- A read that returns 0 left in the buffer what the slave sent; and nothing is stored beyond it. -/
structure ReadRight (count : UInt32) (result : State × UInt32) : Prop where
  stored : result.2 = 0 →
    result.1.userBuf.read 0 count.toNat = result.1.bus.filterMap BusEvent.data
  inside : ∀ offset ∈ result.1.touched, offset < count.toNat

/-- The count fits `RemainNum`, and the slave acknowledges every byte. -/
def WriteFits (slave : Nat → Reply) (count : UInt32) : Prop :=
  count.toNat < 65536 ∧ ∀ i < count.toNat + 2, (slave i).ack = true

/-- The slave refuses one of the first two bytes, which is an error; or it refuses the address after the
repeated start and nothing was asked for; or it takes all three and the count fits. -/
def ReadFits (slave : Nat → Reply) (count : UInt32) : Prop :=
  (slave 0).ack = false ∨ (slave 1).ack = false ∨
    ((slave 2).ack = false ∧ count = 0) ∨
      ((slave 2).ack = true ∧ 0 < count.toNat ∧ count.toNat ≤ 65536)

theorem length_sentUntilNack_le (slave : Nat → Reply) (n : Nat) (bytes : List UInt8) :
    (sentUntilNack slave n bytes).length ≤ bytes.length := by
  induction bytes generalizing n with
  | nil => exact Nat.le_refl _
  | cons byte bytes ih =>
    simp only [sentUntilNack, List.length_cons]
    split
    · exact Nat.succ_le_succ (ih (n + 1))
    · exact Nat.succ_le_succ (Nat.zero_le _)

theorem sentUntilNack_eq_iff (n : Nat) (bytes : List UInt8) :
    sentUntilNack slave n bytes = bytes.map (BusEvent.sent · true) ↔
      ∀ i < bytes.length, (slave (n + i)).ack = true := by
  induction bytes generalizing n with
  | nil => simp [sentUntilNack]
  | cons byte bytes ih =>
    cases acknowledged : (slave n).ack with
    | false =>
      -- the first byte is on the bus without its acknowledgement
      refine iff_of_false (fun same => ?_) (fun all => ?_)
      · simp [sentUntilNack, acknowledged] at same
      · have first := all 0 (Nat.succ_pos _)
        rw [Nat.add_zero, acknowledged] at first
        exact Bool.false_ne_true first
    | true =>
      simp only [sentUntilNack, acknowledged, if_true, List.map_cons, List.cons.injEq, true_and, ih]
      constructor
      · intro later i inside
        cases i with
        | zero => exact acknowledged
        | succ i =>
          have next := later i (Nat.lt_of_succ_lt_succ inside)
          rwa [Nat.add_right_comm] at next
      · intro all i inside
        have next := all (i + 1) (Nat.succ_lt_succ inside)
        rwa [Nat.add_right_comm]

theorem toNat_remainNum (count : UInt32) : count.toUInt16.toNat = count.toNat % 65536 :=
  UInt32.toNat_toUInt16 count

theorem i2c1Write_right_iff (slave : Nat → Reply) (userBuf : Mem UInt8) (count : UInt32) (op : I2cOp)
    (idle : Idle s) (enough : 65539 ≤ fuel) :
    ∃ w, i2c1Write fuel slave userBuf count op s = some w ∧ Idle w.1 ∧
      (WriteRight op userBuf count w ↔ WriteFits slave count) := by
  obtain ⟨t, used, returned, idle, few, touched, bus⟩ :=
    i2c1Write_returns slave userBuf count op idle enough
  refine ⟨(t, 0), returned, idle, ?_⟩
  rw [toNat_remainNum] at few bus
  constructor
  · intro right
    have sent := right.sent rfl
    rw [bus] at sent
    have same := List.append_cancel_right sent
    have bytes : sentUntilNack slave 0 (op.address :: op.opAddr :: userBuf.read 0 (count.toNat % 65536)) =
        (op.address :: op.opAddr :: userBuf.read 0 count.toNat).map (BusEvent.sent · true) :=
      (List.cons.inj same).2
    -- fewer bytes than asked for cannot be as many
    have fits : count.toNat < 65536 := by
      have most := length_sentUntilNack_le slave 0
        (op.address :: op.opAddr :: userBuf.read 0 (count.toNat % 65536))
      rw [bytes] at most
      simp only [List.length_map, List.length_cons, Mem.length_read] at most
      omega
    refine ⟨fits, fun i inside => ?_⟩
    rw [Nat.mod_eq_of_lt fits, sentUntilNack_eq_iff] at bytes
    have acknowledged := bytes i (by simpa only [List.length_cons, Mem.length_read] using inside)
    rwa [Nat.zero_add] at acknowledged
  · rintro ⟨fits, all⟩
    rw [Nat.mod_eq_of_lt fits] at few bus
    refine ⟨fun _ => ?_, fun offset member => ?_⟩
    · have bytes : sentUntilNack slave 0 (op.address :: op.opAddr :: userBuf.read 0 count.toNat) =
          (op.address :: op.opAddr :: userBuf.read 0 count.toNat).map (BusEvent.sent · true) := by
        refine (sentUntilNack_eq_iff 0 _).mpr fun i inside => ?_
        rw [Nat.zero_add]
        exact all i (by simpa only [List.length_cons, Mem.length_read] using inside)
      rw [bus, bytes]
      rfl
    · rw [touched] at member
      have below := (List.mem_range'_1.mp member).2
      omega

theorem readLength_eq_iff (first : (slave 0).ack = true) (second : (slave 1).ack = true)
    (third : (slave 2).ack = true) :
    readLength slave count = count.toNat ↔ 0 < count.toNat ∧ count.toNat ≤ 65536 := by
  have one : (1 : UInt16).toNat = 1 := rfl
  simp only [readLength, first, second, third, and_self, if_true, UInt16.toNat_sub, toNat_remainNum, one]
  omega

theorem i2c1Read_right_iff (slave : Nat → Reply) (userBuf : Mem UInt8) (count : UInt32) (op : I2cOp)
    (idle : Idle s) (enough : 65539 ≤ fuel) :
    ∃ r, i2c1Read fuel slave userBuf count op s = some r ∧ Idle r.1 ∧
      (ReadRight count r ↔ ReadFits slave count) := by
  obtain ⟨t, returned, idle, data, buf, touched⟩ :=
    i2c1Read_returns slave userBuf count op idle enough
  refine ⟨_, returned, idle, ?_⟩
  -- a result of 0 is right exactly when as many bytes came as were asked for
  have right_iff : ReadRight count (t, (readErrorNo slave).toUInt32) ↔
      ((readErrorNo slave).toUInt32 = 0 → readLength slave count = count.toNat) ∧
        readLength slave count ≤ count.toNat := by
    constructor
    · rintro ⟨stored, inside⟩
      refine ⟨fun good => ?_, ?_⟩
      · have lengths := congrArg List.length (stored good)
        rw [data, Mem.length_read, length_dataFrom] at lengths
        exact lengths.symm
      · by_contra beyond
        have member : count.toNat ∈ t.touched := by
          rw [touched]
          exact List.mem_range'_1.mpr ⟨Nat.zero_le _, by omega⟩
        exact Nat.lt_irrefl _ (inside _ member)
    · rintro ⟨exact_length, inside⟩
      refine ⟨fun good => ?_, fun offset member => ?_⟩
      · have all := Mem.read_write_self userBuf 0 (dataFrom slave 3 (readLength slave count))
        rw [length_dataFrom, exact_length good] at all
        rw [data, buf, exact_length good]
        exact all
      · rw [touched] at member
        have below := (List.mem_range'_1.mp member).2
        omega
  rw [right_iff]
  cases first : (slave 0).ack with
  | false =>
    refine iff_of_true ⟨fun good => ?_, ?_⟩ (.inl first)
    · simp [readErrorNo, first] at good
    · simp [readLength, first]
  | true =>
    cases second : (slave 1).ack with
    | false =>
      refine iff_of_true ⟨fun good => ?_, ?_⟩ (.inr (.inl second))
      · simp [readErrorNo, second] at good
      · simp [readLength, second]
    | true =>
      have good : (readErrorNo slave).toUInt32 = 0 := by
        simp [readErrorNo, first, second]
      cases third : (slave 2).ack with
      | false =>
        have none : readLength slave count = 0 := by simp [readLength, third]
        simp only [ReadFits, first, second, third, good, none, Nat.zero_le, and_true, true_implies,
          Bool.true_eq_false, Bool.false_eq_true, false_or, false_and, or_false, true_and]
        rw [eq_comm, ← UInt32.toNat_inj]
        rfl
      | true =>
        simp only [ReadFits, first, second, third, good, true_implies, Bool.true_eq_false, false_or,
          false_and, true_and]
        rw [← readLength_eq_iff first second third]
        exact and_iff_left_of_imp Nat.le_of_eq

/-- Calls leave the driver idle. -/
theorem calls_idle (enough : 65539 ≤ fuel) (calls : List Call) (idle : Idle s) :
    ∃ t, calls.foldlM (Call.exec fuel) s = some t ∧ Idle t := by
  induction calls generalizing s with
  | nil => exact ⟨s, rfl, idle⟩
  | cons c calls ih =>
    obtain ⟨u, called, next⟩ : ∃ u, c.exec fuel s = some u ∧ Idle u := by
      unfold Call.exec
      cases c.write with
      | true =>
        obtain ⟨w, returned, next, -⟩ := i2c1Write_right_iff c.slave c.userBuf c.count c.op idle enough
        exact ⟨w.1, congrArg (Option.map Prod.fst) returned, next⟩
      | false =>
        obtain ⟨r, returned, next, -⟩ := i2c1Read_right_iff c.slave c.userBuf c.count c.op idle enough
        exact ⟨r.1, congrArg (Option.map Prod.fst) returned, next⟩
    obtain ⟨t, rest, last⟩ := ih next
    refine ⟨t, ?_, last⟩
    rw [List.foldlM_cons, called]
    exact rest

/-- After any calls, a write and a read return, and each is right exactly when the slave and the count fit:
a write never reports a byte that is not acknowledged, nor a read a repeated start that is not. -/
theorem i2c1_right_iff (enough : 65539 ≤ fuel) (calls : List Call) (slave : Nat → Reply)
    (userBuf : Mem UInt8) (count : UInt32) (op : I2cOp) :
    ∃ s, calls.foldlM (Call.exec fuel) i2c1Init = some s ∧
      (∃ w, i2c1Write fuel slave userBuf count op s = some w ∧
        (WriteRight op userBuf count w ↔ WriteFits slave count)) ∧
      ∃ r, i2c1Read fuel slave userBuf count op s = some r ∧
        (ReadRight count r ↔ ReadFits slave count) := by
  obtain ⟨s, called, idle⟩ := calls_idle enough calls idle_init
  obtain ⟨w, written, -, write_iff⟩ :=
    i2c1Write_right_iff slave userBuf count op idle enough
  obtain ⟨r, read, -, read_iff⟩ :=
    i2c1Read_right_iff slave userBuf count op idle enough
  exact ⟨s, called, ⟨w, written, write_iff⟩, r, read, read_iff⟩

/-- One byte to a slave that takes everything. -/
theorem i2c1_right_iff_one :
    ∃ w, i2c1Write 65539 (fun _ => ⟨true, 0⟩) (fun _ => 7) 1 ⟨0x21, 3⟩ i2c1Init = some w ∧
      WriteRight ⟨0x21, 3⟩ (fun _ => 7) 1 w := by
  obtain ⟨s, called, ⟨w, written, right_iff⟩, -⟩ :=
    i2c1_right_iff (by decide : 65539 ≤ 65539) [] (fun _ => ⟨true, 0⟩) (fun _ => 7) 1 ⟨0x21, 3⟩
  obtain rfl : i2c1Init = s := Option.some.inj called
  exact ⟨w, written, right_iff.mpr ⟨by decide, fun _ _ => rfl⟩⟩

/-- A slave that acknowledges nothing: the write of one byte returns 0. -/
theorem unacknowledged_write_succeeds :
    ∃ t, i2c1Write 2 (fun _ => ⟨false, 0⟩) (fun _ => 7) 1 ⟨0x21, 3⟩ i2c1Init = some (t, 0) ∧
      t.bus = [.start, .sent 0x42 false, .stop] ∧
      ¬ WriteRight ⟨0x21, 3⟩ (fun _ => 7) 1 (t, 0) := by
  refine ⟨_, rfl, by decide, fun right => ?_⟩
  exact absurd (right.sent rfl) (by decide)

end Bk7251.I2c
