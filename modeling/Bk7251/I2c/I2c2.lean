import Bk7251.I2c.I2c1

/-!
# The second I2C controller

`driver/i2c/i2c2.c`. The controller has a FIFO of 16 bytes in each direction. The driver fills the one or
empties the other at an interrupt, and `I2C2_INT_MODE` says at which level the next interrupt comes.
-/
namespace Bk7251.I2c2

open Lib
open I2c (I2cOp BusEvent)

/-- The bits of `REG_I2C2_STA`. -/
structure Status where
  si : Bool
  intMode : BitVec 2
  ack : Bool
  sto : Bool
  sta : Bool
  addrMatch : Bool
  txMode : Bool
  busy : Bool

/-- `I2C2_MSG_ST`; `pData` is `user_buf`. -/
structure Msg where
  wkMode : UInt8
  innerAddr : UInt8
  sendAddr : UInt8
  currentNum : UInt32
  allDataNum : UInt32
  addrFlag : UInt8
  transDone : UInt8
  ackCheck : UInt8

/-- `bus` is what went over the bus since the call began, as far as the driver has taken it from the
controller; `sent` and `taken` count the bytes in the two directions. `touched` are the offsets at which the
buffer of the call was read or written. -/
structure State where
  gi2c2 : Msg
  stat : Status
  txFifo : List UInt8
  userBuf : Mem UInt8
  bus : List BusEvent
  sent : Nat
  taken : Nat
  touched : List Nat

def RW_BIT : UInt8 := 0x01
def MS_BIT : UInt8 := 0x02
def AL_BIT : UInt8 := 0x04
def IA_BIT : UInt8 := 0x08

def FIFO_DEPTH : Nat := 16

/-- The slave acknowledges the bytes that it gets, by their number, and has bytes of its own. -/
structure Slave where
  ack : Nat → Bool
  data : Nat → UInt8

/-! ### The controller -/

/-- The free places in the FIFO at which the controller asks for more. -/
def fifoEmptyNum (intMode : BitVec 2) : UInt8 :=
  if intMode = 0 then 16 else if intMode = 1 then 12 else if intMode = 2 then 8 else 4

/-- The bytes in the other FIFO at which the controller has them fetched. -/
def fifoDataNum (intMode : BitVec 2) : UInt8 :=
  if intMode = 0 then 12 else if intMode = 1 then 8 else if intMode = 2 then 4 else 1

/-- How late the controller interrupts, by the bytes sent so far, and whether it does so at once when a byte
is not acknowledged. -/
structure Controller where
  pace : Nat → Nat
  halts : Bool

/-- `k` bytes of the FIFO, if it has so many. -/
def busSend (slave : Slave) (halts : Bool) : Nat → State → State
  | 0, s => s
  | k + 1, s =>
    match s.txFifo with
    | [] => s
    | byte :: rest =>
      let ack := slave.ack s.sent
      let s := { s with
        txFifo := rest
        bus := s.bus ++ [.sent byte ack]
        sent := s.sent + 1
        stat.ack := ack }
      if halts ∧ ack = false then s else busSend slave halts k s

/-- To the next interrupt: at least one byte if there is any, and as many as the level asks for. -/
def busTurn (hw : Controller) (slave : Slave) (s : State) : State :=
  let s := if s.stat.sta then { s with bus := s.bus ++ [.start], stat.busy := true } else s
  let level := FIFO_DEPTH - (fifoEmptyNum s.stat.intMode).toNat
  let s := busSend slave hw.halts (max (max 1 (s.txFifo.length - level)) (hw.pace s.sent)) s
  { s with stat.si := true }

/-- A stop frees the bus; what is left in the FIFO is gone. -/
def busStop (s : State) : State :=
  if s.stat.sto then { s with bus := s.bus ++ [.stop], txFifo := [], stat.sto := false, stat.busy := false }
  else s

/-- A byte for `REG_I2C2_DAT`; a full FIFO has no place for it. -/
def putDat (byte : UInt8) (s : State) : State :=
  if s.txFifo.length < FIFO_DEPTH then { s with txFifo := s.txFifo ++ [byte] } else s

@[simp] theorem putDat_gi2c2 (byte : UInt8) (s : State) : (putDat byte s).gi2c2 = s.gi2c2 := by
  unfold putDat
  split <;> rfl

/-! ### The interrupt -/

/-- The loop that fills the FIFO. -/
def putBytes : Nat → State → State
  | 0, s => s
  | k + 1, s =>
    let s := putDat (s.userBuf s.gi2c2.currentNum.toNat) s
    putBytes k { s with
      touched := s.touched ++ [s.gi2c2.currentNum.toNat]
      gi2c2.currentNum := s.gi2c2.currentNum + 1 }

/-- The loop that empties the FIFO. -/
def getBytes (slave : Slave) : Nat → State → State
  | 0, s => s
  | k + 1, s =>
    let byte := slave.data s.taken
    getBytes slave k { s with
      userBuf := s.userBuf.write s.gi2c2.currentNum.toNat [byte]
      bus := s.bus ++ [.received byte]
      taken := s.taken + 1
      touched := s.touched ++ [s.gi2c2.currentNum.toNat]
      gi2c2.currentNum := s.gi2c2.currentNum + 1 }

/-- `remain_data_cnt`, an 8-bit variable. -/
def remainDataCnt (s : State) : UInt8 := (s.gi2c2.allDataNum - s.gi2c2.currentNum).toUInt8

def orFlag (flag : UInt8) (s : State) : State := { s with gi2c2.addrFlag := s.gi2c2.addrFlag ||| flag }

/-- Case 0x00 of `i2c2_isr`; the local copy of the register is returned beside the state. -/
def masterWrite (s : State) (stat : Status) : State × Status :=
  let uctemp := s.gi2c2.addrFlag
  if s.gi2c2.ackCheck ≠ 0 ∧ stat.ack = false then
    ({ s with gi2c2.transDone := 1 }, { stat with sto := true })
  -- The address bytes have been sent.
  else if uctemp &&& 0x10 ≠ 0 then
    let remain := remainDataCnt s
    if remain = 0 then ({ s with gi2c2.transDone := 1 }, { stat with sto := true })
    else
      let fifoEmpty := fifoEmptyNum stat.intMode
      let dataNum := if remain < fifoEmpty then remain else fifoEmpty
      (putBytes dataNum.toNat s,
        if remain - dataNum < fifoEmpty then { stat with sta := false, intMode := 0 } else stat)
  else if s.gi2c2.wkMode &&& AL_BIT ≠ 0 then
    let s' := { s with gi2c2.sendAddr := s.gi2c2.sendAddr &&& 0xFF }
    if s.gi2c2.wkMode &&& IA_BIT ≠ 0 then
      if uctemp &&& 0x08 = 0 then
        if uctemp &&& 0x03 = 0x00 then (s, stat)
        else if uctemp &&& 0x03 = 0x01 then
          ({ putDat s'.gi2c2.sendAddr s' with gi2c2.addrFlag := uctemp + 1 }, stat)
        else (orFlag 0x1B (putDat s.gi2c2.innerAddr s), stat)
      else (orFlag 0x13 s, stat)
    else
      if uctemp &&& 0x03 = 0x00 then (s, stat)
      else if uctemp &&& 0x03 = 0x01 then (orFlag 0x13 (putDat s'.gi2c2.sendAddr s'), stat)
      else (orFlag 0x13 s, stat)
  else if s.gi2c2.wkMode &&& IA_BIT ≠ 0 then
    if uctemp &&& 0x08 = 0 then (orFlag 0x13 (putDat s.gi2c2.innerAddr s), stat)
    else (orFlag 0x13 s, stat)
  else (orFlag 0x13 s, stat)

/-- The second half of a 10-bit address, to read. -/
def readAddr10 (sendAddr : UInt8) : UInt8 := ((sendAddr >>> 7) &&& 0x06) ||| 0xF1

/-- Case 0x01 of `i2c2_isr`; `sta` is the bit as it was read. -/
def masterRead (slave : Slave) (s : State) (stat : Status) (sta : Bool) : State × Status :=
  let uctemp := s.gi2c2.addrFlag
  if sta = true ∧ s.gi2c2.ackCheck ≠ 0 ∧ stat.ack = false then
    ({ s with gi2c2.transDone := 1 }, { stat with sto := true })
  else if uctemp &&& 0x10 ≠ 0 then
    -- These bytes were the address, and no data has come yet.
    if sta then (s, { stat with ack := true })
    else
      let dataNum := fifoDataNum stat.intMode
      let remain := remainDataCnt s - dataNum
      let s := getBytes slave dataNum.toNat s
      if remain = 0 then
        ({ s with gi2c2.transDone := 1 }, { stat with ack := false, sta := false, sto := true })
      else if remain < dataNum then (s, { stat with ack := true, intMode := 3 })
      else (s, { stat with ack := true })
  else if s.gi2c2.wkMode &&& AL_BIT ≠ 0 then
    -- A second start, now to read.
    let restart := (orFlag 0x13 (putDat (readAddr10 s.gi2c2.sendAddr) s), { stat with sta := true })
    let second := ({ putDat (s.gi2c2.sendAddr &&& 0xFF) s with gi2c2.addrFlag := uctemp + 1 }, stat)
    if s.gi2c2.wkMode &&& IA_BIT ≠ 0 then
      if uctemp &&& 0x08 = 0 then
        if uctemp &&& 0x03 = 0x00 then (s, stat)
        else if uctemp &&& 0x03 = 0x01 then second
        else (orFlag 0x08 (putDat s.gi2c2.innerAddr s), stat)
      else if uctemp &&& 0x03 = 0x02 then restart
      else (s, stat)
    else
      if uctemp &&& 0x03 = 0x00 then (s, stat)
      else if uctemp &&& 0x03 = 0x01 then second
      else if uctemp &&& 0x03 = 0x02 then restart
      else (s, stat)
  else if s.gi2c2.wkMode &&& IA_BIT ≠ 0 then
    if uctemp &&& 0x08 = 0 then
      ({ putDat s.gi2c2.innerAddr s with gi2c2.addrFlag := (uctemp &&& ~~~0x0B) ||| 0x0A }, stat)
    else
      (orFlag 0x13 (putDat ((s.gi2c2.sendAddr <<< 1) ||| 0x01) s), { stat with sta := true })
  else (orFlag 0x13 s, stat)

/-- Case 0x02 of `i2c2_isr`. -/
def slaveWrite (s : State) (stat : Status) : State × Status :=
  if stat.sto then ({ s with gi2c2.transDone := 1 }, stat)
  else
    let stat := if stat.addrMatch then { stat with ack := true } else stat
    if stat.txMode = false then (s, stat)
    else if stat.ack then (putBytes 1 s, stat)
    else (s, stat)

/-- Case 0x03 of `i2c2_isr`. -/
def slaveRead (slave : Slave) (s : State) (stat : Status) : State × Status :=
  if stat.sto then ({ s with gi2c2.transDone := 1 }, stat)
  else if stat.addrMatch then (s, { stat with ack := true })
  else
    let dataNum := fifoDataNum stat.intMode
    let remain := remainDataCnt s - dataNum
    let s := getBytes slave dataNum.toNat s
    if remain = 0 then ({ s with gi2c2.transDone := 1 }, { stat with ack := false })
    else if remain < dataNum then (s, { stat with ack := true, intMode := 3 })
    else (s, { stat with ack := true })

def i2c2Isr (slave : Slave) (s : State) : State :=
  if s.stat.si = false then s
  else
    let workMode := s.gi2c2.wkMode &&& 0x03
    let (t, stat) :=
      if workMode = 0x00 then masterWrite s { s.stat with sta := false }
      else if workMode = 0x01 then masterRead slave s { s.stat with sta := false } s.stat.sta
      else if workMode = 0x02 then slaveWrite s s.stat
      else slaveRead slave s s.stat
    { t with stat := { stat with si := false } }

/-! ### The calls -/

/-- `i2c2_send_addr`. -/
def i2c2SendAddr (s : State) : State :=
  if s.gi2c2.wkMode &&& AL_BIT = 0 then
    let txData := (s.gi2c2.sendAddr <<< 1) &&& ~~~0x01
    let txData := if s.gi2c2.wkMode = 0x01 then txData ||| 0x01 else txData
    let s : State := { putDat txData s with gi2c2.addrFlag := s.gi2c2.addrFlag + 1 }
    if s.gi2c2.wkMode = 0x00 ∨ s.gi2c2.wkMode = 0x01 then orFlag 0x13 s else s
  else
    { putDat ((0xF0 : UInt8) ||| ((s.gi2c2.sendAddr >>> 7) &&& 0x06)) s with
      gi2c2.addrFlag := s.gi2c2.addrFlag + 1 }

/-- The level that `i2c2_send_start` asks for. -/
def startMode (msg : Msg) : BitVec 2 :=
  if msg.wkMode &&& RW_BIT ≠ 0 then
    if msg.allDataNum > 12 then 0
    else if msg.allDataNum > 8 then 1
    else if msg.allDataNum > 4 then 2
    else 3
  else if msg.allDataNum < 4 ∨ msg.wkMode &&& MS_BIT ≠ 0 then 0
  else 1

/-- `i2c2_send_start`. The mask `0xFFFB` lets the level of the last transfer stand. -/
def i2c2SendStart (s : State) : State :=
  if s.gi2c2.wkMode &&& MS_BIT ≠ 0 then s
  else
    let s := i2c2SendAddr s
    { s with stat.intMode := s.stat.intMode ||| startMode s.gi2c2, stat.sta := true }

/-- `i2c2_get_busy`. -/
def i2c2GetBusy (s : State) : Bool := s.stat.busy || s.gi2c2.transDone == 0

/-- `while (i2c2_get_busy() == 1);` with what the controller and the interrupt do in each turn. -/
def waitBusy (hw : Controller) (slave : Slave) : Nat → State → Option State
  | fuel, s =>
    let s := busStop s
    if i2c2GetBusy s = false then some s
    else
      match fuel with
      | 0 => none
      | fuel + 1 => waitBusy hw slave fuel (i2c2Isr slave (busTurn hw slave s))

/-- The message of a call, and an empty record of what it does. -/
def i2c2Message (wkMode : UInt8) (userBuf : Mem UInt8) (count : UInt32) (op : I2cOp) (s : State) : State :=
  { s with
    gi2c2 := ⟨wkMode, op.opAddr, op.salveId, 0, count, 0, 0, 1⟩
    userBuf := userBuf
    bus := []
    sent := 0
    taken := 0
    touched := [] }

/-- The two calls, which differ in the bit for the direction. The state afterwards and the value returned. -/
def i2c2Transfer (wkMode : UInt8) (fuel : Nat) (hw : Controller) (slave : Slave) (userBuf : Mem UInt8)
    (count : UInt32) (op : I2cOp) (s : State) : Option (State × UInt32) :=
  (waitBusy hw slave fuel (i2c2SendStart (i2c2Message wkMode userBuf count op s))).map fun t =>
    ({ t with gi2c2.transDone := 0 }, 0)

def i2c2Read (fuel : Nat) (hw : Controller) (slave : Slave) (userBuf : Mem UInt8) (count : UInt32)
    (op : I2cOp) (s : State) : Option (State × UInt32) :=
  i2c2Transfer (s.gi2c2.wkMode ||| RW_BIT) fuel hw slave userBuf count op s

def i2c2Write (fuel : Nat) (hw : Controller) (slave : Slave) (userBuf : Mem UInt8) (count : UInt32)
    (op : I2cOp) (s : State) : Option (State × UInt32) :=
  i2c2Transfer (s.gi2c2.wkMode &&& ~~~RW_BIT) fuel hw slave userBuf count op s

end Bk7251.I2c2
