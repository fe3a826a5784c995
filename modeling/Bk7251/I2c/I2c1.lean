import Mathlib.Data.List.Range
import Bk7251.Lib.Mem

/-!
# The first I2C controller

`driver/i2c/i2c1.c`. The driver writes `REG_I2C1_CONFIG` and `REG_I2C1_DAT`, the controller puts a byte on
the bus or takes one from it and interrupts, and `i2c1_isr` decides on the next one. The controller leaves
`I2C1_STA` as the driver wrote it and clears `I2C1_STO` once the stop is on the bus.
-/
namespace Bk7251.I2c

open Lib

/-- The bits of `REG_I2C1_CONFIG`. -/
structure Config where
  ensmb : Bool
  sta : Bool
  sto : Bool
  ackTx : Bool
  txMode : Bool
  si : Bool
  ackRx : Bool

/-- `I2C1_MSG_ST`; `pData` is an offset into `user_buf`. -/
structure Msg where
  txMode : UInt8
  regAddr : UInt8
  remainNum : UInt16
  pData : Nat
  salveId : UInt8
  addrFlag : UInt8
  transDone : UInt8
  errorNo : UInt8

structure I2cOp where
  salveId : UInt8
  opAddr : UInt8

inductive BusEvent
  | start
  | sent (byte : UInt8) (ack : Bool)
  | received (byte : UInt8)
  | stop
  deriving DecidableEq

/-- `bus` is what went over the bus since the call began, and `touched` are the offsets at which the
buffer of the call was read or written. -/
structure State where
  gi2c1 : Msg
  config : Config
  dat : UInt8
  userBuf : Mem UInt8
  bus : List BusEvent
  touched : List Nat

/-- What a slave does at one byte: whether it acknowledges it, and what it sends where the byte is its own. -/
structure Reply where
  ack : Bool
  data : UInt8

/-! ### The controller -/

def busStop (s : State) : State :=
  if s.config.sto then { s with bus := s.bus ++ [.stop], config.sto := false } else s

/-- One byte with what comes before it; the interrupt flag is up afterwards. -/
def busByte (reply : Reply) (state : State) : State :=
  let s := busStop state
  let s := { s with config.si := true, config.ackRx := reply.ack }
  if s.config.sta then { s with bus := s.bus ++ [.start, .sent s.dat reply.ack] }
  else if s.config.txMode then { s with bus := s.bus ++ [.sent s.dat reply.ack] }
  else { s with bus := s.bus ++ [.received reply.data], dat := reply.data }

/-! ### The interrupt -/

/-- Case 0 of `i2c1_isr`; the local copy of the register is returned beside the state. -/
def masterWrite (s : State) (config : Config) (ackRx : Bool) : State × Config :=
  if ackRx = false then
    ({ s with gi2c1.transDone := 1 }, { config with sto := true })
  -- The address has been sent.
  else if s.gi2c1.addrFlag &&& 0x10 ≠ 0 then
    if s.gi2c1.remainNum = 0 then
      ({ s with gi2c1.transDone := 1 }, { config with sto := true })
    else
      ({ s with
          dat := s.userBuf s.gi2c1.pData
          touched := s.touched ++ [s.gi2c1.pData]
          gi2c1.pData := s.gi2c1.pData + 1
          gi2c1.remainNum := s.gi2c1.remainNum - 1 }, config)
  else if s.gi2c1.addrFlag &&& 0x08 = 0 then
    ({ s with dat := s.gi2c1.regAddr, gi2c1.addrFlag := s.gi2c1.addrFlag ||| 0x13 }, config)
  else (s, config)

/-- The byte in `REG_I2C1_DAT` goes into the buffer. -/
def storeByte (s : State) : State :=
  { s with
    userBuf := s.userBuf.write s.gi2c1.pData [s.dat]
    touched := s.touched ++ [s.gi2c1.pData]
    gi2c1.pData := s.gi2c1.pData + 1
    gi2c1.remainNum := s.gi2c1.remainNum - 1 }

/-- Case 1 of `i2c1_isr`. -/
def masterRead (s : State) (config : Config) (ackRx sta : Bool) : State × Config :=
  if s.gi2c1.addrFlag &&& 0x10 = 0 ∧ ackRx = false then
    ({ s with gi2c1.transDone := 1, gi2c1.errorNo := 1 }, { config with sto := true })
  else if sta = true ∧ ackRx = false then
    ({ s with gi2c1.transDone := 1 }, { config with sto := true })
  else if s.gi2c1.addrFlag &&& 0x10 ≠ 0 then
    let config := { config with txMode := false }
    -- This byte was the slave's address, and none has come yet.
    if sta then (s, { config with ackTx := true })
    else
      let s := storeByte s
      -- The count is looked at after the decrement.
      if s.gi2c1.remainNum = 0 then
        -- The register's address, behind the slave's.
        ({ s with gi2c1.transDone := 1 }, { config with ackTx := false, sto := true })
      else (s, { config with ackTx := true })
  else if s.gi2c1.addrFlag &&& 0x08 = 0 then
    -- A second start, now to read.
    ({ s with
        dat := s.gi2c1.regAddr
        gi2c1.addrFlag := (s.gi2c1.addrFlag &&& ~~~0x0B) ||| 0x0A }, config)
  else
    ({ s with
        dat := (s.gi2c1.salveId <<< 1) ||| 0x01
        gi2c1.addrFlag := s.gi2c1.addrFlag ||| 0x13 }, { config with sta := true })

def i2c1Isr (s : State) : State :=
  if s.config.si = false then s
  else
    let config := { s.config with sta := false }
    let (t, config) :=
      if s.gi2c1.txMode &&& 0x01 ≠ 0 then masterWrite s config s.config.ackRx
      else masterRead s config s.config.ackRx s.config.sta
    { t with config := { config with si := false } }

/-! ### The calls -/

/-- `while (gi2c1.TransDone == 0);` with the byte and the interrupt of each turn. `n` counts the bytes. -/
def waitDone (slave : Nat → Reply) : Nat → Nat → State → Option State
  | fuel, n, s =>
    if s.gi2c1.transDone ≠ 0 then some (busStop s)
    else
      match fuel with
      | 0 => none
      | fuel + 1 => waitDone slave fuel (n + 1) (i2c1Isr (busByte (slave n) s))

/-- The set-up of both calls: the message, the slave's address, and the start. -/
def i2c1Setup (txMode : UInt8) (userBuf : Mem UInt8) (count : UInt32) (op : I2cOp) (s : State) : State :=
  { gi2c1 := ⟨txMode, op.opAddr, count.toUInt16, 0, op.salveId, 0, 0, 0⟩
    config := { s.config with txMode := true, ensmb := true, sta := true }
    dat := (op.salveId &&& 0x7f) <<< 1
    userBuf := userBuf
    bus := []
    touched := [] }

/-- The state afterwards and the value returned. -/
def i2c1Transfer (txMode : UInt8) (fuel : Nat) (slave : Nat → Reply) (userBuf : Mem UInt8) (count : UInt32)
    (op : I2cOp) (s : State) : Option (State × UInt32) :=
  if s.gi2c1.transDone ≠ 0 then some ({ s with userBuf := userBuf, bus := [], touched := [] }, 0)
  else
    (waitDone slave fuel 0 (i2c1Setup txMode userBuf count op s)).map fun t =>
      ({ t with gi2c1.transDone := 0 }, t.gi2c1.errorNo.toUInt32)

def i2c1Read := i2c1Transfer 0
def i2c1Write := i2c1Transfer 1

/-- `i2c1_init`: the message and the register are cleared. -/
def i2c1Init : State :=
  { gi2c1 := ⟨0, 0, 0, 0, 0, 0, 0, 0⟩
    config := ⟨false, false, false, false, false, false, false⟩
    dat := 0
    userBuf := fun _ => 0
    bus := []
    touched := [] }

/-- A call of the driver with the slave it meets. -/
structure Call where
  write : Bool
  slave : Nat → Reply
  userBuf : Mem UInt8
  count : UInt32
  op : I2cOp

def Call.exec (fuel : Nat) (s : State) (c : Call) : Option State :=
  ((if c.write then i2c1Write else i2c1Read) fuel c.slave c.userBuf c.count c.op s).map Prod.fst

end Bk7251.I2c
