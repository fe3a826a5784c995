import Bk7251.Lib.Machine

/-!
# Station power save

`power_save_sleep`, `power_save_wakeup` and the DTIM handlers (`func/power_save/power_save.c`), with
the fields of `bk_ps_info` they look at. What they read from the radio is an input of the step.
-/
namespace Bk7251.PowerSave

inductive PsModeStatus where
  | NO_PS
  | MCU_PS
  | DTIM_PS
deriving DecidableEq

inductive PsArmWakeupWay where
  | NONE
  | RW
deriving DecidableEq

inductive PsStaBeaconState where
  | INIT
  | TRUE
  | FALSE
  | TIMEOUT
deriving DecidableEq

def CO_BIT (pos : UInt32) : UInt32 := 1 <<< pos

def FIQ_MAC_TX_RX_TIMER : UInt32 := 17
def FIQ_MAC_TX_RX_MISC : UInt32 := 18
def FIQ_MAC_RX_TRIGGER : UInt32 := 19
def FIQ_MAC_TX_TRIGGER : UInt32 := 20
def FIQ_MAC_PROT_TRIGGER : UInt32 := 21
def FIQ_MAC_GENERAL : UInt32 := 22
def FIQ_MAC_WAKEUP : UInt32 := 26

/-- The interrupts that keep the MAC from sleeping while they are pending. -/
def MAC_PENDING : UInt32 :=
  CO_BIT FIQ_MAC_TX_RX_MISC ||| CO_BIT FIQ_MAC_TX_RX_TIMER ||| CO_BIT FIQ_MAC_RX_TRIGGER |||
    CO_BIT FIQ_MAC_TX_TRIGGER ||| CO_BIT FIQ_MAC_PROT_TRIGGER

/-- The interrupts that are masked while the MAC sleeps. -/
def MAC_MASKED : UInt32 :=
  CO_BIT FIQ_MAC_TX_RX_MISC ||| CO_BIT FIQ_MAC_TX_RX_TIMER ||| CO_BIT FIQ_MAC_RX_TRIGGER |||
    CO_BIT FIQ_MAC_TX_TRIGGER ||| CO_BIT FIQ_MAC_GENERAL ||| CO_BIT FIQ_MAC_PROT_TRIGGER

def MAC_ARM_WAKEUP_EN_BIT : UInt32 := (1 : UInt32) <<< 26

structure PsState where
  bkPsMode : PsModeStatus
  psArmWakeupWay : PsArmWakeupWay
  psRealSleep : UInt8
  sleepFirst : UInt8
  psCanSleep : UInt8
  ifWaitBcn : UInt8
  waitedBeacon : PsStaBeaconState
  psLock : UInt8
  /-- `ICU_INTERRUPT_ENABLE`. -/
  interruptEnable : UInt32
  intEnableRegSave : UInt32

/-- The values the variables are initialised with; any interrupts may be enabled. -/
def PsState.init (interruptEnable : UInt32) : PsState where
  bkPsMode := .NO_PS
  psArmWakeupWay := .NONE
  psRealSleep := 0
  sleepFirst := 1
  psCanSleep := 0
  ifWaitBcn := 0
  waitedBeacon := .INIT
  psLock := 1
  interruptEnable
  intEnableRegSave := 0

/-- What `power_save_sleep` asks the rest of the system. -/
structure SleepInputs where
  roleSta : Bool
  inDoze : Bool
  pending : UInt32
  rwnxlSleep : Bool
deriving DecidableEq

inductive PsExit where
  | returned (ret : Bool)
  /-- The `error ps` exit of `power_save_sleep`. -/
  | errorPs
  /-- `ASSERT(!ps_lock)` in `power_save_wakeup`. -/
  | assertFailed
deriving DecidableEq

namespace PsState

variable (s : PsState)

/-- `PS_STA_DTIM_SWITCH`. -/
def staDtimSwitch (roleSta : Bool) : Bool := s.bkPsMode = .DTIM_PS ∧ roleSta

/-- `PS_STA_DTIM_CAN_SLEEP`. -/
def staDtimCanSleep (roleSta : Bool) : Bool :=
  s.staDtimSwitch roleSta ∧ s.waitedBeacon = .TRUE ∧ s.psCanSleep = 1

def powerSaveSleepStatusSet : PsState := { s with psRealSleep := 1, psArmWakeupWay := .NONE }

def powerSaveSleep (inputs : SleepInputs) : PsState × PsExit :=
  if s.psRealSleep = 1 then (s, .returned false)
  else if ¬ s.staDtimCanSleep inputs.roleSta then (s, .returned false)
  else if inputs.inDoze then (s, .returned false)
  else if inputs.pending &&& MAC_PENDING ≠ 0 then (s, .returned false)
  else
    let masked := { s with
      intEnableRegSave := s.interruptEnable
      interruptEnable := s.interruptEnable &&& ~~~MAC_MASKED }
    -- can't ps: the interrupts are enabled again
    if ¬ inputs.rwnxlSleep then
      ({ masked with interruptEnable := masked.intEnableRegSave }, .returned false)
    -- error ps: the interrupts stay masked
    else if masked.psLock = 0 then (masked, .errorPs)
    else
      let asleep := { masked with psLock := masked.psLock - 1 }.powerSaveSleepStatusSet
      ({ asleep with interruptEnable := asleep.interruptEnable ||| CO_BIT FIQ_MAC_WAKEUP },
        .returned true)

def powerSaveWakeup : PsState × PsExit :=
  let awake := { s with
    waitedBeacon := .FALSE
    interruptEnable := (s.interruptEnable ||| MAC_MASKED) &&& ~~~CO_BIT FIQ_MAC_WAKEUP }
  if awake.psLock ≠ 0 then (awake, .assertFailed)
  else ({ awake with psLock := awake.psLock + 1 }, .returned true)

def powerSaveIeeeDtimWakeup : PsState × PsExit :=
  if s.psArmWakeupWay = .RW ∧ s.psRealSleep ≠ 0 then
    let (woken, out) := s.powerSaveWakeup
    ({ woken with psRealSleep := 0, psCanSleep := 1 }, out)
  else (s, .returned true)

/-- The interrupt that wakes the processor. -/
def powerSaveDtimWake (status : UInt32) : PsState × PsExit :=
  if s.bkPsMode = .DTIM_PS ∧ s.psArmWakeupWay = .NONE ∧ status &&& MAC_ARM_WAKEUP_EN_BIT ≠ 0 then
    { s with
      interruptEnable := s.interruptEnable &&& ~~~CO_BIT FIQ_MAC_WAKEUP
      psArmWakeupWay := .RW }.powerSaveIeeeDtimWakeup
  else (s, .returned true)

def powerSaveDtimPsInit : PsState := { s with sleepFirst := 1, psCanSleep := 1 }

def powerSaveDtimPsExit : PsState :=
  { s with waitedBeacon := .INIT, sleepFirst := 1, psCanSleep := 0, psRealSleep := 0 }

def powerSaveDtimEnableHandler (connected : Bool) : PsState :=
  if connected then { s.powerSaveDtimPsInit with ifWaitBcn := 1, bkPsMode := .DTIM_PS } else s

def powerSaveDtimDisableHandler : PsState :=
  -- a handler that runs while the MAC sleeps only prints an error and goes on
  { s with bkPsMode := .NO_PS }.powerSaveDtimPsExit

/-- `power_save_beacon_state_update`. -/
def powerSaveBeaconStateUpdate (roleSta : Bool) : PsState :=
  if s.staDtimSwitch roleSta then { s with waitedBeacon := .TRUE } else s

end PsState

inductive PsEvent where
  | sleep (inputs : SleepInputs)
  | ieeeDtimWakeup
  | dtimWake (status : UInt32)
  | enable (connected : Bool)
  | disable
  | beaconUpdate (roleSta : Bool)
  | beaconSet (state : PsStaBeaconState)
  | modeSet (mode : PsModeStatus)
deriving DecidableEq

def PsState.step (s : PsState) : PsEvent → PsState × PsExit
  | .sleep inputs => s.powerSaveSleep inputs
  | .ieeeDtimWakeup => s.powerSaveIeeeDtimWakeup
  | .dtimWake status => s.powerSaveDtimWake status
  | .enable connected => (s.powerSaveDtimEnableHandler connected, .returned true)
  | .disable => (s.powerSaveDtimDisableHandler, .returned true)
  | .beaconUpdate roleSta => (s.powerSaveBeaconStateUpdate roleSta, .returned true)
  | .beaconSet state => ({ s with waitedBeacon := state }, .returned true)
  | .modeSet mode => ({ s with bkPsMode := mode }, .returned true)

/-- The state alone. -/
def PsState.next (s : PsState) (e : PsEvent) : PsState := (s.step e).1

end Bk7251.PowerSave
