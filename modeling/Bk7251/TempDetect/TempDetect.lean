import Bk7251.Lib.Fifo

/-!
# Temperature detection

The detect task of `temp_detect.c` with its timer, its message queue and its handle on the ADC. A step is
a message taken from the queue, a message processed, an expiry of the timer, an interrupt or a call of
another task. Timer commands take effect at once.
-/
namespace Bk7251.TempDetect

open Lib

/-- The messages of the task; `TMPD_EXIT` is sent by nobody. -/
inductive TempMsg where
  | TMPD_PAUSE_TIMER
  | TMPD_RESTART_TIMER
  | TMPD_CHANGE_PARAM
  | TMPD_TIMER_POLL
  | TMPD_INT_POLL
  deriving DecidableEq

def TEMP_DET_QITEM_COUNT : Nat := 5
def ADC_TMEP_DETECT_INTVAL : UInt32 := 15
def ADC_TMEP_DETECT_INTVAL_INIT : UInt16 := 1
def ADC_TMEP_DETECT_INTVAL_CHANGE : UInt32 := 120
def ADC_TMEP_DIST_INTIAL_VAL : UInt32 := 0
def ADC_TMEP_LSB_PER_10DEGREE : UInt32 := 22
def ADC_TMEP_10DEGREE_PER_DBPWR : UInt32 := 1

/-- The task and its part of `g_temp_detect_config`; the measured values go to the calibration and are
not looked at here. -/
structure Detect where
  detectIntval : UInt16
  detectThre : UInt16
  distInital : UInt16
  detectIntvalChange : UInt32
  /-- `detect_timer` is running; it reloads itself when it expires -/
  timer : Bool
  msgQue : List TempMsg
  /-- the message that is being processed -/
  task : Option TempMsg
  /-- `tmp_detect_hdl` is open -/
  detectHdl : Bool
  /-- the conversion of the detect task is short of its samples -/
  sampling : Bool
  /-- `tmp_single_hdl` is open -/
  singleHdl : Bool
  /-- the last request was not a pause -/
  wanted : Bool

namespace Detect

variable (s : Detect)

/-- `temp_detect_main` has started its timer. -/
def started (singleHdl : Bool) : Detect where
  detectIntval := ADC_TMEP_DETECT_INTVAL_INIT
  detectThre := (ADC_TMEP_LSB_PER_10DEGREE * ADC_TMEP_10DEGREE_PER_DBPWR).toUInt16
  distInital := ADC_TMEP_DIST_INTIAL_VAL.toUInt16
  detectIntvalChange := 0
  timer := true
  msgQue := []
  task := none
  detectHdl := false
  sampling := false
  singleHdl := singleHdl
  wanted := true

/-- `temp_detect_send_msg`; a failure is only printed. -/
def sendMsg (msg : TempMsg) : Detect :=
  { s with msgQue := (Fifo.push TEMP_DET_QITEM_COUNT s.msgQue [msg]).1 }

def pauseTimer : Detect :=
  let s := { s with wanted := false }
  if s.timer then s.sendMsg .TMPD_PAUSE_TIMER else s

def restartDetect : Detect :=
  let s := { s with wanted := true }
  if !s.timer then s.sendMsg .TMPD_RESTART_TIMER else s

/-- `temp_detect_change_configuration`: the timer is made anew and started, for another interval only. -/
def changeConfiguration (intval thre dist : UInt32) : Detect :=
  let intval := if intval = 0 then ADC_TMEP_DETECT_INTVAL else intval
  let thre := if thre = 0 then ADC_TMEP_LSB_PER_10DEGREE * ADC_TMEP_10DEGREE_PER_DBPWR else thre
  let dist := if dist = 0 then ADC_TMEP_DIST_INTIAL_VAL else dist
  let s :=
    if s.detectThre.toUInt32 ≠ thre ∨ s.distInital.toUInt32 ≠ dist then
      { s with
        detectThre := if s.detectThre.toUInt32 ≠ thre then thre.toUInt16 else s.detectThre
        distInital := if s.distInital.toUInt32 ≠ dist then dist.toUInt16 else s.distInital }
    else s
  -- the fields have 16 bits, the new values 32
  if s.detectIntval.toUInt32 ≠ intval then { s with detectIntval := intval.toUInt16, timer := true } else s

/-- `temp_detect_enable`, whether it succeeds with it; nothing while it waits for the single handle.
`opened` is what opening the ADC comes to. -/
def enable (opened : Bool) : Option (Detect × Bool) :=
  if s.detectHdl then some (s, true)
  else if s.singleHdl then none
  else
    let s := { s with timer := false }
    if opened then some ({ s with detectHdl := true, sampling := true }, true) else some (s, false)

def timerPoll (opened : Bool) : Option Detect :=
  (s.enable opened).map fun r => if r.2 then r.1 else { r.1 with timer := true }

def disable : Detect := { s with detectHdl := false, sampling := false }

def pollingHandler : Detect :=
  let s := { s with detectIntvalChange := s.detectIntvalChange + 1 }
  -- the one poll after which the timer stays stopped until the message is processed
  if s.detectIntvalChange = ADC_TMEP_DETECT_INTVAL_CHANGE then s.sendMsg .TMPD_CHANGE_PARAM
  else { s with timer := true }

/-- The `switch` of `temp_detect_main`. -/
def handle (opened : Bool) : TempMsg → Option Detect
  | .TMPD_PAUSE_TIMER => some { s with timer := false }
  | .TMPD_RESTART_TIMER => some { s with timer := true }
  | .TMPD_CHANGE_PARAM =>
    some (s.changeConfiguration ADC_TMEP_DETECT_INTVAL s.detectThre.toUInt32 ADC_TMEP_DIST_INTIAL_VAL)
  | .TMPD_TIMER_POLL => s.timerPoll opened
  | .TMPD_INT_POLL => some s.disable.pollingHandler

def pop : Detect :=
  match s.task, s.msgQue with
  | none, msg :: rest => { s with task := some msg, msgQue := rest }
  | _, _ => s

/-- The task goes on with its message, and is done with it unless it has to wait. -/
def process (opened : Bool) : Detect :=
  match s.task with
  | none => s
  | some msg =>
    match s.handle opened msg with
    -- it waits for the single read; nothing is taken from the queue meanwhile
    | none => s
    | some s => { s with task := none }

/-- `temp_detect_timer_handler`. -/
def expiry : Detect := if s.timer then s.sendMsg .TMPD_TIMER_POLL else s

/-- The last sample has come in: `temp_detect_handler`. -/
def complete : Detect := if s.sampling then { s with sampling := false }.sendMsg .TMPD_INT_POLL else s

end Detect

inductive Event where
  | expiry
  | complete
  | pop
  | process (opened : Bool)
  | pauseTimer
  | restartDetect
  | changeConfiguration (intval thre dist : UInt32)
  /-- a single read opens its handle, which it does only while the detect handle is closed -/
  | singleOpen
  | singleClose

def Detect.step (s : Detect) : Event → Detect
  | .expiry => s.expiry
  | .complete => s.complete
  | .pop => s.pop
  | .process opened => s.process opened
  | .pauseTimer => s.pauseTimer
  | .restartDetect => s.restartDetect
  | .changeConfiguration intval thre dist => s.changeConfiguration intval thre dist
  | .singleOpen => if s.detectHdl then s else { s with singleHdl := true }
  | .singleClose => { s with singleHdl := false }

end Bk7251.TempDetect
