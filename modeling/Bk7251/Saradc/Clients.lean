import Mathlib.Logic.Function.Basic
import Mathlib.Tactic.Common

/-!
# Three clients of one ADC

`saradc.c` under the use count of `drv_model.c`, with its three clients: the detect task and
`temp_single_get_current_temperature` (`temp_detect.c`) and `tadc_obj_handler` (`saradc_intf.c`). A step is
what a client does up to its next delay or wait for a semaphore, or an interrupt. Every sample carries the
time at which it was taken, every computed value the samples it was computed from.
-/
namespace Bk7251.Saradc

inductive Client where
  | detect
  | single
  | tadc
  deriving DecidableEq

def ADC_TEMP_BUFFER_SIZE : Nat := 5
def ADC_TEMP_SENSER_CHANNEL : UInt8 := 7
def SARADC_ADC_CHNL_MAX : UInt8 := 12

structure Sample where
  time : Nat
  value : UInt16
  deriving DecidableEq

/-- A cell of a data buffer, and the samples its value comes from. -/
structure Datum where
  value : UInt16
  sources : List Sample
  deriving DecidableEq

def Datum.zero : Datum := { value := 0, sources := [] }

def Sample.datum (x : Sample) : Datum := { value := x.value, sources := [x] }

/-- `saradc_desc_t` with its data buffer; `data_buff_size` is `ADC_TEMP_BUFFER_SIZE` for all clients. -/
structure Desc where
  pData : Nat → Datum
  currentSampleDataCnt : Nat
  channel : UInt8

/-- How far a call of `temp_single_get_current_temperature` is. -/
inductive Phase where
  | delaying
  | waiting
  /-- what it returned, what it stored, and whether its handle was closed -/
  | returned (ret : UInt32) (value : Datum) (closed : Bool)
  deriving DecidableEq

structure Call where
  begin : Nat
  phase : Phase
  deriving DecidableEq

structure Adc where
  now : Nat
  /-- the state of the device is `DD_STATE_OPENED` -/
  opened : Bool
  useCnt : UInt32
  /-- whose descriptor `saradc_desc` points to -/
  saradcDesc : Option Client
  /-- the channel and its interrupt are enabled -/
  running : Bool
  desc : Client → Desc
  /-- which of `tmp_detect_hdl`, `tmp_single_hdl` and `adc_handle` are valid -/
  hdl : Client → Bool
  /-- the detect task is in the delay of `temp_detect_enable` -/
  detectDelays : Bool
  /-- the interrupt messages in the queue of the detect task -/
  intPolls : Nat
  /-- the calls that have begun, in order -/
  calls : List Call
  tmpSingleSemaphore : Bool
  semaWaitEnd : Bool

/-- The `sum` of a single read; the second half of it is the first one again. -/
def singleSum (p1 p2 : UInt16) : UInt16 :=
  let sum1 := p1.toUInt32 + p2.toUInt32
  ((sum1 / 2 + sum1 / 2) / 2).toUInt16

def sadcSum (p1 p2 p3 p4 : UInt16) : UInt16 :=
  let sum1 := p1.toUInt32 + p2.toUInt32
  let sum2 := p3.toUInt32 + p4.toUInt32
  ((sum1 / 2 + sum2 / 2) / 2).toUInt16

namespace Adc

def start (desc : Client → Desc) : Adc where
  now := 0
  opened := false
  useCnt := 0
  saradcDesc := none
  running := false
  desc := desc
  hdl := fun _ => false
  detectDelays := false
  intPolls := 0
  calls := []
  tmpSingleSemaphore := false
  semaWaitEnd := false

variable (s : Adc)

def setDesc (c : Client) (d : Desc) : Adc := { s with desc := Function.update s.desc c d }

/-! ### The driver -/

def saradcOpen (c : Client) : Adc :=
  let s := { s with saradcDesc := some c }
  -- an unknown channel is noticed after the pointer is set
  if (s.desc c).channel > SARADC_ADC_CHNL_MAX then s
  else { s.setDesc c { s.desc c with currentSampleDataCnt := 0 } with running := true }

def saradcClose : Adc := { s with running := false }

/-- `ddev_open`: the driver is told of the first opening only. -/
def ddevOpen (c : Client) : Adc :=
  -- a driver that fails is not noticed: the handle is valid all the same
  let s := if s.opened then s else { s.saradcOpen c with opened := true, useCnt := 0 }
  { s with useCnt := s.useCnt + 1, hdl := Function.update s.hdl c true }

/-- `ddev_close`, and the handle set to `DD_HANDLE_UNVALID`; it fails on a handle that is not valid. -/
def ddevClose (c : Client) : Adc :=
  if s.hdl c then
    let s := { s with useCnt := s.useCnt - 1, hdl := Function.update s.hdl c false }
    if s.useCnt = 0 then { s.saradcClose with opened := false } else s
  else s

/-! ### The detect task -/

/-- `temp_detect_enable`, from its start or back from its delay. -/
def detectEnable : Adc :=
  if s.hdl .detect then s
  else if s.hdl .single then { s with detectDelays := true }
  else
    let s := { s with detectDelays := false }
    (s.setDesc .detect { s.desc .detect with currentSampleDataCnt := 0 }).ddevOpen .detect

/-- An interrupt message is processed: `temp_detect_disable`. -/
def detectIntPoll : Adc :=
  if s.detectDelays = true ∨ s.intPolls = 0 then s
  else { s with intPolls := s.intPolls - 1 }.ddevClose .detect

/-! ### Single reads -/

def setCall (i begin : Nat) (phase : Phase) : Adc :=
  { s with calls := s.calls.set i { begin := begin, phase := phase } }

/-- `temp_single_get_enable` up to its delay, or up to the wait behind it. -/
def singleGetEnable (i begin : Nat) : Adc :=
  if s.hdl .detect then s.setCall i begin .delaying
  else
    -- only the detect task is waited for
    let init : Desc :=
      { pData := fun _ => .zero, currentSampleDataCnt := 0, channel := ADC_TEMP_SENSER_CHANNEL }
    ((s.setDesc .single init).ddevOpen .single).setCall i begin .waiting

/-- A call of `temp_single_get_current_temperature`. -/
def singleBegin : Adc :=
  let call : Call := { begin := s.now, phase := .delaying }
  { s with calls := s.calls ++ [call] }.singleGetEnable s.calls.length s.now

def singleDelayed (i : Nat) : Adc :=
  match s.calls[i]? with
  | some ⟨begin, .delaying⟩ => s.singleGetEnable i begin
  | _ => s

/-- The semaphore is taken and the call returns 0. -/
def singleTake (i : Nat) : Adc :=
  match s.calls[i]? with
  | some ⟨begin, .waiting⟩ =>
    if s.tmpSingleSemaphore then
      { s with tmpSingleSemaphore := false }.setCall i begin
        (.returned 0 ((s.desc .single).pData 0) (!s.hdl .single))
    else s
  | _ => s

/-- The wait of one second is over and the call returns 1. -/
def singleTimeout (i : Nat) : Adc :=
  match s.calls[i]? with
  | some ⟨begin, .waiting⟩ =>
    if s.tmpSingleSemaphore then s
    else s.setCall i begin (.returned 1 .zero (!s.hdl .single))
  | _ => s

def tempSingleDetectHandler : Adc :=
  let s := s.ddevClose .single
  let d := s.desc .single
  -- the samples 1 and 2 of five
  let sum : Datum :=
    { value := singleSum (d.pData 1).value (d.pData 2).value
      sources := (d.pData 1).sources ++ (d.pData 2).sources }
  { s.setDesc .single { d with pData := Function.update d.pData 0 sum } with tmpSingleSemaphore := true }

/-! ### The handler of the ADC objects -/

/-- `tadc_obj_handler` up to its wait; its thread is not in another run of it. -/
def tadcBegin (channel : UInt8) : Adc :=
  if s.hdl .tadc then s
  else (s.setDesc .tadc { pData := fun _ => .zero, currentSampleDataCnt := 0, channel := channel }).ddevOpen .tadc

/-- The wait ends with the semaphore, or without it. -/
def tadcEnd (timeout : Bool) : Adc :=
  if s.hdl .tadc = true ∧ s.semaWaitEnd = !timeout then { s with semaWaitEnd := false }.ddevClose .tadc else s

def sadcDetectHandler : Adc :=
  let d := s.desc .tadc
  let sum : Datum :=
    { value := sadcSum (d.pData 1).value (d.pData 2).value (d.pData 3).value (d.pData 4).value
      sources := (d.pData 1).sources ++ (d.pData 2).sources ++ (d.pData 3).sources ++ (d.pData 4).sources }
  { s.setDesc .tadc { d with pData := Function.update d.pData 0 sum } with semaWaitEnd := true }

/-! ### The interrupt -/

/-- The loop of `saradc_isr`; with the last sample of the buffer the rest of the FIFO is cleared. -/
def fill (c : Client) : List UInt16 → Adc → Adc
  | [], s => s
  | dacVal :: rest, s =>
    let d := s.desc c
    if d.currentSampleDataCnt < ADC_TEMP_BUFFER_SIZE then
      let x : Sample := { time := s.now, value := dacVal }
      let s := s.setDesc c
        { d with
          pData := Function.update d.pData d.currentSampleDataCnt x.datum
          currentSampleDataCnt := d.currentSampleDataCnt + 1 }
      if d.currentSampleDataCnt + 1 = ADC_TEMP_BUFFER_SIZE then s.saradcClose else fill c rest s
    else fill c rest s

/-- The interrupt handler of a descriptor; `room` is whether the queue of the detect task has a free slot. -/
def intHandler (c : Client) (room : Bool) : Adc :=
  if (s.desc c).currentSampleDataCnt ≥ ADC_TEMP_BUFFER_SIZE then
    match c with
    | .detect => if room then { s with intPolls := s.intPolls + 1 } else s
    | .single => s.tempSingleDetectHandler
    | .tadc => s.sadcDetectHandler
  else s

def saradcIsr (samples : List UInt16) (room : Bool) : Adc :=
  match s.saradcDesc with
  | some c => if s.running then (fill c samples s).intHandler c room else s
  | none => s

end Adc

inductive Event where
  | detectEnable
  | detectIntPoll
  | singleBegin
  | singleDelayed (i : Nat)
  | singleTake (i : Nat)
  | singleTimeout (i : Nat)
  | tadcBegin (channel : UInt8)
  | tadcEnd (timeout : Bool)
  | isr (samples : List UInt16) (room : Bool)

def Adc.act (s : Adc) : Event → Adc
  | .detectEnable => s.detectEnable
  | .detectIntPoll => s.detectIntPoll
  | .singleBegin => s.singleBegin
  | .singleDelayed i => s.singleDelayed i
  | .singleTake i => s.singleTake i
  | .singleTimeout i => s.singleTimeout i
  | .tadcBegin channel => s.tadcBegin channel
  | .tadcEnd timeout => s.tadcEnd timeout
  | .isr samples room => s.saradcIsr samples room

def Adc.step (s : Adc) (e : Event) : Adc :=
  let t := s.act e
  { t with now := t.now + 1 }

end Bk7251.Saradc
