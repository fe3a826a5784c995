import Bk7251.Kernel.Lists

/-!
# Tasks

The scheduler of `tasks.c` while it is running, under `FreeRTOSConfig.h` and the defaults of `FreeRTOS.h`: ten
priorities, preemption with time slices, mutexes, suspension and aborted delays, tickless idle, tasks selected the
generic way, no assertions. Each function is what it does with interrupts disabled or the scheduler suspended; a
`true` that is returned asks for a context switch.
-/
namespace Bk7251.Kernel

open ItemPtr Function

def configMAX_PRIORITIES : Nat := 10

def taskEVENT_LIST_ITEM_VALUE_IN_USE : TickType := 0x80000000

/-- The two items of a task control block. -/
inductive TaskItem (τ : Type)
  | xStateListItem (pxTCB : τ)
  | xEventListItem (pxTCB : τ)
  deriving DecidableEq

/-- `pvOwner`. -/
def TaskItem.pvOwner {τ : Type} : TaskItem τ → τ
  | xStateListItem t => t
  | xEventListItem t => t

/-- The lists of `tasks.c`, and the event lists of queues and event groups. -/
inductive TaskList (ε : Type)
  | pxReadyTasksLists (uxPriority : Nat)
  | xDelayedTaskList1
  | xDelayedTaskList2
  | xPendingReadyList
  | xTasksWaitingTermination
  | xSuspendedTaskList
  | event (pxEventList : ε)
  deriving DecidableEq

inductive TaskState
  | eRunning | eReady | eBlocked | eSuspended | eDeleted
  deriving DecidableEq

structure Tasks (τ ε : Type) where
  lists : Lists (TaskItem τ) (TaskList ε)
  uxPriority : τ → Nat
  uxBasePriority : τ → Nat
  uxMutexesHeld : τ → Nat
  ucDelayAborted : τ → Bool
  pxCurrentTCB : τ
  pxDelayedTaskList : TaskList ε
  pxOverflowDelayedTaskList : TaskList ε
  xTickCount : TickType
  uxTopReadyPriority : Nat
  uxPendedTicks : UInt32
  xYieldPending : Bool
  xNumOfOverflows : Nat
  xNextTaskUnblockTime : TickType
  uxSchedulerSuspended : Nat

namespace Tasks

open TaskItem TaskList

variable {τ ε : Type} [DecidableEq τ] [DecidableEq ε]

/-! ### Lists -/

def container (s : Tasks τ ε) (i : TaskItem τ) : Option (TaskList ε) := s.lists.pvContainer i

def itemValue (s : Tasks τ ε) (i : TaskItem τ) : TickType := s.lists.listGET_LIST_ITEM_VALUE i

def remove (s : Tasks τ ε) (i : TaskItem τ) : Option (Tasks τ ε) :=
  (s.lists.uxListRemove i).map fun (lists, _) => { s with lists := lists }

/-- Out of the event list that the task waits in, if any. -/
def leaveEvent (s : Tasks τ ε) (pxTCB : τ) : Option (Tasks τ ε) :=
  if s.container (xEventListItem pxTCB) ≠ none then s.remove (xEventListItem pxTCB) else some s

def insertEnd (s : Tasks τ ε) (pxList : TaskList ε) (i : TaskItem τ) : Tasks τ ε :=
  { s with lists := s.lists.vListInsertEnd pxList i }

def insert (s : Tasks τ ε) (pxList : TaskList ε) (i : TaskItem τ) : Option (Tasks τ ε) :=
  (s.lists.vListInsert pxList i).map fun lists => { s with lists := lists }

def setItemValue (s : Tasks τ ε) (i : TaskItem τ) (xValue : TickType) : Tasks τ ε :=
  { s with lists := s.lists.listSET_LIST_ITEM_VALUE i xValue }

def taskRECORD_READY_PRIORITY (s : Tasks τ ε) (uxPriority : Nat) : Tasks τ ε :=
  { s with uxTopReadyPriority := if uxPriority > s.uxTopReadyPriority then uxPriority else s.uxTopReadyPriority }

def prvAddTaskToReadyList (s : Tasks τ ε) (pxTCB : τ) : Tasks τ ε :=
  (s.taskRECORD_READY_PRIORITY (s.uxPriority pxTCB)).insertEnd (pxReadyTasksLists (s.uxPriority pxTCB))
    (xStateListItem pxTCB)

/-! ### Switching -/

/-- The loop of `taskSELECT_HIGHEST_PRIORITY_TASK`; below priority 0 there is nothing to find. -/
def highestReady (s : Tasks τ ε) : Nat → Option Nat
  | 0 => if s.lists.listLIST_IS_EMPTY (pxReadyTasksLists 0) then none else some 0
  | p + 1 => if s.lists.listLIST_IS_EMPTY (pxReadyTasksLists (p + 1)) then highestReady s p else some (p + 1)

def taskSELECT_HIGHEST_PRIORITY_TASK (s : Tasks τ ε) : Option (Tasks τ ε) :=
  (s.highestReady s.uxTopReadyPriority).bind fun uxTopPriority =>
    let (lists, owner) := s.lists.listGET_OWNER_OF_NEXT_ENTRY (pxReadyTasksLists uxTopPriority)
    owner.map fun i =>
      { s with lists := lists, pxCurrentTCB := i.pvOwner, uxTopReadyPriority := uxTopPriority }

def vTaskSwitchContext (s : Tasks τ ε) : Option (Tasks τ ε) :=
  if s.uxSchedulerSuspended ≠ 0 then some { s with xYieldPending := true }
  else { s with xYieldPending := false }.taskSELECT_HIGHEST_PRIORITY_TASK

/-! ### Time -/

/-- The item at the head of a list is its owner's `xStateListItem` in the lists of delayed tasks. -/
def prvResetNextTaskUnblockTime (s : Tasks τ ε) : Option (Tasks τ ε) :=
  if s.lists.listLIST_IS_EMPTY s.pxDelayedTaskList then some { s with xNextTaskUnblockTime := portMAX_DELAY }
  else (s.lists.listGET_OWNER_OF_HEAD_ENTRY s.pxDelayedTaskList).map fun i =>
    { s with xNextTaskUnblockTime := s.itemValue (xStateListItem i.pvOwner) }

def taskSWITCH_DELAYED_LISTS (s : Tasks τ ε) : Option (Tasks τ ε) :=
  prvResetNextTaskUnblockTime { s with
    pxDelayedTaskList := s.pxOverflowDelayedTaskList
    pxOverflowDelayedTaskList := s.pxDelayedTaskList
    xNumOfOverflows := s.xNumOfOverflows + 1 }

/-- A task that waited for time, and perhaps for an event, is ready. -/
def unblock (s : Tasks τ ε) (pxTCB : τ) : Option (Tasks τ ε) :=
  (s.remove (xStateListItem pxTCB)).bind fun s =>
    (s.leaveEvent pxTCB).map fun s => s.prvAddTaskToReadyList pxTCB

/-- The loop of `xTaskIncrementTick` over the tasks whose time has come. -/
def unblockExpired : Nat → Tasks τ ε → Bool → Option (Tasks τ ε × Bool)
  | 0, _, _ => none
  | fuel + 1, s, xSwitchRequired =>
    if s.lists.listLIST_IS_EMPTY s.pxDelayedTaskList then
      some ({ s with xNextTaskUnblockTime := portMAX_DELAY }, xSwitchRequired)
    else (s.lists.listGET_OWNER_OF_HEAD_ENTRY s.pxDelayedTaskList).bind fun i =>
      let pxTCB := i.pvOwner
      let xItemValue := s.itemValue (xStateListItem pxTCB)
      if s.xTickCount < xItemValue then some ({ s with xNextTaskUnblockTime := xItemValue }, xSwitchRequired)
      else (s.unblock pxTCB).bind fun s =>
        unblockExpired fuel s (xSwitchRequired || s.uxPriority pxTCB ≥ s.uxPriority s.pxCurrentTCB)

/-- A tick while the scheduler is not suspended. -/
def advanceTick (s : Tasks τ ε) : Option (Tasks τ ε × Bool) :=
  let s := { s with xTickCount := s.xTickCount + 1 }
  (if s.xTickCount = 0 then s.taskSWITCH_DELAYED_LISTS else some s).bind fun s =>
    (if s.xTickCount ≥ s.xNextTaskUnblockTime then
        unblockExpired (s.lists.listCURRENT_LIST_LENGTH s.pxDelayedTaskList + 1) s false
      else some (s, false)).map fun (s, xSwitchRequired) =>
        (s, xSwitchRequired ||
          s.lists.listCURRENT_LIST_LENGTH (pxReadyTasksLists (s.uxPriority s.pxCurrentTCB)) > 1)

def xTaskIncrementTick (s : Tasks τ ε) : Option (Tasks τ ε × Bool) :=
  (if s.uxSchedulerSuspended = 0 then s.advanceTick
    else some ({ s with uxPendedTicks := s.uxPendedTicks + 1 }, false)).map fun (s, xSwitchRequired) =>
      (s, xSwitchRequired || s.xYieldPending)

/-- The ticks of a sleep are made up for; nobody is woken, also where the count wraps around. -/
def vTaskStepTick (s : Tasks τ ε) (xTicksToJump : TickType) : Tasks τ ε :=
  { s with xTickCount := s.xTickCount + xTicksToJump }

/-! ### Suspending the scheduler -/

def vTaskSuspendAll (s : Tasks τ ε) : Tasks τ ε := { s with uxSchedulerSuspended := s.uxSchedulerSuspended + 1 }

/-- The tasks that were readied meanwhile; whether there were any. -/
def drainPending : Nat → Tasks τ ε → Bool → Option (Tasks τ ε × Bool)
  | 0, _, _ => none
  | fuel + 1, s, any =>
    if s.lists.listLIST_IS_EMPTY xPendingReadyList then some (s, any)
    else (s.lists.listGET_OWNER_OF_HEAD_ENTRY xPendingReadyList).bind fun i =>
      let pxTCB := i.pvOwner
      (s.remove (xEventListItem pxTCB)).bind fun s =>
        (s.remove (xStateListItem pxTCB)).bind fun s =>
          let s := s.prvAddTaskToReadyList pxTCB
          drainPending fuel { s with
            xYieldPending := s.xYieldPending || s.uxPriority pxTCB ≥ s.uxPriority s.pxCurrentTCB } true

/-- The ticks that were pended meanwhile. -/
def unwindTicks : Nat → Tasks τ ε → Option (Tasks τ ε)
  | 0, s => some s
  | n + 1, s =>
    s.xTaskIncrementTick.bind fun (s, xSwitchRequired) =>
      unwindTicks n { s with xYieldPending := s.xYieldPending || xSwitchRequired }

def xTaskResumeAll (s : Tasks τ ε) : Option (Tasks τ ε × Bool) :=
  let s := { s with uxSchedulerSuspended := s.uxSchedulerSuspended - 1 }
  if s.uxSchedulerSuspended = 0 then
    (drainPending (s.lists.listCURRENT_LIST_LENGTH xPendingReadyList + 1) s false).bind fun (s, any) =>
      (if any then s.prvResetNextTaskUnblockTime else some s).bind fun s =>
        (unwindTicks s.uxPendedTicks.toNat s).map fun s => ({ s with uxPendedTicks := 0 }, s.xYieldPending)
  else some (s, false)

/-! ### Waiting -/

def prvAddCurrentTaskToDelayedList (s : Tasks τ ε) (xTicksToWait : TickType) (xCanBlockIndefinitely : Bool) :
    Option (Tasks τ ε) :=
  let pxTCB := s.pxCurrentTCB
  let s := { s with ucDelayAborted := update s.ucDelayAborted pxTCB false }
  (s.remove (xStateListItem pxTCB)).bind fun s =>
    if xTicksToWait = portMAX_DELAY ∧ xCanBlockIndefinitely then
      some (s.insertEnd xSuspendedTaskList (xStateListItem pxTCB))
    else
      let xTimeToWake := s.xTickCount + xTicksToWait
      let s := s.setItemValue (xStateListItem pxTCB) xTimeToWake
      if xTimeToWake < s.xTickCount then s.insert s.pxOverflowDelayedTaskList (xStateListItem pxTCB)
      else (s.insert s.pxDelayedTaskList (xStateListItem pxTCB)).map fun s =>
        { s with
          xNextTaskUnblockTime := if xTimeToWake < s.xNextTaskUnblockTime then xTimeToWake else s.xNextTaskUnblockTime }

def vTaskPlaceOnEventList (s : Tasks τ ε) (pxEventList : ε) (xTicksToWait : TickType) : Option (Tasks τ ε) :=
  (s.insert (event pxEventList) (xEventListItem s.pxCurrentTCB)).bind fun s =>
    s.prvAddCurrentTaskToDelayedList xTicksToWait true

def vTaskPlaceOnUnorderedEventList (s : Tasks τ ε) (pxEventList : ε) (xItemValue xTicksToWait : TickType) :
    Option (Tasks τ ε) :=
  let s := s.setItemValue (xEventListItem s.pxCurrentTCB) (xItemValue ||| taskEVENT_LIST_ITEM_VALUE_IN_USE)
  (s.insertEnd (event pxEventList) (xEventListItem s.pxCurrentTCB)).prvAddCurrentTaskToDelayedList xTicksToWait true

/-- A task that has left its event list is ready, or held until the scheduler is resumed. -/
def xTaskRemoveFromEventList (s : Tasks τ ε) (pxEventList : ε) : Option (Tasks τ ε × Bool) :=
  (s.lists.listGET_OWNER_OF_HEAD_ENTRY (event pxEventList)).bind fun i =>
    let pxUnblockedTCB := i.pvOwner
    (s.remove (xEventListItem pxUnblockedTCB)).bind fun s =>
      (if s.uxSchedulerSuspended = 0 then
          (s.remove (xStateListItem pxUnblockedTCB)).map fun s => s.prvAddTaskToReadyList pxUnblockedTCB
        else some (s.insertEnd xPendingReadyList (xEventListItem pxUnblockedTCB))).bind fun s =>
          let xReturn := s.uxPriority pxUnblockedTCB > s.uxPriority s.pxCurrentTCB
          { s with xYieldPending := s.xYieldPending || xReturn }.prvResetNextTaskUnblockTime.map (·, decide xReturn)

def xTaskRemoveFromUnorderedEventList (s : Tasks τ ε) (pxEventListItem : TaskItem τ) (xItemValue : TickType) :
    Option (Tasks τ ε × Bool) :=
  let s := s.setItemValue pxEventListItem (xItemValue ||| taskEVENT_LIST_ITEM_VALUE_IN_USE)
  let pxUnblockedTCB := pxEventListItem.pvOwner
  (s.remove pxEventListItem).bind fun s =>
    (s.remove (xStateListItem pxUnblockedTCB)).map fun s =>
      let s := s.prvAddTaskToReadyList pxUnblockedTCB
      let xReturn := s.uxPriority pxUnblockedTCB > s.uxPriority s.pxCurrentTCB
      ({ s with xYieldPending := s.xYieldPending || xReturn }, xReturn)

def eTaskGetState (s : Tasks τ ε) (pxTCB : τ) : TaskState :=
  if pxTCB = s.pxCurrentTCB then .eRunning
  else
    let pxStateList := s.container (xStateListItem pxTCB)
    if pxStateList = some s.pxDelayedTaskList ∨ pxStateList = some s.pxOverflowDelayedTaskList then .eBlocked
    else if pxStateList = some xSuspendedTaskList then
      (if s.container (xEventListItem pxTCB) = none then .eSuspended else .eBlocked)
    else if pxStateList = some xTasksWaitingTermination ∨ pxStateList = none then .eDeleted
    else .eReady

/-- Between `vTaskSuspendAll` and `xTaskResumeAll`; what is returned is `pdFALSE` on every path. -/
def xTaskAbortDelay (s : Tasks τ ε) (pxTCB : τ) : Option (Tasks τ ε) :=
  if s.eTaskGetState pxTCB = .eBlocked then
    (s.remove (xStateListItem pxTCB)).bind fun s =>
      (if s.container (xEventListItem pxTCB) ≠ none then
          (s.remove (xEventListItem pxTCB)).map fun s =>
            { s with ucDelayAborted := update s.ucDelayAborted pxTCB true }
        else some s).map fun s =>
          let s := s.prvAddTaskToReadyList pxTCB
          { s with xYieldPending := s.xYieldPending || s.uxPriority pxTCB > s.uxPriority s.pxCurrentTCB }
  else some s

/-! ### Suspending a task -/

def vTaskSuspend (s : Tasks τ ε) (pxTCB : τ) : Option (Tasks τ ε × Bool) :=
  (s.remove (xStateListItem pxTCB)).bind fun s =>
    (s.leaveEvent pxTCB).bind fun s =>
      (s.insertEnd xSuspendedTaskList (xStateListItem pxTCB)).prvResetNextTaskUnblockTime.map fun s =>
        (s, pxTCB = s.pxCurrentTCB)

def prvTaskIsTaskSuspended (s : Tasks τ ε) (pxTCB : τ) : Bool :=
  s.container (xStateListItem pxTCB) = some xSuspendedTaskList ∧
    s.container (xEventListItem pxTCB) ≠ some xPendingReadyList ∧ s.container (xEventListItem pxTCB) = none

def vTaskResume (s : Tasks τ ε) (pxTCB : τ) : Option (Tasks τ ε × Bool) :=
  if pxTCB ≠ s.pxCurrentTCB ∧ s.prvTaskIsTaskSuspended pxTCB then
    (s.remove (xStateListItem pxTCB)).map fun s =>
      (s.prvAddTaskToReadyList pxTCB, s.uxPriority pxTCB ≥ s.uxPriority s.pxCurrentTCB)
  else some (s, false)

def xTaskResumeFromISR (s : Tasks τ ε) (pxTCB : τ) : Option (Tasks τ ε × Bool) :=
  if s.prvTaskIsTaskSuspended pxTCB then
    if s.uxSchedulerSuspended = 0 then
      (s.remove (xStateListItem pxTCB)).map fun s =>
        (s.prvAddTaskToReadyList pxTCB, s.uxPriority pxTCB ≥ s.uxPriority s.pxCurrentTCB)
    else some (s.insertEnd xPendingReadyList (xEventListItem pxTCB), false)
  else some (s, false)

/-! ### Priorities -/

/-- The item value of an event list item, unless it is borrowed. -/
def resetEventValue (s : Tasks τ ε) (pxTCB : τ) (uxPriority : Nat) : Tasks τ ε :=
  if s.itemValue (xEventListItem pxTCB) &&& taskEVENT_LIST_ITEM_VALUE_IN_USE = 0 then
    s.setItemValue (xEventListItem pxTCB) (UInt32.ofNat (configMAX_PRIORITIES - uxPriority))
  else s

/-- In the ready list of a priority, and from it to that of the priority the task has now. -/
def moveReady (s : Tasks τ ε) (pxTCB : τ) (uxPriorityUsedOnEntry : Nat) : Option (Tasks τ ε) :=
  if s.container (xStateListItem pxTCB) = some (pxReadyTasksLists uxPriorityUsedOnEntry) then
    (s.remove (xStateListItem pxTCB)).map fun s => s.prvAddTaskToReadyList pxTCB
  else some s

def vTaskPrioritySet (s : Tasks τ ε) (pxTCB : τ) (uxNewPriority : Nat) : Option (Tasks τ ε × Bool) :=
  let uxNewPriority := if uxNewPriority ≥ configMAX_PRIORITIES then configMAX_PRIORITIES - 1 else uxNewPriority
  let uxCurrentBasePriority := s.uxBasePriority pxTCB
  if uxCurrentBasePriority ≠ uxNewPriority then
    let xYieldRequired :=
      if uxNewPriority > uxCurrentBasePriority then
        decide (pxTCB ≠ s.pxCurrentTCB ∧ uxNewPriority ≥ s.uxPriority s.pxCurrentTCB)
      else decide (pxTCB = s.pxCurrentTCB)
    let uxPriorityUsedOnEntry := s.uxPriority pxTCB
    let s := { s with
      uxPriority :=
        if s.uxBasePriority pxTCB = s.uxPriority pxTCB then update s.uxPriority pxTCB uxNewPriority else s.uxPriority
      uxBasePriority := update s.uxBasePriority pxTCB uxNewPriority }
    ((s.resetEventValue pxTCB uxNewPriority).moveReady pxTCB uxPriorityUsedOnEntry).map (·, xYieldRequired)
  else some (s, false)

/-- `none` is a mutex without a holder. -/
def vTaskPriorityInherit (s : Tasks τ ε) : Option τ → Option (Tasks τ ε)
  | none => some s
  | some pxTCB =>
    if s.uxPriority pxTCB < s.uxPriority s.pxCurrentTCB then
      let uxPriorityUsedOnEntry := s.uxPriority pxTCB
      let s := s.resetEventValue pxTCB (s.uxPriority s.pxCurrentTCB)
      { s with uxPriority := update s.uxPriority pxTCB (s.uxPriority s.pxCurrentTCB) }.moveReady pxTCB
        uxPriorityUsedOnEntry
    else some s

def xTaskPriorityDisinherit (s : Tasks τ ε) : Option τ → Option (Tasks τ ε × Bool)
  | none => some (s, false)
  | some pxTCB =>
    let s := { s with uxMutexesHeld := update s.uxMutexesHeld pxTCB (s.uxMutexesHeld pxTCB - 1) }
    if s.uxPriority pxTCB ≠ s.uxBasePriority pxTCB ∧ s.uxMutexesHeld pxTCB = 0 then
      (s.remove (xStateListItem pxTCB)).map fun s =>
        let s := { s with uxPriority := update s.uxPriority pxTCB (s.uxBasePriority pxTCB) }
        let s := s.setItemValue (xEventListItem pxTCB) (UInt32.ofNat (configMAX_PRIORITIES - s.uxPriority pxTCB))
        (s.prvAddTaskToReadyList pxTCB, true)
    else some (s, false)

def pvTaskIncrementMutexHeldCount (s : Tasks τ ε) : Tasks τ ε :=
  { s with uxMutexesHeld := update s.uxMutexesHeld s.pxCurrentTCB (s.uxMutexesHeld s.pxCurrentTCB + 1) }

/-! ### Creating and deleting -/

/-- The fields of a task control block that the scheduler uses. -/
def prvInitialiseNewTask (s : Tasks τ ε) (pxNewTCB : τ) (uxPriority : Nat) : Tasks τ ε :=
  let uxPriority := if uxPriority ≥ configMAX_PRIORITIES then configMAX_PRIORITIES - 1 else uxPriority
  let lists := (s.lists.vListInitialiseItem (xStateListItem pxNewTCB)).vListInitialiseItem (xEventListItem pxNewTCB)
  { s with
    uxPriority := update s.uxPriority pxNewTCB uxPriority
    uxBasePriority := update s.uxBasePriority pxNewTCB uxPriority
    uxMutexesHeld := update s.uxMutexesHeld pxNewTCB 0
    ucDelayAborted := update s.ucDelayAborted pxNewTCB false
    lists := lists.listSET_LIST_ITEM_VALUE (xEventListItem pxNewTCB) (UInt32.ofNat (configMAX_PRIORITIES - uxPriority)) }

/-- With `prvAddNewTaskToReadyList`, before the scheduler is started: the last of the best tasks will run. -/
def xTaskCreateEarly (s : Tasks τ ε) (pxNewTCB : τ) (uxPriority : Nat) : Tasks τ ε :=
  let s := s.prvInitialiseNewTask pxNewTCB uxPriority
  let pxCurrentTCB := if s.uxPriority s.pxCurrentTCB ≤ s.uxPriority pxNewTCB then pxNewTCB else s.pxCurrentTCB
  { s with pxCurrentTCB := pxCurrentTCB }.prvAddTaskToReadyList pxNewTCB

/-- With `prvAddNewTaskToReadyList`. -/
def xTaskCreate (s : Tasks τ ε) (pxNewTCB : τ) (uxPriority : Nat) : Tasks τ ε × Bool :=
  let s := (s.prvInitialiseNewTask pxNewTCB uxPriority).prvAddTaskToReadyList pxNewTCB
  (s, s.uxPriority s.pxCurrentTCB < s.uxPriority pxNewTCB)

def vTaskDelete (s : Tasks τ ε) (pxTCB : τ) : Option (Tasks τ ε × Bool) :=
  (s.remove (xStateListItem pxTCB)).bind fun s =>
    (s.leaveEvent pxTCB).bind fun s =>
      if pxTCB = s.pxCurrentTCB then some (s.insertEnd xTasksWaitingTermination (xStateListItem pxTCB), true)
      else s.prvResetNextTaskUnblockTime.map (·, false)

/-- The critical section of `prvCheckTasksWaitingTermination`. -/
def cleanUpTask (s : Tasks τ ε) : Option (Tasks τ ε) :=
  (s.lists.listGET_OWNER_OF_HEAD_ENTRY xTasksWaitingTermination).bind fun i => s.remove (xStateListItem i.pvOwner)

/-! ### Timeouts -/

end Tasks

/-- `TimeOut_t`. -/
structure TimeOut where
  xOverflowCount : Nat
  xTimeOnEntering : TickType

namespace Tasks

variable {τ ε : Type} [DecidableEq τ] [DecidableEq ε]

def vTaskSetTimeOutState (s : Tasks τ ε) : TimeOut := ⟨s.xNumOfOverflows, s.xTickCount⟩

/-- Whether the time is over, and the time-out and the ticks that are left. -/
def xTaskCheckForTimeOut (s : Tasks τ ε) (pxTimeOut : TimeOut) (pxTicksToWait : TickType) :
    Tasks τ ε × TimeOut × TickType × Bool :=
  if s.ucDelayAborted s.pxCurrentTCB then
    ({ s with ucDelayAborted := update s.ucDelayAborted s.pxCurrentTCB false }, pxTimeOut, pxTicksToWait, true)
  else if pxTicksToWait = portMAX_DELAY then (s, pxTimeOut, pxTicksToWait, false)
  else if s.xNumOfOverflows ≠ pxTimeOut.xOverflowCount ∧ s.xTickCount ≥ pxTimeOut.xTimeOnEntering then
    (s, pxTimeOut, pxTicksToWait, true)
  else if s.xTickCount - pxTimeOut.xTimeOnEntering < pxTicksToWait then
    (s, s.vTaskSetTimeOutState, pxTicksToWait - (s.xTickCount - pxTimeOut.xTimeOnEntering), false)
  else (s, pxTimeOut, pxTicksToWait, true)

/-- The first part of `vTaskDelayUntil`: the new time to wake, and whether to wait for it. -/
def delayUntil (xConstTickCount pxPreviousWakeTime xTimeIncrement : TickType) : TickType × Bool :=
  let xTimeToWake := pxPreviousWakeTime + xTimeIncrement
  (xTimeToWake,
    if xConstTickCount < pxPreviousWakeTime then
      decide (xTimeToWake < pxPreviousWakeTime ∧ xTimeToWake > xConstTickCount)
    else decide (xTimeToWake < pxPreviousWakeTime ∨ xTimeToWake > xConstTickCount))

/-- The part of `vTaskDelayUntil` under the suspended scheduler. -/
def vTaskDelayUntil (s : Tasks τ ε) (pxPreviousWakeTime xTimeIncrement : TickType) : Option (Tasks τ ε × TickType) :=
  let (xTimeToWake, xShouldDelay) := delayUntil s.xTickCount pxPreviousWakeTime xTimeIncrement
  (if xShouldDelay then s.prvAddCurrentTaskToDelayedList (xTimeToWake - s.xTickCount) false else some s).map
    (·, xTimeToWake)

end Tasks

end Bk7251.Kernel
