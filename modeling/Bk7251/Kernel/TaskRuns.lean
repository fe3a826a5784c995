import Bk7251.Kernel.TaskPriorities
import Bk7251.Kernel.TaskSleeps
import Bk7251.Kernel.TaskTime
import Bk7251.Kernel.TaskWakes
import Bk7251.Lib.Guarded

/-!
# The scheduler over whole runs

Calls of tasks and interrupts in any order, from the start of the scheduler on. A context switch that a call
asks for is requested until it takes place. Which task runs is right however the tick count is stepped; how long a
task waits is right where it is never stepped up to the next time at which a task may have to be woken.
-/
namespace Bk7251.Kernel

open ItemPtr Function

inductive TaskCall (τ ε : Type)
  | xTaskIncrementTick
  | vTaskStepTick (xTicksToJump : TickType)
  | vTaskSwitchContext
  | vTaskSuspendAll
  | xTaskResumeAll
  | vTaskDelay (xTicksToDelay : TickType)
  | vTaskDelayUntil (pxPreviousWakeTime xTimeIncrement : TickType)
  | vTaskPlaceOnEventList (pxEventList : ε) (xTicksToWait : TickType)
  | vTaskPlaceOnUnorderedEventList (pxEventList : ε) (xItemValue xTicksToWait : TickType)
  | xTaskRemoveFromEventList (pxEventList : ε)
  | xTaskRemoveFromUnorderedEventList (pxEventList : ε) (pxTCB : τ) (xItemValue : TickType)
  | xTaskAbortDelay (pxTCB : τ)
  | vTaskSuspend (pxTCB : τ)
  | vTaskResume (pxTCB : τ)
  | xTaskResumeFromISR (pxTCB : τ)
  | vTaskPrioritySet (pxTCB : τ) (uxNewPriority : Nat)
  | vTaskPriorityInherit (pxMutexHolder : Option τ)
  | xTaskPriorityDisinherit
  | pvTaskIncrementMutexHeldCount
  | xTaskCreate (pxNewTCB : τ) (uxPriority : Nat)
  | vTaskDelete (pxTCB : τ)
  | prvCheckTasksWaitingTermination

/-- The tasks that are there when the scheduler starts: those that were created before, with their priorities, the
idle task and the timer task. -/
structure Boot (τ : Type) where
  created : List (τ × Nat)
  idle : τ
  timer : τ
  distinct : (created.map Prod.fst ++ [idle, timer]).Nodup

variable {τ ε : Type} [DecidableEq τ] [DecidableEq ε]

def tskIDLE_PRIORITY : Nat := 0
def configTIMER_TASK_PRIORITY : Nat := 2

def Boot.tasks (boot : Boot τ) : List (τ × Nat) :=
  boot.created ++ [(boot.idle, tskIDLE_PRIORITY), (boot.timer, configTIMER_TASK_PRIORITY)]

namespace Tasks

open TaskItem TaskList

/-- The lists of `prvInitialiseTaskLists`, and items in none of them. -/
def prvInitialiseTaskLists : Lists (TaskItem τ) (TaskList ε) where
  xItemValue
    | item _ => 0
    | xListEnd _ => portMAX_DELAY
  pxNext := id
  pxPrevious := id
  pvContainer _ := none
  uxNumberOfItems _ := 0
  pxIndex := xListEnd

/-- Before there is a task; the first one that is created will be `pxCurrentTCB`. -/
def noTasks (first : τ) : Tasks τ ε where
  lists := prvInitialiseTaskLists
  uxPriority _ := 0
  uxBasePriority _ := 0
  uxMutexesHeld _ := 0
  ucDelayAborted _ := false
  pxCurrentTCB := first
  pxDelayedTaskList := xDelayedTaskList1
  pxOverflowDelayedTaskList := xDelayedTaskList2
  xTickCount := 0
  uxTopReadyPriority := tskIDLE_PRIORITY
  uxPendedTicks := 0
  xYieldPending := false
  xNumOfOverflows := 0
  xNextTaskUnblockTime := 0
  uxSchedulerSuspended := 0

/-- `vTaskStartScheduler`, after the tasks that were created before it. -/
def vTaskStartScheduler (boot : Boot τ) : Tasks τ ε :=
  let first := (boot.created.map Prod.fst).headD boot.idle
  let s := boot.tasks.foldl (fun s (t, p) => s.xTaskCreateEarly t p) (noTasks first)
  { s with xNextTaskUnblockTime := portMAX_DELAY, xTickCount := 0 }

/-- The calls that put the running task to sleep are followed by a yield. -/
def call (s : Tasks τ ε) : TaskCall τ ε → Option (Tasks τ ε × Bool)
  | .xTaskIncrementTick => s.xTaskIncrementTick
  | .vTaskStepTick n => some (s.vTaskStepTick n, false)
  | .vTaskSwitchContext => s.vTaskSwitchContext.map (·, false)
  | .vTaskSuspendAll => some (s.vTaskSuspendAll, false)
  | .xTaskResumeAll => s.xTaskResumeAll
  | .vTaskDelay n => (s.prvAddCurrentTaskToDelayedList n false).map (·, true)
  | .vTaskDelayUntil previous increment => (s.vTaskDelayUntil previous increment).map fun (s, _) => (s, true)
  | .vTaskPlaceOnEventList e n => (s.vTaskPlaceOnEventList e n).map (·, true)
  | .vTaskPlaceOnUnorderedEventList e v n => (s.vTaskPlaceOnUnorderedEventList e v n).map (·, true)
  | .xTaskRemoveFromEventList e => s.xTaskRemoveFromEventList e
  | .xTaskRemoveFromUnorderedEventList _ t v => s.xTaskRemoveFromUnorderedEventList (xEventListItem t) v
  | .xTaskAbortDelay t => (s.xTaskAbortDelay t).map (·, false)
  | .vTaskSuspend t => s.vTaskSuspend t
  | .vTaskResume t => s.vTaskResume t
  | .xTaskResumeFromISR t => s.xTaskResumeFromISR t
  | .vTaskPrioritySet t p => s.vTaskPrioritySet t p
  | .vTaskPriorityInherit holder => (s.vTaskPriorityInherit holder).map (·, false)
  | .xTaskPriorityDisinherit => s.xTaskPriorityDisinherit (some s.pxCurrentTCB)
  | .pvTaskIncrementMutexHeldCount => some (s.pvTaskIncrementMutexHeldCount, false)
  | .xTaskCreate t p => some (s.xTaskCreate t p)
  | .vTaskDelete t => s.vTaskDelete t
  | .prvCheckTasksWaitingTermination => s.cleanUpTask.map (·, false)

/-- What the callers promise: only a task that runs blocks itself or gives back a mutex, which it holds; the idle task
never blocks and is neither suspended nor deleted; a task control block is new when it is created and alive
afterwards. -/
def Legal (idle : τ) (s : Tasks τ ε) : TaskCall τ ε → Prop
  | .xTaskResumeAll => s.uxSchedulerSuspended ≠ 0
  | .vTaskDelay n | .vTaskPlaceOnEventList _ n | .vTaskPlaceOnUnorderedEventList _ _ n =>
    s.Running ∧ s.pxCurrentTCB ≠ idle ∧ n ≠ 0
  | .vTaskDelayUntil _ _ => s.Running ∧ s.pxCurrentTCB ≠ idle
  | .xTaskRemoveFromEventList e => s.lists.listLIST_IS_EMPTY (event e) = false
  | .xTaskRemoveFromUnorderedEventList e t _ => s.container (xEventListItem t) = some (event e)
  | .vTaskSuspend t | .vTaskDelete t => t ≠ idle ∧ s.container (xStateListItem t) ≠ none
  | .xTaskPriorityDisinherit => s.Running ∧ s.uxMutexesHeld s.pxCurrentTCB ≠ 0
  | .xTaskCreate t _ => s.container (xStateListItem t) = none ∧ s.container (xEventListItem t) = none
  | .prvCheckTasksWaitingTermination => s.lists.listLIST_IS_EMPTY xTasksWaitingTermination = false
  | _ => True

/-- The tick count is stepped to a time before the next one at which a task may have to be woken. -/
def Punctual (s : Tasks τ ε) : TaskCall τ ε → Prop
  | .vTaskStepTick n => s.xTickCount.toNat + n.toNat < s.xNextTaskUnblockTime.toNat
  | _ => True

/-- The tick count is not stepped over its end. -/
def Unwrapped (s : Tasks τ ε) : TaskCall τ ε → Prop
  | .vTaskStepTick n => s.xTickCount.toNat + n.toNat < 2 ^ 32
  | _ => True

/-- A legal call, and no late step of the tick count. -/
def InTime (idle : τ) (s : Tasks τ ε) (c : TaskCall τ ε) : Prop := Legal idle s c ∧ s.Punctual c

/-- Whom a call wakes, puts to sleep, suspends, creates or deletes. -/
def Touches (s : Tasks τ ε) (t : τ) : TaskCall τ ε → Prop
  | .xTaskResumeAll => s.Held t
  | .vTaskDelay _ | .vTaskDelayUntil _ _ | .vTaskPlaceOnEventList _ _ | .vTaskPlaceOnUnorderedEventList _ _ _ =>
    t = s.pxCurrentTCB
  | .xTaskRemoveFromEventList e => s.lists.listGET_OWNER_OF_HEAD_ENTRY (event e) = some (xEventListItem t)
  | .xTaskRemoveFromUnorderedEventList _ u _ | .xTaskAbortDelay u | .vTaskSuspend u | .vTaskResume u
  | .xTaskResumeFromISR u | .xTaskCreate u _ | .vTaskDelete u => t = u
  | .prvCheckTasksWaitingTermination =>
    s.lists.listGET_OWNER_OF_HEAD_ENTRY xTasksWaitingTermination = some (xStateListItem t)
  | _ => False

/-- The ticks that a call counts. -/
def ticks (s : Tasks τ ε) : TaskCall τ ε → Nat
  | .xTaskIncrementTick => if s.uxSchedulerSuspended = 0 then 1 else 0
  | .vTaskStepTick n => n.toNat
  | .xTaskResumeAll => if s.uxSchedulerSuspended = 1 then s.uxPendedTicks.toNat else 0
  | _ => 0

instance (idle : τ) (s : Tasks τ ε) (c : TaskCall τ ε) : Decidable (Legal idle s c) := by
  unfold Legal Running
  cases c <;> infer_instance

instance (s : Tasks τ ε) (c : TaskCall τ ε) : Decidable (s.Punctual c) := by
  unfold Punctual
  cases c <;> infer_instance

instance (idle : τ) (s : Tasks τ ε) (c : TaskCall τ ε) : Decidable (InTime idle s c) :=
  inferInstanceAs (Decidable (_ ∧ _))

instance (s : Tasks τ ε) (c : TaskCall τ ε) : Decidable (s.Unwrapped c) := by
  unfold Unwrapped
  cases c <;> infer_instance

instance (s : Tasks τ ε) (t : τ) (c : TaskCall τ ε) : Decidable (s.Touches t c) := by
  unfold Touches
  cases c <;> infer_instance

variable {s s' : Tasks τ ε} {t idle : τ} {punctual : Prop}

/-! ### The start -/

omit [DecidableEq τ] [DecidableEq ε] in
theorem prvInitialiseTaskLists_holds :
    (prvInitialiseTaskLists : Lists (TaskItem τ) (TaskList ε)).Holds Set.univ fun _ => .empty where
  circle _ _ := Lib.Links.circular_singleton.mpr ⟨rfl, rfl⟩
  index _ _ := rfl
  count _ _ := rfl
  marker _ _ := rfl
  contained _ _ i := iff_of_false (by simp) (by simp [prvInitialiseTaskLists])
  initialised _ _ container := absurd container (by simp [prvInitialiseTaskLists])

omit [DecidableEq τ] [DecidableEq ε] in
theorem prvInitialiseTaskLists_arranged :
    Arranged (prvInitialiseTaskLists : Lists (TaskItem τ) (TaskList ε)) (fun _ => 0) 0 fun _ => .empty := by
  constructor
  case holds => exact prvInitialiseTaskLists_holds
  case fits => exact fun i l inside => absurd inside (by simp [prvInitialiseTaskLists])
  case top => exact fun t p inside => absurd inside (by simp [prvInitialiseTaskLists])
  case small => exact fun _ => by decide
  case start => exact fun _ _ => rfl
  case sorted => exact fun _ _ => List.Pairwise.nil

/-- The first task is ready, and no other task is anywhere. -/
theorem first_sound (t : τ) (p : Nat) :
    ((noTasks t : Tasks τ ε).xTaskCreateEarly t p).Sound punctual t ∧
      ((noTasks t : Tasks τ ε).xTaskCreateEarly t p).Settled ∧
      ∀ u, u ≠ t → ((noTasks t : Tasks τ ε).xTaskCreateEarly t p).container (xStateListItem u) = none := by
  obtain ⟨new, clamped⟩ : ∃ new, new = if p ≥ configMAX_PRIORITIES then configMAX_PRIORITIES - 1 else p := ⟨_, rfl⟩
  have small : new < configMAX_PRIORITIES := by
    rw [clamped, configMAX_PRIORITIES]
    split <;> omega
  have base : ∀ u, update (fun _ : τ => 0) t new u < configMAX_PRIORITIES := by
    intro u
    by_cases eq : u = t
    · rwa [eq, update_self]
    · rw [update_of_ne eq]
      decide
  have lists : ((prvInitialiseTaskLists : Lists (TaskItem τ) (TaskList ε)).vListInitialiseItem
      (xStateListItem t)).vListInitialiseItem (xEventListItem t) = prvInitialiseTaskLists := by
    rw [vListInitialiseItem_same (i := xStateListItem t) rfl, vListInitialiseItem_same rfl]
  obtain ⟨v, value⟩ : ∃ v, v = UInt32.ofNat (configMAX_PRIORITIES - new) := ⟨_, rfl⟩
  have arranged : Arranged ((prvInitialiseTaskLists : Lists (TaskItem τ) (TaskList ε)).listSET_LIST_ITEM_VALUE
      (xEventListItem t) v) (update (fun _ => 0) t new) 0 fun _ => .empty :=
    (prvInitialiseTaskLists_arranged.setPriority (fun u ne => update_of_ne ne ..)
      (fun p inside => absurd inside (by simp [prvInitialiseTaskLists])) (base t)).setValue
        fun l _ inside => absurd inside (by simp [prvInitialiseTaskLists])
  obtain ⟨lists', call, arranged', moved⟩ := addReady_spec (t := t) (s := { (noTasks t : Tasks τ ε) with
    lists := prvInitialiseTaskLists.listSET_LIST_ITEM_VALUE (xEventListItem t) v
    uxPriority := update (fun _ => 0) t new, uxBasePriority := update (fun _ => 0) t new
    ucDelayAborted := update (fun _ => false) t false, uxMutexesHeld := update (fun _ => 0) t 0 }) arranged rfl
  have places : lists'.pvContainer = update (fun _ => none) (xStateListItem t)
      (some (pxReadyTasksLists (update (fun _ : τ => 0) t new t))) := moved.pvContainer
  have named : (noTasks t : Tasks τ ε).xTaskCreateEarly t p = { (noTasks t : Tasks τ ε) with
      lists := lists', uxTopReadyPriority := max 0 (update (fun _ => 0) t new t)
      uxPriority := update (fun _ => 0) t new, uxBasePriority := update (fun _ => 0) t new
      ucDelayAborted := update (fun _ => false) t false, uxMutexesHeld := update (fun _ => 0) t 0 } := by
    refine Eq.trans ?_ call
    simp only [xTaskCreateEarly, prvInitialiseNewTask, noTasks, lists, ← clamped, value, ite_self]
  have state : lists'.pvContainer (xStateListItem t) =
      some (pxReadyTasksLists (update (fun _ : τ => 0) t new t)) := by rw [places, update_self]
  have others : ∀ u, u ≠ t → lists'.pvContainer (xStateListItem u) = none := by
    intro u ne
    rw [places, update_of_ne (by simpa using ne)]
  have events : ∀ u, lists'.pvContainer (xEventListItem u) = none := fun u => by rw [places, update_of_ne (by simp)]
  have nobody : ∀ u l, Delayed l → lists'.pvContainer (xStateListItem u) ≠ some l := by
    intro u l delayed inside
    by_cases eq : u = t
    · subst eq
      have ready := Option.some.inj (state.symm.trans inside)
      rcases delayed with rfl | rfl <;> cases ready
    · exact absurd ((others u eq).symm.trans inside) (by simp)
  rw [named]
  refine ⟨⟨⟨_, arranged'⟩, .inl ⟨rfl, rfl⟩, fun _ => ⟨.inl ⟨rfl, rfl⟩, fun u here => ?_, fun u there => ?_⟩,
    ⟨fun u l inside => ?_, fun _ u inside => ?_, state⟩, fun _ => rfl, base⟩, ⟨state, fun u there => ?_⟩, others⟩
  · exact absurd here (nobody u _ (.inl rfl))
  · exact absurd there (nobody u _ (.inr rfl))
  · exact absurd ((events u).symm.trans inside) (by simp)
  · exact absurd ((events u).symm.trans inside) (by simp)
  · by_cases eq : u = t
    · rw [eq]
      exact Nat.le_refl _
    · exact absurd ((others u eq).symm.trans there) (by simp)

/-- The tasks that are created one after the other are all ready, and no other task is anywhere. -/
theorem created_sound {first : τ} {s : Tasks τ ε} {tasks : List (τ × Nat)} (sound : s.Sound punctual first)
    (settled : s.Settled) (out : ∀ t ∈ tasks.map Prod.fst, s.container (xStateListItem t) = none)
    (distinct : (tasks.map Prod.fst).Nodup) :
    (tasks.foldl (fun s (t, p) => s.xTaskCreateEarly t p) s).Sound punctual first ∧
      (tasks.foldl (fun s (t, p) => s.xTaskCreateEarly t p) s).Settled ∧
      ∀ t, (s.Ready t ∨ t ∈ tasks.map Prod.fst →
        (tasks.foldl (fun s (t, p) => s.xTaskCreateEarly t p) s).Ready t) ∧
        (t ∉ tasks.map Prod.fst →
          (tasks.foldl (fun s (t, p) => s.xTaskCreateEarly t p) s).container (xStateListItem t) =
            s.container (xStateListItem t)) := by
  induction tasks generalizing s with
  | nil => exact ⟨sound, settled, fun t => ⟨fun there => there.resolve_right List.not_mem_nil, fun _ => rfl⟩⟩
  | cons task tasks ih =>
    obtain ⟨t, p⟩ := task
    obtain ⟨new, rest⟩ := List.nodup_cons.mp distinct
    obtain ⟨sound', settled', ready, others⟩ :=
      xTaskCreateEarly_sound sound settled (out t List.mem_cons_self) p
    obtain ⟨last, lastSettled, all⟩ := ih sound' settled' (fun u member =>
      (others u fun eq => new (eq ▸ member)).1.trans (out u (List.mem_cons_of_mem _ member))) rest
    refine ⟨last, lastSettled, fun u => ⟨fun there => (all u).1 ?_, fun far => ?_⟩⟩
    · rcases there with before | member
      · by_cases eq : u = t
        · exact .inl (eq ▸ ready)
        · exact .inl ((others u eq).2 before)
      · rcases List.mem_cons.mp member with rfl | later
        · exact .inl ready
        · exact .inr later
    · obtain ⟨ne, later⟩ := not_or.mp (mt List.mem_cons.mpr far)
      exact ((all u).2 later).trans (others u ne).1

/-- The scheduler starts with the best of the tasks. -/
theorem vTaskStartScheduler_sound (boot : Boot τ) :
    (vTaskStartScheduler boot : Tasks τ ε).Sound punctual boot.idle ∧
      (vTaskStartScheduler boot : Tasks τ ε).Settled := by
  obtain ⟨t, p, tasks, all, first⟩ : ∃ t p tasks, boot.tasks = (t, p) :: tasks ∧
      (boot.created.map Prod.fst).headD boot.idle = t := by
    rw [Boot.tasks]
    cases boot.created with
    | nil => exact ⟨_, _, _, rfl, rfl⟩
    | cons task created => exact ⟨task.1, task.2, _, rfl, rfl⟩
  have names : boot.tasks.map Prod.fst = boot.created.map Prod.fst ++ [boot.idle, boot.timer] := by
    rw [Boot.tasks, List.map_append]
    rfl
  have distinct := boot.distinct
  rw [← names, all] at distinct
  obtain ⟨new, rest⟩ := List.nodup_cons.mp distinct
  obtain ⟨sound, settled, none⟩ := @first_sound τ ε _ _ punctual t p
  obtain ⟨sound', settled', ready⟩ := created_sound sound settled
    (fun u member => none u fun eq => new (eq ▸ member)) rest
  have idle : boot.idle = t ∨ boot.idle ∈ tasks.map Prod.fst := by
    have member : boot.idle ∈ boot.tasks.map Prod.fst := by
      rw [names]
      simp
    rw [all] at member
    exact List.mem_cons.mp member
  simp only [vTaskStartScheduler, first, all, List.foldl_cons]
  generalize tasks.foldl (fun s (t, p) => s.xTaskCreateEarly t p) ((noTasks t : Tasks τ ε).xTaskCreateEarly t p) = s
    at sound' settled' ready
  have readyFirst : s.Ready t := (ready t).1 (.inl sound.places.idle)
  -- a task that was created is ready, and the others are nowhere
  have nobody : ∀ u l, Delayed l → s.container (xStateListItem u) ≠ some l := by
    intro u l delayed inside
    have notReady : ¬s.Ready u := by
      intro there
      have same := Option.some.inj (there.symm.trans inside)
      rcases delayed with rfl | rfl <;> cases same
    have ne : u ≠ t := fun eq => notReady (eq ▸ readyFirst)
    have far : u ∉ tasks.map Prod.fst := fun member => notReady ((ready u).1 (.inr member))
    exact absurd (((ready u).2 far).trans (none u ne) |>.symm.trans inside) (by simp)
  have idleReady : s.Ready boot.idle := by
    rcases idle with eq | member
    · rwa [eq]
    · exact (ready _).1 (.inr member)
  obtain ⟨delayed, overflow⟩ := sound'.turns.delayed
  exact ⟨⟨sound'.arranged, sound'.turns,
    fun _ => ⟨sound'.turns, fun u here => absurd here (nobody u _ delayed), fun u there => absurd there (nobody u _ overflow)⟩,
    ⟨sound'.places.waiting, sound'.places.pending, idleReady⟩, sound'.pended, sound'.base⟩, settled'.running,
    settled'.highest⟩

/-! ### Calls -/

/-- `vTaskDelayUntil` waits for what is left of the period, however late it is called. -/
theorem delayUntil_eq (now previous increment : TickType) :
    delayUntil now previous increment = (previous + increment, decide (now - previous < increment)) := by
  simp only [delayUntil, Prod.mk.injEq, true_and]
  have d₁ := now.toNat_lt
  have d₂ := previous.toNat_lt
  have d₃ := increment.toNat_lt
  split
  · rename_i wrapped
    rw [decide_eq_decide]
    simp only [gt_iff_lt, UInt32.lt_iff_toNat_lt, UInt32.toNat_add, UInt32.toNat_sub] at wrapped ⊢
    omega
  · rename_i ahead
    rw [decide_eq_decide]
    simp only [gt_iff_lt, UInt32.lt_iff_toNat_lt, UInt32.toNat_add, UInt32.toNat_sub] at ahead ⊢
    omega

theorem vTaskDelayUntil_goes (sound : s.Sound punctual idle) (running : s.Running) (ne : s.pxCurrentTCB ≠ idle)
    (previous increment : TickType) :
    ∃ s', s.vTaskDelayUntil previous increment = some (s', previous + increment) ∧
      Goes punctual idle s s' true 0 (· = s.pxCurrentTCB) ∧
      (s.xTickCount - previous < increment →
        s'.Waits s.pxCurrentTCB ∧ s'.ticksLeft s.pxCurrentTCB = previous + increment - s.xTickCount) := by
  unfold vTaskDelayUntil
  rw [delayUntil_eq]
  dsimp only
  by_cases early : s.xTickCount - previous < increment
  · have positive : previous + increment - s.xTickCount ≠ 0 := by grind
    obtain ⟨s', call, goes, waits⟩ := prvAddCurrentTaskToDelayedList_goes sound running ne positive false
    refine ⟨s', ?_, goes, fun _ => waits (.inr rfl)⟩
    rw [if_pos (by simpa using early), call, Option.map_some]
  · refine ⟨s, ?_, ⟨sound, id, fun _ no => absurd no (by simp), fun punct t far => ?_⟩,
      fun now => absurd now early⟩
    · rw [if_neg (by simpa using early), Option.map_some]
    · exact (Goes.refl (y := false) sound : Goes punctual idle s s false 0 (· = s.pxCurrentTCB)).stays punct t far

/-- Every call that is legal gets a result, and does what calls may do. -/
theorem call_goes (sound : s.Sound punctual idle) {c : TaskCall τ ε} (legal : Legal idle s c)
    (inTime : punctual → s.Punctual c) (other : c ≠ .vTaskSwitchContext) :
    ∃ s' y, s.call c = some (s', y) ∧ Goes punctual idle s s' y (s.ticks c) (s.Touches · c) := by
  cases c with
  | xTaskIncrementTick => exact xTaskIncrementTick_goes sound
  | vTaskStepTick n => exact ⟨_, _, rfl, vTaskStepTick_goes sound n inTime⟩
  | vTaskSwitchContext => exact absurd rfl other
  | vTaskSuspendAll => exact ⟨_, _, rfl, vTaskSuspendAll_goes sound⟩
  | xTaskResumeAll => exact xTaskResumeAll_goes sound legal
  | vTaskDelay n =>
    obtain ⟨s', call, goes, -⟩ := prvAddCurrentTaskToDelayedList_goes sound legal.1 legal.2.1 legal.2.2 false
    exact ⟨s', true, congrArg (Option.map _) call, goes⟩
  | vTaskDelayUntil previous increment =>
    obtain ⟨s', call, goes, -⟩ := vTaskDelayUntil_goes sound legal.1 legal.2 previous increment
    exact ⟨s', true, congrArg (Option.map _) call, goes⟩
  | vTaskPlaceOnEventList e n =>
    obtain ⟨s', call, goes, -⟩ := vTaskPlaceOnEventList_goes sound legal.1 legal.2.1 legal.2.2
    exact ⟨s', true, congrArg (Option.map _) call, goes⟩
  | vTaskPlaceOnUnorderedEventList e v n =>
    obtain ⟨s', call, goes, -⟩ := vTaskPlaceOnUnorderedEventList_goes sound legal.1 legal.2.1 legal.2.2
    exact ⟨s', true, congrArg (Option.map _) call, goes⟩
  | xTaskRemoveFromEventList e =>
    obtain ⟨t, s', y, head, call, goes⟩ := xTaskRemoveFromEventList_goes sound legal
    exact ⟨s', y, call, goes.mono fun u eq => eq ▸ head⟩
  | xTaskRemoveFromUnorderedEventList e t v => exact xTaskRemoveFromUnorderedEventList_goes sound legal v
  | xTaskAbortDelay t =>
    obtain ⟨s', call, goes⟩ := xTaskAbortDelay_goes sound t
    exact ⟨s', false, congrArg (Option.map _) call, goes⟩
  | vTaskSuspend t =>
    obtain ⟨l, here⟩ := Option.ne_none_iff_exists'.mp legal.2
    exact vTaskSuspend_goes sound legal.1 here
  | vTaskResume t => exact vTaskResume_goes sound t
  | xTaskResumeFromISR t => exact xTaskResumeFromISR_goes sound t
  | vTaskPrioritySet t p => exact vTaskPrioritySet_goes sound t p
  | vTaskPriorityInherit holder =>
    obtain ⟨s', call, goes⟩ := vTaskPriorityInherit_goes sound holder
    exact ⟨s', false, congrArg (Option.map _) call, goes⟩
  | xTaskPriorityDisinherit => exact xTaskPriorityDisinherit_goes sound legal.1
  | pvTaskIncrementMutexHeldCount => exact ⟨_, _, rfl, pvTaskIncrementMutexHeldCount_goes sound⟩
  | xTaskCreate t p => exact ⟨_, _, rfl, xTaskCreate_goes sound legal.1 legal.2 p⟩
  | vTaskDelete t =>
    obtain ⟨l, here⟩ := Option.ne_none_iff_exists'.mp legal.2
    exact vTaskDelete_goes sound legal.1 here
  | prvCheckTasksWaitingTermination =>
    obtain ⟨t, s', head, call, goes⟩ := cleanUpTask_goes sound legal
    exact ⟨s', false, congrArg (Option.map _) call, goes.mono fun u eq => eq ▸ head⟩

end Tasks

/-! ### Runs -/

/-- The tasks, and whether a context switch has been requested that has not yet taken place. -/
structure Scheduler (τ ε : Type) where
  tasks : Tasks τ ε
  requested : Bool

namespace Scheduler

open Tasks

def start (boot : Boot τ) : Scheduler τ ε := ⟨vTaskStartScheduler boot, false⟩

def step (s : Scheduler τ ε) (c : TaskCall τ ε) : Option (Scheduler τ ε) :=
  (s.tasks.call c).map fun (tasks, yield) =>
    ⟨tasks, match c with
      | .vTaskSwitchContext => false
      | _ => s.requested || yield⟩

/-- The ticks that a run counts. -/
def elapsed (s : Scheduler τ ε) : List (TaskCall τ ε) → Nat
  | [] => 0
  | c :: cs => s.tasks.ticks c + ((step s c).map fun s => elapsed s cs).getD 0

variable {s s' : Scheduler τ ε} {t idle : τ} {c : TaskCall τ ε} {cs : List (TaskCall τ ε)} {punctual : Prop}
  {boot : Boot τ}

/-- Unless a context switch has been asked for, the task that runs is the right one. -/
structure Inv (punctual : Prop) (idle : τ) (s : Scheduler τ ε) : Prop where
  sound : s.tasks.Sound punctual idle
  settled : s.requested = false → s.tasks.xYieldPending = false → s.tasks.Settled

theorem inv_start (boot : Boot τ) : Inv punctual boot.idle (start boot : Scheduler τ ε) :=
  have ⟨sound, settled⟩ := vTaskStartScheduler_sound boot
  ⟨sound, fun _ _ => settled⟩

/-- The step lemma. -/
theorem inv_step (inv : Inv punctual idle s) (legal : Legal idle s.tasks c) (inTime : punctual → s.tasks.Punctual c) :
    ∃ s', step s c = some s' ∧ Inv punctual idle s' ∧
      (punctual → ∀ t, ¬s.tasks.Touches t c → Stays (s.tasks.ticks c) s.tasks s'.tasks t) := by
  by_cases switch : c = .vTaskSwitchContext
  · subst switch
    obtain ⟨tasks, call, sound, settled, stays⟩ := vTaskSwitchContext_goes inv.sound
    refine ⟨⟨tasks, false⟩, ?_, ⟨sound, fun _ quiet => settled quiet⟩, fun punct t _ => stays punct t⟩
    rw [step, Tasks.call, call]
    rfl
  · obtain ⟨tasks, yield, call, goes⟩ := call_goes inv.sound legal inTime switch
    refine ⟨⟨tasks, s.requested || yield⟩, ?_, ⟨goes.sound, fun no quiet => ?_⟩, goes.stays⟩
    · rw [step, call]
      cases c <;> first | rfl | exact absurd rfl switch
    · obtain ⟨unasked, no⟩ := Bool.or_eq_false_iff.mp no
      have still : tasks.xYieldPending = false := quiet
      have before : s.tasks.xYieldPending = false := by
        by_contra asks
        exact absurd (goes.pending (by simpa using asks)) (by simp [still])
      exact goes.settled (inv.settled unasked before) no quiet

/-- The run lemma for a task that no call touches. -/
theorem run_stays (inv : Inv True idle s)
    (allowed : Lib.Guarded.Allowed step
      (fun s c => InTime idle s.tasks c ∧ ¬s.tasks.Touches t c) s cs) :
    ∃ s', cs.foldlM step s = some s' ∧ Inv True idle s' ∧ Stays (elapsed s cs) s.tasks s'.tasks t := by
  induction cs generalizing s with
  | nil =>
    have same : Goes True idle s.tasks s.tasks false 0 fun _ => False := .refl inv.sound
    exact ⟨s, rfl, inv, same.stays trivial t id⟩
  | cons c cs ih =>
    obtain ⟨⟨⟨legal, inTime⟩, far⟩, rest⟩ := allowed
    obtain ⟨s₁, moved, inv₁, stays⟩ := inv_step inv legal fun _ => inTime
    obtain ⟨s₂, ran, inv₂, later⟩ := ih inv₁ (rest s₁ moved)
    refine ⟨s₂, ?_, inv₂, ?_⟩
    · rw [List.foldlM_cons, moved]
      exact ran
    · rw [elapsed, moved, Option.map_some, Option.getD_some]
      exact (stays trivial t far).trans later

/-- A state that calls lead to that are all as `ok` says. -/
def Reached (ok : Tasks τ ε → TaskCall τ ε → Prop) (boot : Boot τ) (s : Scheduler τ ε) : Prop :=
  ∃ cs, Lib.Guarded.Allowed step (fun s c => ok s.tasks c) (start boot) cs ∧ cs.foldlM step (start boot) = some s

theorem Inv.run (inv : Inv False idle s) (allowed : Lib.Guarded.Allowed step (fun s c => Legal idle s.tasks c) s cs) :
    ∃ s', cs.foldlM step s = some s' ∧ Inv False idle s' :=
  Lib.Guarded.run_keeps
    (fun _ _ inv legal => (inv_step inv legal False.elim).imp fun _ all => ⟨all.1, all.2.1⟩) inv allowed

theorem Reached.inv (reached : Reached (Legal boot.idle) boot s) : Inv False boot.idle s := by
  obtain ⟨cs, allowed, ran⟩ := reached
  obtain ⟨s', ran', inv⟩ := (inv_start boot).run allowed
  exact Option.some.inj (ran'.symm.trans ran) ▸ inv

theorem Reached.inTime (reached : Reached (InTime boot.idle) boot s) : Inv True boot.idle s := by
  obtain ⟨cs, allowed, ran⟩ := reached
  obtain ⟨s', ran', inv⟩ := Lib.Guarded.run_keeps (P := Inv True boot.idle)
    (fun _ _ inv ok => (inv_step inv ok.1 fun _ => ok.2).imp fun _ all => ⟨all.1, all.2.1⟩) (inv_start boot) allowed
  exact Option.some.inj (ran'.symm.trans ran) ▸ inv

/-- No loop or list operation of the scheduler gets stuck, whatever tasks and interrupts call; and unless a context
switch has been asked for, the running task is ready and no ready task has a higher priority. -/
theorem highest_priority_runs (boot : Boot τ)
    (allowed : Lib.Guarded.Allowed step (fun s c => Legal boot.idle s.tasks c) (start boot) cs) :
    ∃ s : Scheduler τ ε, cs.foldlM step (start boot) = some s ∧
      (s.requested = false → s.tasks.xYieldPending = false →
        s.tasks.Ready s.tasks.pxCurrentTCB ∧
          ∀ t, s.tasks.Ready t → s.tasks.uxPriority t ≤ s.tasks.uxPriority s.tasks.pxCurrentTCB) := by
  obtain ⟨s, ran, inv⟩ := (inv_start boot).run allowed
  refine ⟨s, ran, fun unasked quiet => ?_⟩
  have settled := inv.settled unasked quiet
  exact ⟨settled.running, settled.highest⟩

/-- A task of priority 3 is created before the scheduler is started. -/
def oneTask : Boot Nat := ⟨[(1, 3)], 0, 2, by decide⟩

/-- The best task delays itself, and the tick count is stepped over its time. -/
theorem highest_priority_runs_stepped :
    ∃ s : Scheduler Nat Unit,
      [.vTaskDelay 2, .vTaskSwitchContext, .vTaskStepTick 5, .xTaskIncrementTick, .vTaskSwitchContext].foldlM step
        (start oneTask) = some s ∧
      (s.requested = false → s.tasks.xYieldPending = false →
        s.tasks.Ready s.tasks.pxCurrentTCB ∧
          ∀ t, s.tasks.Ready t → s.tasks.uxPriority t ≤ s.tasks.uxPriority s.tasks.pxCurrentTCB) := by
  have allowed : Lib.Guarded.Allowed step (fun s c => Legal oneTask.idle s.tasks c)
      (start oneTask : Scheduler Nat Unit)
      [.vTaskDelay 2, .vTaskSwitchContext, .vTaskStepTick 5, .xTaskIncrementTick, .vTaskSwitchContext] := by
    decide +kernel
  exact highest_priority_runs oneTask allowed

/-- A task that waits is ready when its ticks have been counted, and not before. -/
theorem waits_exact {n : TickType} (inv : Inv True idle s) (there : s.tasks.Waits t) (left : s.tasks.ticksLeft t = n)
    (undisturbed : Lib.Guarded.Allowed step (fun s c => InTime idle s.tasks c ∧ ¬s.tasks.Touches t c) s cs) :
    ∃ s', cs.foldlM step s = some s' ∧
      (elapsed s cs < n.toNat → s'.tasks.Waits t ∧ (s'.tasks.ticksLeft t).toNat = n.toNat - elapsed s cs) ∧
      (n.toNat ≤ elapsed s cs → s'.tasks.Ready t) := by
  obtain ⟨s', ran, -, stays⟩ := run_stays inv undisturbed
  subst left
  exact ⟨s', ran, stays.waits there, stays.expires there⟩

/-- A task that delays itself for `n` ticks waits for exactly that many, whatever else happens, with the scheduler
suspended meanwhile or not, and also where the tick count wraps around. -/
theorem delay_exact {s₁ : Scheduler τ ε} (reached : Reached (InTime boot.idle) boot s) {n : TickType}
    (legal : Legal boot.idle s.tasks (.vTaskDelay n)) (delays : step s (.vTaskDelay n) = some s₁)
    (undisturbed : Lib.Guarded.Allowed step
      (fun s' c => InTime boot.idle s'.tasks c ∧ ¬s'.tasks.Touches s.tasks.pxCurrentTCB c) s₁ cs) :
    ∃ s₂, cs.foldlM step s₁ = some s₂ ∧
      (elapsed s₁ cs < n.toNat → s₂.tasks.Waits s.tasks.pxCurrentTCB ∧
        (s₂.tasks.ticksLeft s.tasks.pxCurrentTCB).toNat = n.toNat - elapsed s₁ cs) ∧
      (n.toNat ≤ elapsed s₁ cs → s₂.tasks.Ready s.tasks.pxCurrentTCB) := by
  obtain ⟨s', moved, inv, -⟩ := inv_step reached.inTime legal fun _ => trivial
  obtain rfl : s' = s₁ := Option.some.inj (moved.symm.trans delays)
  obtain ⟨tasks, call, -, waits⟩ := prvAddCurrentTaskToDelayedList_goes reached.inTime.sound legal.1 legal.2.1 legal.2.2 false
  have same : s'.tasks = tasks := by
    rw [step, Tasks.call, call] at moved
    exact congrArg Scheduler.tasks (Option.some.inj moved).symm
  obtain ⟨there, left⟩ := same.symm ▸ waits (.inr rfl)
  exact waits_exact inv there left undisturbed

/-- A task that delays itself until a period after its last time to wake is ready at that time, however late in the
period it calls: the ticks that it has lost before the call are not waited for again. -/
theorem delay_until_exact {s₁ : Scheduler τ ε} (reached : Reached (InTime boot.idle) boot s) {previous increment : TickType}
    (legal : Legal boot.idle s.tasks (.vTaskDelayUntil previous increment))
    (delays : step s (.vTaskDelayUntil previous increment) = some s₁)
    (within : s.tasks.xTickCount - previous < increment)
    (undisturbed : Lib.Guarded.Allowed step
      (fun s' c => InTime boot.idle s'.tasks c ∧ ¬s'.tasks.Touches s.tasks.pxCurrentTCB c) s₁ cs) :
    ∃ s₂, cs.foldlM step s₁ = some s₂ ∧
      ((s.tasks.xTickCount - previous).toNat + elapsed s₁ cs < increment.toNat → s₂.tasks.Waits s.tasks.pxCurrentTCB) ∧
      (increment.toNat ≤ (s.tasks.xTickCount - previous).toNat + elapsed s₁ cs →
        s₂.tasks.Ready s.tasks.pxCurrentTCB) := by
  obtain ⟨s', moved, inv, -⟩ := inv_step reached.inTime legal fun _ => trivial
  obtain rfl : s' = s₁ := Option.some.inj (moved.symm.trans delays)
  obtain ⟨tasks, call, -, waits⟩ := vTaskDelayUntil_goes reached.inTime.sound legal.1 legal.2 previous increment
  have same : s'.tasks = tasks := by
    rw [step, Tasks.call, call] at moved
    exact congrArg Scheduler.tasks (Option.some.inj moved).symm
  obtain ⟨there, left⟩ := same.symm ▸ waits within
  have rest : previous + increment - s.tasks.xTickCount = increment - (s.tasks.xTickCount - previous) := by grind
  rw [rest] at left
  obtain ⟨s₂, ran, early, late⟩ := waits_exact inv there left undisturbed
  have lost := UInt32.lt_iff_toNat_lt.mp within
  rw [UInt32.toNat_sub_of_le _ _ (UInt32.le_iff_toNat_le.mpr (Nat.le_of_lt lost))] at early late
  exact ⟨s₂, ran, fun before => (early (by omega)).1, fun after => late (by omega)⟩

theorem eq_some_getD {α : Type} {o : Option α} (isSome : o.isSome = true) (d : α) : o = some (o.getD d) := by
  cases o with
  | none => cases isSome
  | some x => rfl

/-- Of the three ticks one is made up for after a sleep, and two are pended while the scheduler is suspended. -/
theorem delay_exact_suspended : ∃ s₁ s₂ : Scheduler Nat Unit,
    [.vTaskSwitchContext, .vTaskStepTick 1, .vTaskSuspendAll, .xTaskIncrementTick, .xTaskIncrementTick,
      .xTaskResumeAll].foldlM step s₁ = some s₂ ∧ s₂.tasks.Ready 1 := by
  have reached : Reached (InTime oneTask.idle) oneTask (start oneTask : Scheduler Nat Unit) := ⟨[], trivial, rfl⟩
  obtain ⟨s₂, ran, -, late⟩ := delay_exact (n := 3) reached (by decide +kernel)
    (eq_some_getD (by decide +kernel) (start oneTask))
    (show Lib.Guarded.Allowed step _ _ [.vTaskSwitchContext, .vTaskStepTick 1, .vTaskSuspendAll, .xTaskIncrementTick,
      .xTaskIncrementTick, .xTaskResumeAll] by decide +kernel)
  exact ⟨_, s₂, ran, late (by decide +kernel)⟩

/-- One tick of a period of three is lost before the call. -/
theorem delay_until_exact_late : ∃ s₁ s₂ : Scheduler Nat Unit,
    [.vTaskSwitchContext, .xTaskIncrementTick, .xTaskIncrementTick].foldlM step s₁ = some s₂ ∧ s₂.tasks.Ready 1 := by
  have reached : Reached (InTime oneTask.idle) oneTask (([.xTaskIncrementTick].foldlM step
      (start oneTask : Scheduler Nat Unit)).getD (start oneTask)) :=
    ⟨[.xTaskIncrementTick], by decide +kernel, eq_some_getD (by decide +kernel) _⟩
  obtain ⟨s₂, ran, -, late⟩ := delay_until_exact reached (by decide +kernel)
    (eq_some_getD (show (step _ (.vTaskDelayUntil 0 3)).isSome = true by decide +kernel) (start oneTask))
    (by decide +kernel)
    (show Lib.Guarded.Allowed step _ _ [.vTaskSwitchContext, .xTaskIncrementTick, .xTaskIncrementTick] by decide +kernel)
  exact ⟨_, s₂, ran, late (by decide +kernel)⟩

end Scheduler

end Bk7251.Kernel
