import Bk7251.Kernel.TaskRuns

/-!
# Time-outs

The tick count and the number of its overflows are one clock, which counts the ticks of a run and nothing else. A
caller that checks a time-out again and again, with less than a turn of the tick count between two checks, is told
that its time is over at the first check where it is.
-/
namespace Bk7251.Kernel

open ItemPtr Function Lib.Guarded

variable {τ ε : Type} [DecidableEq τ] [DecidableEq ε]

namespace Tasks

open TaskItem TaskList

/-- What the tick count and its overflows add up to. -/
def clock (s : Tasks τ ε) : Nat := s.xNumOfOverflows * 2 ^ 32 + s.xTickCount.toNat

/-- Time stands still. -/
structure Still (s s' : Tasks τ ε) : Prop where
  tick : s'.xTickCount = s.xTickCount
  overflows : s'.xNumOfOverflows = s.xNumOfOverflows
  suspended : s'.uxSchedulerSuspended = s.uxSchedulerSuspended
  pended : s'.uxPendedTicks = s.uxPendedTicks

/-- `k` ticks are counted, and none is pended. -/
structure Passes (k : Nat) (s s' : Tasks τ ε) : Prop where
  clock : s'.clock = s.clock + k
  suspended : s'.uxSchedulerSuspended = s.uxSchedulerSuspended
  pended : s'.uxPendedTicks = s.uxPendedTicks

section

variable {s₁ s₂ s₃ : Tasks τ ε} {j k : Nat}

omit [DecidableEq τ] [DecidableEq ε]

theorem Still.trans (first : Still s₁ s₂) (next : Still s₂ s₃) : Still s₁ s₃ :=
  ⟨next.tick.trans first.tick, next.overflows.trans first.overflows, next.suspended.trans first.suspended,
    next.pended.trans first.pended⟩

/-- The other fields do not matter. -/
theorem clock_of (tick : s₂.xTickCount = s₁.xTickCount) (overflows : s₂.xNumOfOverflows = s₁.xNumOfOverflows) :
    s₂.clock = s₁.clock + 0 := by
  rw [Tasks.clock, Tasks.clock, tick, overflows, Nat.add_zero]

theorem Still.passes (still : Still s₁ s₂) : Passes 0 s₁ s₂ :=
  ⟨clock_of still.tick still.overflows, still.suspended, still.pended⟩

theorem Still.clock (still : Still s₁ s₂) : s₂.clock = s₁.clock + 0 := still.passes.clock

theorem Passes.trans (first : Passes j s₁ s₂) (next : Passes k s₂ s₃) : Passes (j + k) s₁ s₃ :=
  ⟨by rw [next.clock, first.clock, Nat.add_assoc], next.suspended.trans first.suspended, next.pended.trans first.pended⟩

end

variable (s : Tasks τ ε) (t : τ)

theorem remove_still (i : TaskItem τ) : Ends (Still s) (s.remove i) :=
  Ends.any.map fun _ _ => ⟨rfl, rfl, rfl, rfl⟩

theorem ready_still : Still s (s.prvAddTaskToReadyList t) := ⟨rfl, rfl, rfl, rfl⟩

theorem insert_still (l : TaskList ε) (i : TaskItem τ) : Ends (Still s) (s.insert l i) :=
  Ends.any.map fun _ _ => ⟨rfl, rfl, rfl, rfl⟩

theorem leaveEvent_still : Ends (Still s) (s.leaveEvent t) :=
  .ite (fun _ => remove_still s _) fun _ => .some ⟨rfl, rfl, rfl, rfl⟩

omit [DecidableEq τ] [DecidableEq ε] in
theorem prvResetNextTaskUnblockTime_still : Ends (Still s) s.prvResetNextTaskUnblockTime :=
  .ite (fun _ => .some ⟨rfl, rfl, rfl, rfl⟩) fun _ => Ends.any.map fun _ _ => ⟨rfl, rfl, rfl, rfl⟩

theorem vTaskSwitchContext_still : Ends (Still s) s.vTaskSwitchContext :=
  .ite (fun _ => .some ⟨rfl, rfl, rfl, rfl⟩) fun _ => Ends.any.bind fun _ _ => Ends.any.map fun _ _ => ⟨rfl, rfl, rfl, rfl⟩

theorem unblock_still : Ends (Still s) (s.unblock t) :=
  (remove_still s _).bind fun s₁ first => (leaveEvent_still s₁ t).map fun s₂ next =>
    (first.trans next).trans (ready_still s₂ t)

theorem unblockExpired_still (fuel : Nat) (b : Bool) : Ends (Still s ·.1) (unblockExpired fuel s b) := by
  induction fuel generalizing s b with
  | zero => rintro _ ⟨⟩
  | succ fuel ih =>
    refine .ite (fun _ => .some ⟨rfl, rfl, rfl, rfl⟩) fun _ => Ends.any.bind fun i _ =>
      .ite (fun _ => .some ⟨rfl, rfl, rfl, rfl⟩) fun _ => ?_
    exact (unblock_still s _).bind fun s₁ first => (ih s₁ _).mono fun _ next => first.trans next

theorem drainPending_still (fuel : Nat) (b : Bool) : Ends (Still s ·.1) (drainPending fuel s b) := by
  induction fuel generalizing s b with
  | zero => rintro _ ⟨⟩
  | succ fuel ih =>
    refine .ite (fun _ => .some ⟨rfl, rfl, rfl, rfl⟩) fun _ => Ends.any.bind fun i _ => ?_
    refine (remove_still s _).bind fun s₁ first => (remove_still s₁ _).bind fun s₂ next => ?_
    exact (ih _ true).mono fun _ later =>
      ((first.trans next).trans (ready_still s₂ i.pvOwner)).trans ⟨later.tick, later.overflows, later.suspended, later.pended⟩

/-- One tick, also where the tick count wraps around. -/
theorem advanceTick_passes : Ends (Passes 1 s ·.1) s.advanceTick := by
  have bound := s.xTickCount.toNat_lt
  have sum := UInt32.toNat_add s.xTickCount 1
  have turn : Ends (Passes 1 s) (if s.xTickCount + 1 = 0 then
      { s with xTickCount := s.xTickCount + 1 }.taskSWITCH_DELAYED_LISTS
        else some { s with xTickCount := s.xTickCount + 1 }) := by
    refine .ite (fun zero => (prvResetNextTaskUnblockTime_still _).mono fun s₁ same => ?_) fun ne =>
      .some ⟨?_, rfl, rfl⟩
    · refine ⟨same.passes.clock.trans ?_, same.suspended, same.pended⟩
      rw [zero] at sum
      simp only [clock, zero, UInt32.toNat_zero, UInt32.toNat_one] at sum ⊢
      omega
    · have small : (s.xTickCount + 1).toNat ≠ 0 := fun zero => ne (UInt32.toNat_inj.mp zero)
      simp only [clock, UInt32.toNat_one] at sum ⊢
      omega
  refine turn.bind fun s₁ first => Ends.map (P := (Passes 1 s ·.1)) ?_ fun r same => same
  refine .ite (fun _ => ?_) fun _ => .some first
  exact (unblockExpired_still s₁ _ _).mono fun _ next => first.trans next.passes

theorem xTaskIncrementTick_passes (awake : s.uxSchedulerSuspended = 0) :
    Ends (Passes 1 s ·.1) s.xTaskIncrementTick := by
  unfold xTaskIncrementTick
  rw [if_pos awake]
  exact (advanceTick_passes s).map fun _ same => same

theorem unwindTicks_passes (n : Nat) (awake : s.uxSchedulerSuspended = 0) :
    Ends (Passes n s) (unwindTicks n s) := by
  induction n generalizing s with
  | zero => exact .some (Still.passes ⟨rfl, rfl, rfl, rfl⟩)
  | succ n ih =>
    refine (xTaskIncrementTick_passes s awake).bind fun r first => ?_
    obtain ⟨s₁, b⟩ := r
    refine (ih { s₁ with xYieldPending := s₁.xYieldPending || b } (first.suspended.trans awake)).mono fun s₂ later => ?_
    rw [Nat.add_comm]
    exact first.trans ⟨later.clock, later.suspended, later.pended⟩

theorem xTaskResumeAll_clock (suspended : s.uxSchedulerSuspended ≠ 0) :
    Ends (fun r => r.1.clock = s.clock + if s.uxSchedulerSuspended = 1 then s.uxPendedTicks.toNat else 0)
      s.xTaskResumeAll := by
  refine .ite (fun zero => ?_) fun ne => .some ?_
  · have last : s.uxSchedulerSuspended = 1 := Nat.le_antisymm (Nat.sub_eq_zero_iff_le.mp zero)
      (Nat.one_le_iff_ne_zero.mpr suspended)
    rw [if_pos last]
    refine (drainPending_still _ _ _).bind fun r first => ?_
    have reset : Ends (Still r.1) (if r.2 then r.1.prvResetNextTaskUnblockTime else some r.1) :=
      .ite (fun _ => prvResetNextTaskUnblockTime_still r.1) fun _ => .some ⟨rfl, rfl, rfl, rfl⟩
    refine reset.bind fun s₂ next => ?_
    have both := first.trans next
    refine (unwindTicks_passes s₂ _ (both.suspended.trans zero)).map fun s₃ unwound => ?_
    rw [both.pended] at unwound
    exact (both.passes.trans unwound).clock.trans (congrArg (s.clock + ·) (Nat.zero_add _))
  · rw [if_neg fun one => ne (by rw [one])]
    exact clock_of rfl rfl

theorem resetEventValue_still (p : Nat) : Still s (s.resetEventValue t p) := by
  unfold resetEventValue
  split <;> exact ⟨rfl, rfl, rfl, rfl⟩

theorem moveReady_still (p : Nat) : Ends (Still s) (s.moveReady t p) :=
  .ite (fun _ => (remove_still s _).map fun s₁ first => first.trans (ready_still s₁ t)) fun _ =>
    .some ⟨rfl, rfl, rfl, rfl⟩

theorem prvAddCurrentTaskToDelayedList_still (n : TickType) (b : Bool) :
    Ends (Still s) (s.prvAddCurrentTaskToDelayedList n b) := by
  unfold prvAddCurrentTaskToDelayedList
  have aborts : Still s { s with ucDelayAborted := update s.ucDelayAborted s.pxCurrentTCB false } :=
    ⟨rfl, rfl, rfl, rfl⟩
  refine (remove_still _ _).bind fun s₁ first => .ite (fun _ => .some ?_) fun _ => .ite (fun _ => ?_) fun _ => ?_
  · exact (aborts.trans first).trans ⟨rfl, rfl, rfl, rfl⟩
  · exact (insert_still _ _ _).mono fun _ next =>
      (aborts.trans first).trans ⟨next.tick, next.overflows, next.suspended, next.pended⟩
  · exact (insert_still _ _ _).map fun _ next =>
      (aborts.trans first).trans ⟨next.tick, next.overflows, next.suspended, next.pended⟩

theorem vTaskDelayUntil_still (previous increment : TickType) :
    Ends (Still s ·.1) (s.vTaskDelayUntil previous increment) := by
  unfold vTaskDelayUntil
  rw [delayUntil_eq]
  refine Ends.map (P := Still s) (.ite (fun _ => ?_) fun _ => .some ⟨rfl, rfl, rfl, rfl⟩) fun _ same => same
  exact prvAddCurrentTaskToDelayedList_still s _ false

/-- The clock counts the ticks of every call. -/
theorem call_clock {idle : τ} {c : TaskCall τ ε} (legal : Legal idle s c) (unwrapped : s.Unwrapped c) :
    Ends (fun r => r.1.clock = s.clock + s.ticks c) (s.call c) := by
  cases c with
  | xTaskIncrementTick =>
    by_cases awake : s.uxSchedulerSuspended = 0
    · simp only [Tasks.call, ticks, if_pos awake]
      exact (xTaskIncrementTick_passes s awake).mono fun _ same => same.clock
    · simp only [Tasks.call, ticks, if_neg awake, xTaskIncrementTick]
      exact .some (clock_of rfl rfl)
  | vTaskStepTick n =>
    refine .some ?_
    rw [clock, vTaskStepTick, UInt32.toNat_add, Nat.mod_eq_of_lt unwrapped, clock, ticks, Nat.add_assoc]
  | vTaskSwitchContext => exact (vTaskSwitchContext_still s).map fun _ same => same.clock
  | vTaskSuspendAll => exact .some (clock_of rfl rfl)
  | xTaskResumeAll => exact xTaskResumeAll_clock s legal
  | vTaskDelay n => exact (prvAddCurrentTaskToDelayedList_still s n _).map fun _ same => same.clock
  | vTaskDelayUntil previous increment =>
    exact (vTaskDelayUntil_still s previous increment).map fun _ same => same.clock
  | vTaskPlaceOnEventList e n =>
    have inserted := (insert_still s (event e) (xEventListItem s.pxCurrentTCB)).bind fun s₁ first =>
      (prvAddCurrentTaskToDelayedList_still s₁ n true).mono fun _ next => first.trans next
    exact inserted.map fun _ same => same.clock
  | vTaskPlaceOnUnorderedEventList e v n =>
    exact (prvAddCurrentTaskToDelayedList_still _ n true).map fun _ same => same.clock
  | xTaskRemoveFromEventList e =>
    refine Ends.any.bind fun i _ => (remove_still s _).bind fun s₁ first => ?_
    have moved : Ends (Still s) (if s₁.uxSchedulerSuspended = 0 then
        (s₁.remove (xStateListItem i.pvOwner)).map fun s => s.prvAddTaskToReadyList i.pvOwner
        else some (s₁.insertEnd xPendingReadyList (xEventListItem i.pvOwner))) := by
      refine .ite (fun _ => ?_) fun _ => .some (first.trans ⟨rfl, rfl, rfl, rfl⟩)
      exact (remove_still s₁ _).map fun s₂ next => (first.trans next).trans (ready_still s₂ _)
    exact moved.bind fun s₂ both => (prvResetNextTaskUnblockTime_still _).map fun _ last =>
      (both.trans ⟨last.tick, last.overflows, last.suspended, last.pended⟩).clock
  | xTaskRemoveFromUnorderedEventList e t v =>
    refine (remove_still _ _).bind fun s₁ first => (remove_still s₁ _).map fun s₂ next => ?_
    exact ((first.trans next).trans (ready_still s₂ t)).clock
  | xTaskAbortDelay t =>
    refine Ends.map (P := Still s) (.ite (fun _ => ?_) fun _ => .some ⟨rfl, rfl, rfl, rfl⟩) fun _ same =>
      same.clock
    refine (remove_still s _).bind fun s₁ first => Ends.map (P := Still s) (.ite (fun _ => ?_) fun _ => .some first)
      fun s₂ next => next.trans ⟨rfl, rfl, rfl, rfl⟩
    exact (remove_still s₁ _).map fun _ next => (first.trans next).trans ⟨rfl, rfl, rfl, rfl⟩
  | vTaskSuspend t =>
    refine (remove_still s _).bind fun s₁ first => (leaveEvent_still s₁ t).bind fun s₂ next => ?_
    exact (prvResetNextTaskUnblockTime_still _).map fun _ last =>
      ((first.trans next).trans ⟨last.tick, last.overflows, last.suspended, last.pended⟩).clock
  | vTaskResume t =>
    exact .ite (fun _ => (remove_still s _).map fun s₁ first => (first.trans (ready_still s₁ t)).clock) fun _ =>
      .some (clock_of rfl rfl)
  | xTaskResumeFromISR t =>
    exact .ite (fun _ => .ite (fun _ => (remove_still s _).map fun s₁ first => (first.trans (ready_still s₁ t)).clock)
      fun _ => .some (clock_of rfl rfl)) fun _ => .some (clock_of rfl rfl)
  | vTaskPrioritySet t p =>
    refine .ite (fun _ => (moveReady_still _ _ _).map fun _ next => ?_) fun _ => .some (clock_of rfl rfl)
    exact ((resetEventValue_still _ _ _).trans next).clock
  | vTaskPriorityInherit holder =>
    cases holder with
    | none => exact .some (clock_of rfl rfl)
    | some t =>
      refine Ends.map (P := Still s) (.ite (fun _ => (moveReady_still _ _ _).mono fun _ next => ?_) fun _ =>
        .some ⟨rfl, rfl, rfl, rfl⟩) fun _ same => same.clock
      exact (resetEventValue_still s t _).trans ⟨next.tick, next.overflows, next.suspended, next.pended⟩
  | xTaskPriorityDisinherit =>
    refine .ite (fun _ => (remove_still _ _).map fun s₁ first => ?_) fun _ => .some (clock_of rfl rfl)
    exact (first.trans ⟨rfl, rfl, rfl, rfl⟩).clock
  | pvTaskIncrementMutexHeldCount => exact .some (clock_of rfl rfl)
  | xTaskCreate t p => exact .some (clock_of rfl rfl)
  | vTaskDelete t =>
    refine (remove_still s _).bind fun s₁ first => (leaveEvent_still s₁ t).bind fun s₂ next =>
      .ite (fun _ => .some (first.trans next).clock) fun _ => ?_
    exact (prvResetNextTaskUnblockTime_still s₂).map fun _ last => ((first.trans next).trans last).clock
  | prvCheckTasksWaitingTermination =>
    exact Ends.map (P := Still s) (Ends.any.bind fun i _ => remove_still s _) fun _ same => same.clock

/-! ### Time-outs -/

omit [DecidableEq ε] in
/-- What a check says within one turn of the tick count: whether the time is over, or what is left of it. -/
theorem xTaskCheckForTimeOut_eq {s₀ s : Tasks τ ε} {k : Nat} (later : s.clock = s₀.clock + k) (turn : k < 2 ^ 32)
    {n : TickType} (finite : n ≠ portMAX_DELAY) (waiting : s.ucDelayAborted s.pxCurrentTCB = false) :
    s.xTaskCheckForTimeOut s₀.vTaskSetTimeOutState n =
      if k < n.toNat then (s, s.vTaskSetTimeOutState, n - UInt32.ofNat k, false)
      else (s, s₀.vTaskSetTimeOutState, n, true) := by
  have bound := s.xTickCount.toNat_lt
  have bound₀ := s₀.xTickCount.toNat_lt
  have left : (s.xTickCount - s₀.xTickCount).toNat = k := by
    simp only [clock, UInt32.toNat_sub] at later ⊢
    omega
  have round : ¬(s.xNumOfOverflows ≠ s₀.xNumOfOverflows ∧ s.xTickCount ≥ s₀.xTickCount) := by
    simp only [clock, ge_iff_le, UInt32.le_iff_toNat_le] at later ⊢
    omega
  have gone : s.xTickCount - s₀.xTickCount = UInt32.ofNat k := by rw [← left, UInt32.ofNat_toNat]
  simp only [xTaskCheckForTimeOut, waiting, Bool.false_eq_true, if_false, if_neg finite, if_neg round,
    vTaskSetTimeOutState, gone, UInt32.lt_iff_toNat_lt, UInt32.toNat_ofNat_of_lt' turn]

end Tasks

namespace Scheduler

open Tasks

variable {s s' : Scheduler τ ε} {idle : τ} {cs : List (TaskCall τ ε)}

/-- The clock counts the ticks of a run. -/
theorem run_clock (allowed : Allowed step (fun s c => Legal idle s.tasks c ∧ s.tasks.Unwrapped c) s cs) (ran : cs.foldlM step s = some s') :
    s'.tasks.clock = s.tasks.clock + elapsed s cs := by
  induction cs generalizing s with
  | nil =>
    cases ran
    exact (Nat.add_zero _).symm
  | cons c cs ih =>
    rw [List.foldlM_cons] at ran
    obtain ⟨s₁, moved, ran⟩ := Option.bind_eq_some_iff.mp ran
    obtain ⟨r, call, rfl⟩ := Option.map_eq_some_iff.mp moved
    rw [ih (allowed.2 _ moved) ran, elapsed, moved, Option.map_some, Option.getD_some, ← Nat.add_assoc]
    exact congrArg (· + _) (call_clock s.tasks allowed.1.1 allowed.1.2 r call)

end Scheduler

/-- A caller of the scheduler that waits for something no longer than a time. -/
structure Waiter (τ ε : Type) where
  scheduler : Scheduler τ ε
  pxTimeOut : TimeOut
  pxTicksToWait : TickType
  timedOut : Bool

namespace Waiter

open Tasks Scheduler

/-- From now on. -/
def set (s : Scheduler τ ε) (xTicksToWait : TickType) : Waiter τ ε :=
  ⟨s, s.tasks.vTaskSetTimeOutState, xTicksToWait, false⟩

/-- Whatever happens until the next check, and the check. -/
def round (w : Waiter τ ε) (cs : List (TaskCall τ ε)) : Option (Waiter τ ε) :=
  (cs.foldlM step w.scheduler).map fun s =>
    let check := s.tasks.xTaskCheckForTimeOut w.pxTimeOut w.pxTicksToWait
    ⟨⟨check.1, s.requested⟩, check.2.1, check.2.2.1, check.2.2.2⟩

/-- Less than a turn of the tick count goes by, and the delay is not aborted. -/
def Fair (idle : τ) (w : Waiter τ ε) (cs : List (TaskCall τ ε)) : Prop :=
  w.timedOut = false ∧ Allowed step (fun s c => Legal idle s.tasks c ∧ s.tasks.Unwrapped c) w.scheduler cs ∧
    elapsed w.scheduler cs < 2 ^ 32 ∧
      ∀ s ∈ cs.foldlM step w.scheduler, s.tasks.ucDelayAborted s.tasks.pxCurrentTCB = false

instance (idle : τ) (w : Waiter τ ε) (cs : List (TaskCall τ ε)) : Decidable (Fair idle w cs) := by
  unfold Fair
  infer_instance

/-- The ticks that the rounds count. -/
def waited (w : Waiter τ ε) : List (List (TaskCall τ ε)) → Nat
  | [] => 0
  | cs :: css => elapsed w.scheduler cs + ((round w cs).map fun w => waited w css).getD 0

variable {s : Scheduler τ ε} {idle : τ} {n : TickType} {cs : List (TaskCall τ ε)} {css : List (List (TaskCall τ ε))}

/-- The step lemma: the time is over, or what is left of it is waited for from now on. -/
theorem round_set (inv : Inv False idle s) (finite : n ≠ portMAX_DELAY) (fair : Fair idle (set s n) cs) :
    ∃ w, round (set s n) cs = some w ∧
      (n.toNat ≤ elapsed s cs ∧ w.timedOut = true ∨
        ∃ s', Inv False idle s' ∧ elapsed s cs < n.toNat ∧ w = set s' (n - UInt32.ofNat (elapsed s cs))) := by
  obtain ⟨-, allowed, turn, waiting⟩ := fair
  obtain ⟨s', ran, inv'⟩ := inv.run (allowed.mono fun _ _ ok => ok.1)
  have check : s'.tasks.xTaskCheckForTimeOut s.tasks.vTaskSetTimeOutState n =
      if elapsed s cs < n.toNat then
        (s'.tasks, s'.tasks.vTaskSetTimeOutState, n - UInt32.ofNat (elapsed s cs), false)
      else (s'.tasks, s.tasks.vTaskSetTimeOutState, n, true) :=
    xTaskCheckForTimeOut_eq (run_clock allowed ran) turn finite (waiting s' ran)
  by_cases early : elapsed s cs < n.toNat
  · rw [if_pos early] at check
    refine ⟨set s' (n - UInt32.ofNat (elapsed s cs)), (congrArg (Option.map _) ran).trans ?_,
      .inr ⟨s', inv', early, rfl⟩⟩
    simp only [Option.map_some, set, check]
  · rw [if_neg early] at check
    refine ⟨⟨s', s.tasks.vTaskSetTimeOutState, n, true⟩, (congrArg (Option.map _) ran).trans ?_,
      .inl ⟨Nat.not_lt.mp early, rfl⟩⟩
    simp only [Option.map_some, set, check]

/-- However often the time-out is checked, the ticks between the checks add up: the time is over at a check just when
all of it has gone by, also where the tick count wraps around meanwhile. -/
theorem time_out_exact {boot : Boot τ} (reached : Reached (Legal boot.idle) boot s) (positive : n ≠ 0)
    (finite : n ≠ portMAX_DELAY) (allowed : Allowed round (Fair boot.idle) (set s n) css) :
    ∃ w, css.foldlM round (set s n) = some w ∧ (w.timedOut = true ↔ n.toNat ≤ waited (set s n) css) := by
  have inv := reached.inv
  clear reached
  induction css generalizing s n with
  | nil =>
    refine ⟨_, rfl, iff_of_false (by simp [set]) fun none => positive ?_⟩
    exact UInt32.toNat_inj.mp (Nat.le_zero.mp none)
  | cons cs css ih =>
    obtain ⟨fair, rest⟩ := allowed
    obtain ⟨w, ended, ⟨late, out⟩ | ⟨s', inv', early, rfl⟩⟩ := round_set inv finite fair
    · have none : css = [] := by
        cases css with
        | nil => rfl
        | cons cs css => exact absurd ((rest w ended).1.1.symm.trans out) (by simp)
      subst none
      refine ⟨w, ?_, iff_of_true out (late.trans (Nat.le_add_right _ _))⟩
      rw [List.foldlM_cons, ended]
      rfl
    · have left : (n - UInt32.ofNat (elapsed s cs)).toNat = n.toNat - elapsed s cs := by
        have bound := n.toNat_lt
        have small : (UInt32.ofNat (elapsed s cs)).toNat = elapsed s cs := UInt32.toNat_ofNat_of_lt' (early.trans bound)
        rw [UInt32.toNat_sub_of_le _ _ (UInt32.le_iff_toNat_le.mpr (by omega)), small]
      have positive' : n - UInt32.ofNat (elapsed s cs) ≠ 0 := by
        intro zero
        rw [zero, UInt32.toNat_zero] at left
        omega
      have finite' : n - UInt32.ofNat (elapsed s cs) ≠ portMAX_DELAY := by
        intro most
        rw [most] at left
        have top : portMAX_DELAY.toNat = 2 ^ 32 - 1 := rfl
        have bound := n.toNat_lt
        exact finite (UInt32.toNat_inj.mp (by omega))
      obtain ⟨w, ran, answer⟩ := ih positive' finite' (rest _ ended) inv'
      refine ⟨w, ?_, answer.trans ?_⟩
      · rw [List.foldlM_cons, ended]
        exact ran
      · rw [waited, ended, Option.map_some, Option.getD_some, left]
        exact Nat.sub_le_iff_le_add'

/-- A time of three ticks, checked after two of them and again after the third. -/
theorem time_out_exact_twice : ∃ w : Waiter Nat Unit,
    [[.xTaskIncrementTick, .xTaskIncrementTick], [.vTaskStepTick 1]].foldlM round (set (Scheduler.start oneTask) 3) =
      some w ∧ w.timedOut = true := by
  have allowed : Allowed round (Fair oneTask.idle) (set (Scheduler.start oneTask : Scheduler Nat Unit) 3)
      [[.xTaskIncrementTick, .xTaskIncrementTick], [.vTaskStepTick 1]] := by decide +kernel
  obtain ⟨w, ran, answer⟩ := time_out_exact ⟨[], trivial, rfl⟩ (by decide) (by decide) allowed
  exact ⟨w, ran, answer.mpr (by decide +kernel)⟩

end Waiter

end Bk7251.Kernel
