import Bk7251.Kernel.TaskSound

/-!
# Waking tasks

The calls that make a task ready: its event has come, its delay is aborted, it is resumed. While the scheduler is
suspended it may be held instead. A call that asks for no context switch has woken no better task than the one
that runs.
-/
namespace Bk7251.Kernel

open ItemPtr Function

namespace Tasks

open TaskItem TaskList

variable {τ ε : Type} [DecidableEq τ] [DecidableEq ε] {s : Tasks τ ε} {e : ε} {t idle : τ} {punctual : Prop}

omit [DecidableEq ε] [DecidableEq τ] in
/-- The first task that waits for an event. -/
theorem head_waits (sound : s.Sound punctual idle) (filled : s.lists.listLIST_IS_EMPTY (event e) = false) :
    ∃ t, s.lists.listGET_OWNER_OF_HEAD_ENTRY (event e) = some (xEventListItem t) ∧
      s.container (xEventListItem t) = some (event e) ∧ BlockedIn (s.container (xStateListItem t)) := by
  obtain ⟨view, arranged⟩ := sound.arranged
  rw [Lists.isEmpty_spec arranged.holds (Set.mem_univ _)] at filled
  have head := (Lists.head_spec arranged.holds (Set.mem_univ (event e))).1
  cases items : (view (event e)).items with
  | nil => simp [items] at filled
  | cons i rest =>
    have inside : s.container i = some (event e) := arranged.contained.mp (items ▸ List.mem_cons_self)
    have fits := arranged.fits _ _ inside
    cases i with
    | xStateListItem t => cases fits
    | xEventListItem t => exact ⟨t, by rw [head, items]; rfl, inside, sound.places.waiting t _ inside⟩

/-- The first task that waits for an event is ready, or held. -/
theorem xTaskRemoveFromEventList_goes (sound : s.Sound punctual idle) (filled : s.lists.listLIST_IS_EMPTY (event e) = false) :
    ∃ t s' y, s.lists.listGET_OWNER_OF_HEAD_ENTRY (event e) = some (xEventListItem t) ∧
      s.xTaskRemoveFromEventList e = some (s', y) ∧ Goes punctual idle s s' y 0 (· = t) := by
  obtain ⟨t, head, here, blocked⟩ := head_waits sound filled
  obtain ⟨s₁, call₁, sound₁, keeps₁, same₁, places₁⟩ := remove_event_sound sound here
  have calm : s₁.container (xEventListItem t) = none := by rw [places₁, update_self]
  have state : s₁.container (xStateListItem t) = s.container (xStateListItem t) := by
    rw [places₁, update_of_ne (by simp)]
  unfold xTaskRemoveFromEventList
  simp only [head, Option.bind_some, TaskItem.pvOwner, call₁]
  by_cases running : s₁.uxSchedulerSuspended = 0
  · rw [if_pos running]
    obtain ⟨l, inside⟩ := blocked.exists_eq
    obtain ⟨s₂, call₂, sound₂, keeps₂, same₂, -⟩ := requeue_sound sound₁ (state.trans inside) calm
    rw [call₂, Option.bind_some]
    have goes : Goes punctual idle s { s₂ with
        xYieldPending := s₂.xYieldPending || decide (s₂.uxPriority t > s₂.uxPriority s₂.pxCurrentTCB) }
        (decide (s₂.uxPriority t > s₂.uxPriority s₂.pxCurrentTCB)) 0 (· = t) := by
      refine (keeps₁.trans keeps₂).goes sound sound₂ (fun yes => ?_) fun settled no quiet => ?_
      · rw [keeps₂.pending, keeps₁.pending, yes]
        rfl
      · refine ⟨settled.blocked_ne blocked, fun _ => Nat.not_lt.mp ?_⟩
        have low := of_decide_eq_false no
        rw [same₂, keeps₂.current, same₁, keeps₁.current] at low
        rw [same₂, same₁]
        exact low
    obtain ⟨s', reset, goes'⟩ := goes.reset
    exact ⟨t, s', _, rfl, congrArg (Option.map _) reset, goes'⟩
  · rw [if_neg running]
    obtain ⟨sound₂, keeps₂, stay⟩ := hold_sound sound₁ running (state ▸ blocked) calm
    rw [Option.bind_some]
    have goes : Goes punctual idle s { s₁.insertEnd xPendingReadyList (xEventListItem t) with
        xYieldPending := s₁.xYieldPending || decide (s₁.uxPriority t > s₁.uxPriority s₁.pxCurrentTCB) }
        (decide (s₁.uxPriority t > s₁.uxPriority s₁.pxCurrentTCB)) 0 (· = t) := by
      refine (keeps₁.trans keeps₂).goes sound sound₂ (fun yes => ?_) fun settled no quiet => ?_
      · rw [keeps₁.pending, yes]
        rfl
      · exact ⟨settled.blocked_ne blocked, fun ready => absurd ((stay.trans state) ▸ blocked) ready.not_blocked⟩
    obtain ⟨s', reset, goes'⟩ := goes.reset
    exact ⟨t, s', _, rfl, congrArg (Option.map _) reset, goes'⟩

/-- A task that waits for bits is ready, with the bits in its event list item. -/
theorem xTaskRemoveFromUnorderedEventList_goes (sound : s.Sound punctual idle)
    (here : s.container (xEventListItem t) = some (event e)) (v : TickType) :
    ∃ s' y, s.xTaskRemoveFromUnorderedEventList (xEventListItem t) v = some (s', y) ∧ Goes punctual idle s s' y 0 (· = t) := by
  obtain ⟨sound₁, keeps₁, -⟩ := setEventValue_sound sound t (v ||| taskEVENT_LIST_ITEM_VALUE_IN_USE)
  obtain ⟨s₂, call₂, sound₂, keeps₂, same₂, places₂⟩ := remove_event_sound sound₁ here
  have calm : s₂.container (xEventListItem t) = none := by rw [places₂, update_self]
  have state : s₂.container (xStateListItem t) = s.container (xStateListItem t) := by
    rw [places₂, update_of_ne (by simp)]
    rfl
  have blocked := sound.places.waiting t _ here
  obtain ⟨l, inside⟩ := blocked.exists_eq
  obtain ⟨s₃, call₃, sound₃, keeps₃, same₃, -⟩ := requeue_sound sound₂ (state.trans inside) calm
  obtain ⟨s₂', removed, rfl⟩ := Option.map_eq_some_iff.mp call₃
  simp only [xTaskRemoveFromUnorderedEventList, TaskItem.pvOwner, call₂, Option.bind_some, removed, Option.map_some]
  refine ⟨_, _, rfl, (keeps₁.trans (keeps₂.trans keeps₃)).goes sound sound₃ ?_ fun settled no quiet => ?_⟩
  · intro yes
    rw [keeps₃.pending, keeps₂.pending, keeps₁.pending, yes]
    rfl
  · refine ⟨settled.blocked_ne blocked, fun _ => Nat.not_lt.mp ?_⟩
    have low := of_decide_eq_false no
    rw [same₃, keeps₃.current, same₂, keeps₂.current, keeps₁.current] at low
    rw [same₃, same₂]
    exact low

theorem blocked_of_eBlocked (turns : TwoLists s.pxDelayedTaskList s.pxOverflowDelayedTaskList)
    (blocked : s.eTaskGetState t = .eBlocked) :
    t ≠ s.pxCurrentTCB ∧ BlockedIn (s.container (xStateListItem t)) := by
  unfold eTaskGetState at blocked
  split at blocked
  · cases blocked
  · rename_i other
    refine ⟨other, ?_⟩
    dsimp only at blocked
    split at blocked
    · rename_i waits
      exact ((waits_iff turns).mpr waits).elim .inl (.inr ∘ .inl)
    · split at blocked
      · rename_i suspended
        exact .inr (.inr suspended)
      · split at blocked
        · cases blocked
        · cases blocked

/-- A task whose delay is aborted is ready, and what it waited for is forgotten. -/
theorem xTaskAbortDelay_goes (sound : s.Sound punctual idle) (t : τ) :
    ∃ s', s.xTaskAbortDelay t = some s' ∧ Goes punctual idle s s' false 0 (· = t) := by
  unfold xTaskAbortDelay
  by_cases waits : s.eTaskGetState t = .eBlocked
  · rw [if_pos waits]
    obtain ⟨ne, blocked⟩ := blocked_of_eBlocked sound.turns waits
    obtain ⟨l, here⟩ := blocked.exists_eq
    obtain ⟨s', call, sound', keeps, same⟩ := unblock_sound sound here
    obtain ⟨s₁, removed, call⟩ := Option.bind_eq_some_iff.mp call
    obtain ⟨s₂, left, rfl⟩ := Option.map_eq_some_iff.mp call
    have goes : ∀ aborted, Goes punctual idle s { s₂.prvAddTaskToReadyList t with
        xYieldPending := s₂.xYieldPending || decide (s₂.uxPriority t > s₂.uxPriority s₂.pxCurrentTCB)
        ucDelayAborted := aborted } false 0 (· = t) := by
      intro aborted
      refine keeps.goes sound sound' ?_ fun settled _ quiet => ?_
      · intro yes
        have pending : s₂.xYieldPending = s.xYieldPending := keeps.pending
        rw [pending, yes]
        rfl
      · refine ⟨ne, fun _ => Nat.not_lt.mp ?_⟩
        have low := of_decide_eq_false (Bool.or_eq_false_iff.mp quiet).2
        have current : s₂.pxCurrentTCB = s.pxCurrentTCB := keeps.current
        have priority : s₂.uxPriority = s.uxPriority := same
        rw [current, priority] at low
        exact priority ▸ low
    rw [removed, Option.bind_some]
    unfold leaveEvent at left
    by_cases event : s₁.container (xEventListItem t) ≠ none
    · rw [if_pos event] at left ⊢
      rw [left, Option.map_some, Option.map_some]
      exact ⟨_, rfl, goes _⟩
    · rw [if_neg event] at left ⊢
      rw [left, Option.map_some]
      exact ⟨_, rfl, goes _⟩
  · rw [if_neg waits]
    exact ⟨s, rfl, .refl sound⟩

omit [DecidableEq τ] in
theorem of_suspended (suspended : s.prvTaskIsTaskSuspended t = true) :
    s.container (xStateListItem t) = some xSuspendedTaskList ∧ s.container (xEventListItem t) = none := by
  simp only [prvTaskIsTaskSuspended, decide_eq_true_eq] at suspended
  exact ⟨suspended.1, suspended.2.2⟩

/-- A suspended task is ready; a switch is needed unless the running task is better. -/
theorem resume_goes (sound : s.Sound punctual idle) (suspended : s.prvTaskIsTaskSuspended t = true) :
    ∃ s' y, (s.remove (xStateListItem t)).map (fun s =>
        (s.prvAddTaskToReadyList t, decide (s.uxPriority t ≥ s.uxPriority s.pxCurrentTCB))) = some (s', y) ∧
      Goes punctual idle s s' y 0 (· = t) := by
  obtain ⟨here, calm⟩ := of_suspended suspended
  obtain ⟨s', call, sound', keeps, same, -⟩ := requeue_sound sound here calm
  obtain ⟨s₁, removed, rfl⟩ := Option.map_eq_some_iff.mp call
  rw [removed, Option.map_some]
  refine ⟨_, _, rfl, keeps.goes sound sound' (fun yes => keeps.pending.trans yes) fun settled no _ => ?_⟩
  refine ⟨settled.blocked_ne (.inr (.inr here)), fun _ => Nat.le_of_not_le ?_⟩
  have low := of_decide_eq_false no
  have current : s₁.pxCurrentTCB = s.pxCurrentTCB := keeps.current
  have priority : s₁.uxPriority = s.uxPriority := same
  rw [current, priority] at low
  exact priority ▸ low

theorem vTaskResume_goes (sound : s.Sound punctual idle) (t : τ) :
    ∃ s' y, s.vTaskResume t = some (s', y) ∧ Goes punctual idle s s' y 0 (· = t) := by
  unfold vTaskResume
  by_cases suspended : t ≠ s.pxCurrentTCB ∧ s.prvTaskIsTaskSuspended t
  · rw [if_pos suspended]
    exact resume_goes sound suspended.2
  · rw [if_neg suspended]
    exact ⟨s, false, rfl, .refl sound⟩

theorem xTaskResumeFromISR_goes (sound : s.Sound punctual idle) (t : τ) :
    ∃ s' y, s.xTaskResumeFromISR t = some (s', y) ∧ Goes punctual idle s s' y 0 (· = t) := by
  unfold xTaskResumeFromISR
  by_cases suspended : s.prvTaskIsTaskSuspended t = true
  · rw [if_pos suspended]
    by_cases running : s.uxSchedulerSuspended = 0
    · rw [if_pos running]
      exact resume_goes sound suspended
    · rw [if_neg running]
      obtain ⟨here, calm⟩ := of_suspended suspended
      have blocked : BlockedIn (s.container (xStateListItem t)) := .inr (.inr here)
      obtain ⟨sound', keeps, stay⟩ := hold_sound sound running blocked calm
      refine ⟨_, _, rfl, keeps.goes sound sound' (fun yes => keeps.pending.trans yes) fun settled _ _ => ?_⟩
      exact ⟨settled.blocked_ne blocked, fun ready => absurd (stay ▸ blocked) ready.not_blocked⟩
  · rw [if_neg suspended]
    exact ⟨s, false, rfl, .refl sound⟩

end Tasks

end Bk7251.Kernel
