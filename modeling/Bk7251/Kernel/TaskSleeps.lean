import Bk7251.Kernel.TaskSound

/-!
# Tasks that stop

The calls after which a task is not ready: it waits for time or for an event, it is suspended, it is deleted.
-/
namespace Bk7251.Kernel

open ItemPtr Function

namespace Tasks

open TaskItem TaskList

variable {τ ε : Type} [DecidableEq τ] [DecidableEq ε] {s : Tasks τ ε} {e : ε} {l : TaskList ε} {t idle : τ} {punctual : Prop}
  {n v : TickType} {forever : Bool}

/-! ### Waiting -/

/-- The running task goes to sleep, after its event list item has perhaps gone into an event list. -/
theorem sleep_goes {lists : Lists (TaskItem τ) (TaskList ε)} {view : TaskList ε → Order (TaskItem τ)}
    (sound : s.Sound punctual idle) (running : s.Running) (positive : n ≠ 0)
    (arranged : Arranged lists s.uxPriority s.uxTopReadyPriority view)
    (states : ∀ u, lists.pvContainer (xStateListItem u) = s.container (xStateListItem u))
    (values : ∀ u, lists.listGET_LIST_ITEM_VALUE (xStateListItem u) = s.itemValue (xStateListItem u))
    (places : ∀ l, BlockedIn (some l) → Places idle s.uxPriority s.uxSchedulerSuspended
      (update lists.pvContainer (xStateListItem s.pxCurrentTCB) (some l))) :
    ∃ s', { s with lists := lists }.prvAddCurrentTaskToDelayedList n forever = some s' ∧
      Goes punctual idle s s' true 0 (· = s.pxCurrentTCB) ∧
      (n ≠ portMAX_DELAY ∨ forever = false → s'.Waits s.pxCurrentTCB ∧ s'.ticksLeft s.pxCurrentTCB = n) := by
  have onTime (punct : punctual) : OnTime { s with lists := lists } :=
    ((sound.onTime punct).mono fun u _ _ inside => (states u).symm.trans inside).values values
  obtain ⟨lists', next, view', l, call, arranged', sleeps, indefinitely, timely⟩ :=
    prvAddCurrentTaskToDelayedList_spec (s := { s with lists := lists }) forever arranged sound.turns
      ((states _).trans running) positive
  have container : lists'.pvContainer = update lists.pvContainer (xStateListItem s.pxCurrentTCB) (some l) :=
    sleeps.places
  refine ⟨_, call, ⟨⟨⟨view', arranged'⟩, sound.turns, fun punct => timely (onTime punct), ?_, sound.pended, sound.base⟩,
    id, fun _ no => absurd no (by simp), fun punct u ne => ?_⟩, fun limited => ?_⟩
  · change Places _ _ _ lists'.pvContainer
    rw [container]
    exact places l sleeps.blocked
  · have keeps : Keeps s { s with
        lists := lists', xNextTaskUnblockTime := next
        ucDelayAborted := update s.ucDelayAborted s.pxCurrentTCB false } s.pxCurrentTCB := by
      refine ⟨rfl, rfl, rfl, rfl, rfl, fun _ _ => rfl, fun w other => ⟨?_, ?_⟩⟩
      · change lists'.pvContainer _ = _
        rw [container, update_of_ne (by simpa using other), states]
      · exact (sleeps.values _ (by simpa using other)).trans (values w)
    exact keeps.stays (sound.onTime punct) ne
  · rcases sleeps.forever with rfl | ⟨delayed, value⟩
    · obtain ⟨most, yes⟩ := indefinitely rfl
      rcases limited with less | no
      · exact absurd most less
      · exact absurd (yes.symm.trans no) (by simp)
    · have here : lists'.pvContainer (xStateListItem s.pxCurrentTCB) = some l := by rw [container, update_self]
      refine ⟨?_, ?_⟩
      · rcases delayed with rfl | rfl
        · exact .inl here
        · exact .inr here
      · refine (congrArg (· - s.xTickCount) value).trans ?_
        grind

/-- The running task waits for time. -/
theorem prvAddCurrentTaskToDelayedList_goes (sound : s.Sound punctual idle) (running : s.Running) (ne : s.pxCurrentTCB ≠ idle)
    (positive : n ≠ 0) (forever : Bool) :
    ∃ s', s.prvAddCurrentTaskToDelayedList n forever = some s' ∧ Goes punctual idle s s' true 0 (· = s.pxCurrentTCB) ∧
      (n ≠ portMAX_DELAY ∨ forever = false → s'.Waits s.pxCurrentTCB ∧ s'.ticksLeft s.pxCurrentTCB = n) := by
  obtain ⟨view, arranged⟩ := sound.arranged
  exact sleep_goes sound running positive arranged (fun _ => rfl) (fun _ => rfl)
    fun l blocked => sound.places.move ne (.inr blocked)

omit [DecidableEq ε] [DecidableEq τ] in
/-- The running task waits for no event. -/
theorem Running.calm (running : s.Running) (sound : s.Sound punctual idle) :
    s.container (xEventListItem s.pxCurrentTCB) = none := by
  by_contra waits
  obtain ⟨l, inside⟩ := Option.ne_none_iff_exists'.mp waits
  exact Ready.not_blocked running (sound.places.waiting _ l inside)

/-- The running task waits for time and for an event. -/
theorem enter_goes {lists : Lists (TaskItem τ) (TaskList ε)} {view : TaskList ε → Order (TaskItem τ)}
    (forever : Bool) (sound : s.Sound punctual idle) (running : s.Running) (ne : s.pxCurrentTCB ≠ idle) (positive : n ≠ 0)
    (arranged : Arranged lists s.uxPriority s.uxTopReadyPriority view)
    (values : ∀ u, lists.listGET_LIST_ITEM_VALUE (xStateListItem u) = s.itemValue (xStateListItem u))
    (container : lists.pvContainer =
      update s.lists.pvContainer (xEventListItem s.pxCurrentTCB) (some (event e))) :
    ∃ s', { s with lists := lists }.prvAddCurrentTaskToDelayedList n forever = some s' ∧
      Goes punctual idle s s' true 0 (· = s.pxCurrentTCB) ∧
      (n ≠ portMAX_DELAY ∨ forever = false → s'.Waits s.pxCurrentTCB ∧ s'.ticksLeft s.pxCurrentTCB = n) := by
  refine sleep_goes sound running positive arranged (fun u => ?_) values fun l blocked => ?_
  · rw [container, update_of_ne (by simp)]
    rfl
  · rw [container, update_comm (by simp)]
    refine (sound.places.move ne (.inr blocked)).enter ?_ (by simp)
    rw [update_self]
    exact blocked

theorem vTaskPlaceOnEventList_goes (sound : s.Sound punctual idle) (running : s.Running) (ne : s.pxCurrentTCB ≠ idle)
    (positive : n ≠ 0) :
    ∃ s', s.vTaskPlaceOnEventList e n = some s' ∧ Goes punctual idle s s' true 0 (· = s.pxCurrentTCB) ∧
      (n ≠ portMAX_DELAY → s'.Waits s.pxCurrentTCB ∧ s'.ticksLeft s.pxCurrentTCB = n) := by
  obtain ⟨view, arranged⟩ := sound.arranged
  obtain ⟨lists, call, arranged', moved⟩ :=
    arranged.insert (l := event e) (running.calm sound) trivial (by simp)
  obtain ⟨s', added, goes, waits⟩ := enter_goes true sound running ne positive arranged'
    (fun u => congrFun moved.value _) moved.pvContainer
  refine ⟨s', ?_, goes, fun limited => waits (.inl limited)⟩
  simp only [vTaskPlaceOnEventList, insert, call, Option.map_some, Option.bind_some, added]

theorem vTaskPlaceOnUnorderedEventList_goes (sound : s.Sound punctual idle) (running : s.Running) (ne : s.pxCurrentTCB ≠ idle)
    (positive : n ≠ 0) :
    ∃ s', s.vTaskPlaceOnUnorderedEventList e v n = some s' ∧ Goes punctual idle s s' true 0 (· = s.pxCurrentTCB) ∧
      (n ≠ portMAX_DELAY → s'.Waits s.pxCurrentTCB ∧ s'.ticksLeft s.pxCurrentTCB = n) := by
  obtain ⟨sound₁, -, states⟩ := setEventValue_sound sound s.pxCurrentTCB (v ||| taskEVENT_LIST_ITEM_VALUE_IN_USE)
  obtain ⟨view, arranged⟩ := sound₁.arranged
  obtain ⟨arranged', moved⟩ :=
    arranged.insertEnd (l := event e) (running.calm sound) trivial (by simp) (by simp [Delayed])
  obtain ⟨s', added, goes, waits⟩ := enter_goes true sound running ne positive arranged'
    (fun u => (congrFun moved.value _).trans (states u)) moved.pvContainer
  exact ⟨s', added, goes, fun limited => waits (.inl limited)⟩

/-! ### Leaving -/

/-- The task is in no list. -/
structure Out (punctual : Prop) (s s' : Tasks τ ε) (idle t : τ) : Prop where
  sound : s'.Sound punctual idle
  keeps : Keeps s s' t
  priority : s'.uxPriority = s.uxPriority
  state : s'.container (xStateListItem t) = none
  event : s'.container (xEventListItem t) = none

theorem takeOut_sound (sound : s.Sound punctual idle) (ne : t ≠ idle) (here : s.container (xStateListItem t) = some l) :
    ∃ s₁ s', s.remove (xStateListItem t) = some s₁ ∧ s₁.leaveEvent t = some s' ∧ Out punctual s s' idle t := by
  obtain ⟨view, arranged⟩ := sound.arranged
  obtain ⟨lists₁, call₁, arranged₁, moved₁⟩ := remove_spec arranged here
  obtain ⟨lists, view', call, arranged', moved, -⟩ :=
    leaveEvent_spec (s := { s with lists := lists₁ }) (t := t) arranged₁
  have container : lists.pvContainer =
      update (update s.lists.pvContainer (xEventListItem t) none) (xStateListItem t) none := by
    rw [moved.pvContainer]
    dsimp only
    rw [moved₁.pvContainer, update_comm (by simp)]
  have values : lists.listGET_LIST_ITEM_VALUE = s.itemValue := by
    funext i
    exact congrFun (moved.value.trans moved₁.value) _
  refine ⟨_, _, call₁, call, ⟨⟨⟨view', arranged'⟩, sound.turns, fun punct => ?_, ?_, sound.pended, sound.base⟩,
    ⟨rfl, rfl, rfl, rfl, rfl, fun _ _ => rfl, fun u other => ⟨?_, congrFun values _⟩⟩, rfl, ?_, ?_⟩⟩
  · change Timely lists.pvContainer lists.listGET_LIST_ITEM_VALUE _ _ _ _
    rw [container, values]
    refine (sound.onTime punct).mono fun u k delayed inside => ?_
    have before := fewer_update (by simp) u k delayed inside
    rwa [update_of_ne (by simp)] at before
  · change Places _ _ _ lists.pvContainer
    rw [container]
    exact (sound.places.leave t).move ne (.inl (update_self ..))
  · change lists.pvContainer _ = _
    rw [container, update_of_ne (by simpa using other), update_of_ne (by simp)]
    rfl
  · change lists.pvContainer _ = _
    rw [container, update_self]
  · change lists.pvContainer _ = _
    rw [container, update_of_ne (by simp), update_self]

/-- A task in no list goes to the end of a list of tasks that do not run. -/
theorem park_sound (sound : s.Sound punctual idle) (ne : t ≠ idle) (state : s.container (xStateListItem t) = none)
    (event : s.container (xEventListItem t) = none) (parks : l = xSuspendedTaskList ∨ l = xTasksWaitingTermination) :
    (s.insertEnd l (xStateListItem t)).Sound punctual idle ∧ Keeps s (s.insertEnd l (xStateListItem t)) t ∧
      (s.insertEnd l (xStateListItem t)).container (xStateListItem t) = some l := by
  obtain ⟨view, arranged⟩ := sound.arranged
  have fits : Fits s.uxPriority l (xStateListItem t) := by
    rcases parks with rfl | rfl <;> trivial
  have notReady : ∀ p, l = pxReadyTasksLists p → p ≤ s.uxTopReadyPriority := by
    rcases parks with rfl | rfl <;> simp
  have notDelayed : ¬Delayed l := by
    rcases parks with rfl | rfl <;> simp [Delayed]
  obtain ⟨arranged', moved⟩ := arranged.insertEnd state fits notReady notDelayed
  have values : (s.lists.vListInsertEnd l (xStateListItem t)).listGET_LIST_ITEM_VALUE = s.itemValue := by
    funext i
    exact congrFun moved.value _
  refine ⟨⟨⟨_, arranged'⟩, sound.turns, fun punct => ?_, ?_, sound.pended, sound.base⟩,
    ⟨rfl, rfl, rfl, rfl, rfl, fun _ _ => rfl, fun u other => ⟨?_, congrFun values _⟩⟩, ?_⟩
  · change Timely (s.lists.vListInsertEnd l (xStateListItem t)).pvContainer
      (s.lists.vListInsertEnd l (xStateListItem t)).listGET_LIST_ITEM_VALUE _ _ _ _
    rw [moved.pvContainer, values]
    exact (sound.onTime punct).mono (fewer_update (not_delayed notDelayed))
  · change Places _ _ _ (s.lists.vListInsertEnd l (xStateListItem t)).pvContainer
    rw [moved.pvContainer]
    exact sound.places.move ne (.inl event)
  · change (s.lists.vListInsertEnd l (xStateListItem t)).pvContainer _ = _
    rw [moved.pvContainer, update_of_ne (by simpa using other)]
    rfl
  · change (s.lists.vListInsertEnd l (xStateListItem t)).pvContainer _ = _
    rw [moved.pvContainer, update_self]

theorem vTaskSuspend_goes (sound : s.Sound punctual idle) (ne : t ≠ idle) (here : s.container (xStateListItem t) = some l) :
    ∃ s' y, s.vTaskSuspend t = some (s', y) ∧ Goes punctual idle s s' y 0 (· = t) := by
  obtain ⟨s₁, s₂, removed, left, out⟩ := takeOut_sound sound ne here
  obtain ⟨sound₃, keeps₃, state⟩ := park_sound out.sound ne out.state out.event (.inl rfl)
  obtain ⟨next, reset, sound'⟩ := prvResetNextTaskUnblockTime_sound sound₃
  simp only [vTaskSuspend, removed, left, reset, Option.bind_some, Option.map_some]
  have keeps := out.keeps.trans keeps₃
  have keeps' : Keeps s { s₂.insertEnd xSuspendedTaskList (xStateListItem t) with xNextTaskUnblockTime := next } t :=
    ⟨keeps.tick, keeps.pended, keeps.suspended, keeps.current, keeps.pending, keeps.priority, keeps.others⟩
  refine ⟨_, _, rfl, keeps'.goes sound sound' (fun yes => keeps.pending.trans yes) fun settled no _ => ⟨?_, ?_⟩⟩
  · have other := of_decide_eq_false no
    rwa [keeps'.current] at other
  · intro ready
    exact absurd (.inr (.inr state)) ready.not_blocked

theorem vTaskDelete_goes (sound : s.Sound punctual idle) (ne : t ≠ idle) (here : s.container (xStateListItem t) = some l) :
    ∃ s' y, s.vTaskDelete t = some (s', y) ∧ Goes punctual idle s s' y 0 (· = t) := by
  obtain ⟨s₁, s₂, removed, left, out⟩ := takeOut_sound sound ne here
  simp only [vTaskDelete, removed, left, Option.bind_some]
  have current := out.keeps.current
  by_cases self : t = s₂.pxCurrentTCB
  · rw [if_pos self]
    obtain ⟨sound₃, keeps₃, -⟩ := park_sound out.sound ne out.state out.event (.inr rfl)
    have keeps := out.keeps.trans keeps₃
    exact ⟨_, _, rfl, keeps.goes sound sound₃ (fun yes => keeps.pending.trans yes) fun _ no => absurd no (by simp)⟩
  · rw [if_neg self]
    obtain ⟨next, reset, sound'⟩ := prvResetNextTaskUnblockTime_sound out.sound
    rw [reset, Option.map_some]
    have keeps := out.keeps
    have keeps' : Keeps s { s₂ with xNextTaskUnblockTime := next } t :=
      ⟨keeps.tick, keeps.pended, keeps.suspended, keeps.current, keeps.pending, keeps.priority, keeps.others⟩
    refine ⟨_, _, rfl, keeps'.goes sound sound' (fun yes => keeps.pending.trans yes) fun _ _ _ => ⟨?_, ?_⟩⟩
    · rwa [current] at self
    · intro ready
      exact absurd (out.state.symm.trans ready) (by simp)

/-- The idle task frees a task that has deleted itself. -/
theorem cleanUpTask_goes (sound : s.Sound punctual idle)
    (filled : s.lists.listLIST_IS_EMPTY (xTasksWaitingTermination : TaskList ε) = false) :
    ∃ t s', s.lists.listGET_OWNER_OF_HEAD_ENTRY xTasksWaitingTermination = some (xStateListItem t) ∧
      s.cleanUpTask = some s' ∧ Goes punctual idle s s' false 0 (· = t) := by
  obtain ⟨view, arranged⟩ := sound.arranged
  rw [Lists.isEmpty_spec arranged.holds (Set.mem_univ _)] at filled
  have head := (Lists.head_spec arranged.holds (Set.mem_univ (xTasksWaitingTermination : TaskList ε))).1
  obtain ⟨t, first, here⟩ : ∃ t, s.lists.listGET_OWNER_OF_HEAD_ENTRY xTasksWaitingTermination =
      some (xStateListItem t) ∧ s.container (xStateListItem t) = some xTasksWaitingTermination := by
    cases items : (view xTasksWaitingTermination).items with
    | nil => simp [items] at filled
    | cons i rest =>
      have inside : s.container i = some xTasksWaitingTermination := arranged.contained.mp (items ▸ List.mem_cons_self)
      have fits := arranged.fits _ _ inside
      cases i with
      | xStateListItem t => exact ⟨t, by rw [head, items]; rfl, inside⟩
      | xEventListItem t => cases fits
  have calm : s.container (xEventListItem t) = none := by
    by_contra waits
    obtain ⟨l, inside⟩ := Option.ne_none_iff_exists'.mp waits
    have blocked := sound.places.waiting t l inside
    rw [here] at blocked
    simp [BlockedIn] at blocked
  have ne : t ≠ idle := by
    rintro rfl
    exact absurd (here.symm.trans sound.places.idle) (by simp)
  obtain ⟨s₁, s₂, removed, left, out⟩ := takeOut_sound sound ne here
  obtain ⟨lists, call, -, moved⟩ := remove_spec arranged here
  obtain rfl : s₁ = { s with lists := lists } := Option.some.inj (removed.symm.trans call)
  have still : lists.pvContainer (xEventListItem t) = none := by
    rw [moved.pvContainer, update_of_ne (by simp)]
    exact calm
  obtain rfl : { s with lists := lists } = s₂ := Option.some.inj ((if_neg (not_not.mpr still)).symm.trans left)
  refine ⟨t, { s with lists := lists }, first, ?_,
    out.keeps.goes sound out.sound (fun yes => yes) fun settled _ _ => ⟨?_, ?_⟩⟩
  · simp only [cleanUpTask, first, Option.bind_some, TaskItem.pvOwner, call]
  · rintro rfl
    exact absurd (here.symm.trans settled.running) (by simp)
  · intro ready
    exact absurd (out.state.symm.trans ready) (by simp)

end Tasks

end Bk7251.Kernel
