import Bk7251.Kernel.TaskCalls

/-!
# The state between the calls

What holds between two calls of the scheduler, and what a call that takes no time makes of it: it gets a
result, it keeps what holds, and all but the task that it is about stay where they are.
-/
namespace Bk7251.Kernel

open ItemPtr Function

namespace Tasks

open TaskItem TaskList

variable {τ ε : Type} [DecidableEq τ] [DecidableEq ε] {s s' s'' : Tasks τ ε} {view : TaskList ε → Order (TaskItem τ)}
  {l : TaskList ε} {t idle : τ} {punctual : Prop} {y : Bool} {punctual : Prop}

/-- Between the calls: every item is where it belongs, and what is put off while the scheduler is suspended is
put off only then. Where the tick count is not stepped over the time of a task, every waiting task is in the list
of its turn. -/
structure Sound (punctual : Prop) (idle : τ) (s : Tasks τ ε) : Prop where
  arranged : ∃ view, Arranged s.lists s.uxPriority s.uxTopReadyPriority view
  turns : TwoLists s.pxDelayedTaskList s.pxOverflowDelayedTaskList
  onTime : punctual → s.OnTime
  places : Places idle s.uxPriority s.uxSchedulerSuspended s.container
  pended : s.uxSchedulerSuspended = 0 → s.uxPendedTicks = 0
  base : ∀ t, s.uxBasePriority t < configMAX_PRIORITIES

/-- The task is in the ready list of its priority. -/
def Ready (s : Tasks τ ε) (t : τ) : Prop := s.container (xStateListItem t) = some (pxReadyTasksLists (s.uxPriority t))

/-- No task that is ready has a higher priority than the one that runs. -/
structure Settled (s : Tasks τ ε) : Prop where
  running : s.Running
  highest : ∀ t, s.Ready t → s.uxPriority t ≤ s.uxPriority s.pxCurrentTCB

/-- After `k` ticks: the task still waits, for `k` ticks less, or it is ready as its time has come; a ready
task is still ready. -/
structure Stays (k : Nat) (s s' : Tasks τ ε) (t : τ) : Prop where
  waits : s.Waits t → k < (s.ticksLeft t).toNat →
    s'.Waits t ∧ (s'.ticksLeft t).toNat = (s.ticksLeft t).toNat - k
  expires : s.Waits t → (s.ticksLeft t).toNat ≤ k → s'.Ready t
  ready : s.Ready t → s'.Ready t

/-- A call with the answer `y` to whether a context switch is needed. -/
structure Goes (punctual : Prop) (idle : τ) (s s' : Tasks τ ε) (y : Bool) (k : Nat) (touched : τ → Prop) : Prop where
  sound : s'.Sound punctual idle
  pending : s.xYieldPending = true → s'.xYieldPending = true
  settled : s.Settled → y = false → s'.xYieldPending = false → s'.Settled
  stays : punctual → ∀ t, ¬touched t → Stays k s s' t

/-- Time stands still, and all but one task stay where they are. -/
structure Keeps (s s' : Tasks τ ε) (t : τ) : Prop where
  tick : s'.xTickCount = s.xTickCount
  pended : s'.uxPendedTicks = s.uxPendedTicks
  suspended : s'.uxSchedulerSuspended = s.uxSchedulerSuspended
  current : s'.pxCurrentTCB = s.pxCurrentTCB
  pending : s'.xYieldPending = s.xYieldPending
  priority : ∀ u, u ≠ t → s'.uxPriority u = s.uxPriority u
  others : ∀ u, u ≠ t → s'.container (xStateListItem u) = s.container (xStateListItem u) ∧
    s'.itemValue (xStateListItem u) = s.itemValue (xStateListItem u)

omit [DecidableEq ε] [DecidableEq τ] in
theorem Keeps.refl (s : Tasks τ ε) (t : τ) : Keeps s s t :=
  ⟨rfl, rfl, rfl, rfl, rfl, fun _ _ => rfl, fun _ _ => ⟨rfl, rfl⟩⟩

omit [DecidableEq ε] [DecidableEq τ] in
theorem Keeps.trans (first : Keeps s s' t) (second : Keeps s' s'' t) : Keeps s s'' t where
  tick := second.tick.trans first.tick
  pended := second.pended.trans first.pended
  suspended := second.suspended.trans first.suspended
  current := second.current.trans first.current
  pending := second.pending.trans first.pending
  priority u ne := (second.priority u ne).trans (first.priority u ne)
  others u ne := ⟨(second.others u ne).1.trans (first.others u ne).1, (second.others u ne).2.trans (first.others u ne).2⟩

omit [DecidableEq ε] [DecidableEq τ] in
theorem Keeps.stays (keeps : Keeps s s' t) (onTime : s.OnTime) {u : τ} (ne : u ≠ t) : Stays 0 s s' u := by
  obtain ⟨place, value⟩ := keeps.others u ne
  constructor
  case waits =>
    intro waits _
    refine ⟨?_, ?_⟩
    · rwa [Waits, place]
    · rw [ticksLeft, value, keeps.tick]
      rfl
  case expires =>
    intro waits late
    have left := UInt32.lt_iff_toNat_lt.mp (onTime.ticksLeft_pos waits)
    exact absurd late (Nat.not_le.mpr left)
  case ready =>
    intro ready
    rw [Ready, place, keeps.priority u ne]
    exact ready

omit [DecidableEq ε] [DecidableEq τ] in
/-- The running task still runs, and the task that is ready now is no better. -/
theorem Keeps.settled (keeps : Keeps s s' t) (settled : s.Settled) (ne : t ≠ s.pxCurrentTCB)
    (own : s'.Ready t → s'.uxPriority t ≤ s.uxPriority s.pxCurrentTCB) : s'.Settled := by
  have same := keeps.priority _ ne.symm
  constructor
  case running =>
    rw [Running, keeps.current, (keeps.others _ ne.symm).1, same]
    exact settled.running
  case highest =>
    intro u ready
    rw [keeps.current, same]
    by_cases eq : u = t
    · exact eq ▸ own (eq ▸ ready)
    · rw [Ready, (keeps.others u eq).1, keeps.priority u eq] at ready
      rw [keeps.priority u eq]
      exact settled.highest u ready

omit [DecidableEq ε] [DecidableEq τ] in
theorem Ready.not_blocked (ready : s.Ready t) : ¬BlockedIn (s.container (xStateListItem t)) := by
  rw [Ready] at ready
  simp [ready, BlockedIn]

omit [DecidableEq ε] [DecidableEq τ] in
theorem Settled.blocked_ne (settled : s.Settled) (blocked : BlockedIn (s.container (xStateListItem t))) :
    t ≠ s.pxCurrentTCB := by
  rintro rfl
  exact Ready.not_blocked settled.running blocked

omit [DecidableEq ε] [DecidableEq τ] in
/-- No other fields matter. -/
theorem Sound.flags (sound : s.Sound punctual idle) {yields : Bool} {aborted : τ → Bool} {held : τ → Nat} :
    Sound punctual idle { s with xYieldPending := yields, ucDelayAborted := aborted, uxMutexesHeld := held } :=
  ⟨sound.arranged, sound.turns, sound.onTime, sound.places, sound.pended, sound.base⟩

/-! ### Out of an event list, and ready again -/

theorem remove_event_sound (sound : s.Sound punctual idle) (here : s.container (xEventListItem t) = some l) :
    ∃ s', s.remove (xEventListItem t) = some s' ∧ s'.Sound punctual idle ∧ Keeps s s' t ∧ s'.uxPriority = s.uxPriority ∧
      s'.container = update s.container (xEventListItem t) none := by
  obtain ⟨view, arranged⟩ := sound.arranged
  obtain ⟨lists, call, arranged', moved⟩ := remove_spec arranged here
  have values : lists.listGET_LIST_ITEM_VALUE = s.itemValue := by
    funext i
    exact congrFun moved.value _
  refine ⟨_, call, ⟨⟨_, arranged'⟩, sound.turns, fun punct => ?_, ?_, sound.pended, sound.base⟩, ?_, rfl, moved.pvContainer⟩
  · change Timely lists.pvContainer lists.listGET_LIST_ITEM_VALUE _ _ _ _
    rw [moved.pvContainer, values]
    exact (sound.onTime punct).mono fun u k _ inside => by rwa [update_of_ne (by simp)] at inside
  · change Places _ _ _ lists.pvContainer
    rw [moved.pvContainer]
    exact sound.places.leave t
  · refine ⟨rfl, rfl, rfl, rfl, rfl, fun _ _ => rfl, fun u ne => ⟨?_, congrFun values _⟩⟩
    change lists.pvContainer _ = _
    rw [moved.pvContainer, update_of_ne (by simp)]
    rfl

/-- A task goes from wherever it is to the ready list of the priority it has now. -/
theorem requeue_spec {prio : τ → Nat} (arranged : Arranged s.lists prio s.uxTopReadyPriority view)
    (same : ∀ u, u ≠ t → s.uxPriority u = prio u) (small : s.uxPriority t < configMAX_PRIORITIES)
    (here : s.container (xStateListItem t) = some l) :
    ∃ lists view',
      (s.remove (xStateListItem t)).map (fun s => s.prvAddTaskToReadyList t) =
        some { s with lists := lists, uxTopReadyPriority := max s.uxTopReadyPriority (s.uxPriority t) } ∧
      Arranged lists s.uxPriority (max s.uxTopReadyPriority (s.uxPriority t)) view' ∧
      Lists.Moved s.lists lists (xStateListItem t) (some (pxReadyTasksLists (s.uxPriority t))) := by
  obtain ⟨lists₁, call₁, arranged₁, moved₁⟩ := remove_spec arranged here
  have out : lists₁.pvContainer (xStateListItem t) = none := by rw [moved₁.pvContainer, update_self]
  have arranged₂ := arranged₁.setPriority same (fun p inside => absurd (out.symm.trans inside) (by simp)) small
  obtain ⟨lists, call, arranged', moved⟩ := addReady_spec (s := { s with lists := lists₁ }) (t := t) arranged₂ out
  refine ⟨lists, _, by rw [call₁, Option.map_some, call], arranged', ⟨moved.value.trans moved₁.value, ?_⟩⟩
  rw [moved.pvContainer]
  dsimp only
  rw [moved₁.pvContainer, update_idem]

theorem requeue_sound (sound : s.Sound punctual idle) (here : s.container (xStateListItem t) = some l)
    (calm : s.container (xEventListItem t) = none) :
    ∃ s', (s.remove (xStateListItem t)).map (fun s => s.prvAddTaskToReadyList t) = some s' ∧ s'.Sound punctual idle ∧
      Keeps s s' t ∧ s'.uxPriority = s.uxPriority ∧
      ∀ u, s'.container (xEventListItem u) = s.container (xEventListItem u) := by
  obtain ⟨view, arranged⟩ := sound.arranged
  obtain ⟨lists, view', call, arranged', moved⟩ :=
    requeue_spec arranged (fun _ _ => rfl) (arranged.small t) here
  have values : lists.listGET_LIST_ITEM_VALUE = s.itemValue := by
    funext i
    exact congrFun moved.value _
  refine ⟨_, call, ⟨⟨view', arranged'⟩, sound.turns, fun punct => ?_, ?_, sound.pended, sound.base⟩, ?_, rfl, fun u => ?_⟩
  · change Timely lists.pvContainer lists.listGET_LIST_ITEM_VALUE _ _ _ _
    rw [moved.pvContainer, values]
    exact (sound.onTime punct).mono (fewer_update (not_delayed (by simp [Delayed])))
  · change Places _ _ _ lists.pvContainer
    have places := sound.places.ready t
    rw [← calm, update_eq_self] at places
    rw [moved.pvContainer]
    exact places
  · refine ⟨rfl, rfl, rfl, rfl, rfl, fun _ _ => rfl, fun u ne => ⟨?_, congrFun values _⟩⟩
    change lists.pvContainer _ = _
    rw [moved.pvContainer, update_of_ne (by simpa using ne)]
    rfl
  · change lists.pvContainer _ = _
    rw [moved.pvContainer, update_of_ne (by simp)]
    rfl

omit [DecidableEq ε] [DecidableEq τ] in
/-- A call is about one task, which neither runs nor is better than the one that does. -/
theorem Keeps.goes (keeps : Keeps s s' t) (sound : s.Sound punctual idle) (sound' : s'.Sound punctual idle) {yields : Bool}
    {aborted : τ → Bool} {held : τ → Nat} (pending : s.xYieldPending = true → yields = true)
    (own : s.Settled → y = false → yields = false →
      t ≠ s.pxCurrentTCB ∧ (s'.Ready t → s'.uxPriority t ≤ s.uxPriority s.pxCurrentTCB)) :
    Goes punctual idle s { s' with xYieldPending := yields, ucDelayAborted := aborted, uxMutexesHeld := held } y 0 (· = t) where
  sound := sound'.flags
  pending := pending
  settled settled no quiet :=
    have ⟨ne, low⟩ := own settled no quiet
    have settled' := keeps.settled settled ne low
    ⟨settled'.running, settled'.highest⟩
  stays punct _ ne :=
    have stays := keeps.stays (sound.onTime punct) ne
    ⟨stays.waits, stays.expires, stays.ready⟩

omit [DecidableEq ε] [DecidableEq τ] in
/-- Nothing happens. -/
theorem Goes.refl (sound : s.Sound punctual idle) {touched : τ → Prop} : Goes punctual idle s s y 0 touched where
  sound := sound
  pending := id
  settled settled _ _ := settled
  stays punct _ _ :=
    { waits := fun waits _ => ⟨waits, rfl⟩
      expires := fun waits late =>
        absurd late (Nat.not_le.mpr (UInt32.lt_iff_toNat_lt.mp ((sound.onTime punct).ticksLeft_pos waits)))
      ready := id }

omit [DecidableEq ε] [DecidableEq τ] in
theorem prvResetNextTaskUnblockTime_sound (sound : s.Sound punctual idle) :
    ∃ next, s.prvResetNextTaskUnblockTime = some { s with xNextTaskUnblockTime := next } ∧
      Sound punctual idle { s with xNextTaskUnblockTime := next } := by
  obtain ⟨view, arranged⟩ := sound.arranged
  obtain ⟨next, call, least⟩ := prvResetNextTaskUnblockTime_spec arranged sound.turns.delayed.1
  exact ⟨next, call, ⟨⟨view, arranged⟩, sound.turns, fun punct => (sound.onTime punct).reset least, sound.places,
    sound.pended, sound.base⟩⟩

omit [DecidableEq ε] [DecidableEq τ] in
/-- At the end of a call the next time to look is set anew. -/
theorem Goes.reset {k : Nat} {touched : τ → Prop} (goes : Goes punctual idle s s' y k touched) :
    ∃ s'', s'.prvResetNextTaskUnblockTime = some s'' ∧ Goes punctual idle s s'' y k touched := by
  obtain ⟨next, call, sound⟩ := prvResetNextTaskUnblockTime_sound goes.sound
  refine ⟨_, call, sound, goes.pending, fun settled no quiet => ?_, fun punct t far => ?_⟩
  · have settled' := goes.settled settled no quiet
    exact ⟨settled'.running, settled'.highest⟩
  · have stays := goes.stays punct t far
    exact ⟨stays.waits, stays.expires, stays.ready⟩

/-- The task is held until the scheduler is resumed. -/
theorem hold_sound (sound : s.Sound punctual idle) (suspended : s.uxSchedulerSuspended ≠ 0)
    (blocked : BlockedIn (s.container (xStateListItem t))) (calm : s.container (xEventListItem t) = none) :
    (s.insertEnd xPendingReadyList (xEventListItem t)).Sound punctual idle ∧
      Keeps s (s.insertEnd xPendingReadyList (xEventListItem t)) t ∧
      (s.insertEnd xPendingReadyList (xEventListItem t)).container (xStateListItem t) = s.container (xStateListItem t) := by
  obtain ⟨view, arranged⟩ := sound.arranged
  obtain ⟨arranged', moved⟩ :=
    arranged.insertEnd (l := xPendingReadyList) calm trivial (by simp) (by simp [Delayed])
  have values : (s.lists.vListInsertEnd xPendingReadyList (xEventListItem t)).listGET_LIST_ITEM_VALUE = s.itemValue := by
    funext i
    exact congrFun moved.value _
  have states : ∀ u, (s.insertEnd xPendingReadyList (xEventListItem t)).container (xStateListItem u) =
      s.container (xStateListItem u) := by
    intro u
    change (s.lists.vListInsertEnd xPendingReadyList (xEventListItem t)).pvContainer _ = _
    rw [moved.pvContainer, update_of_ne (by simp)]
    rfl
  refine ⟨⟨⟨_, arranged'⟩, sound.turns, fun punct => ?_, ?_, sound.pended, sound.base⟩, ?_, states t⟩
  · change Timely _ (s.lists.vListInsertEnd xPendingReadyList (xEventListItem t)).listGET_LIST_ITEM_VALUE _ _ _ _
    rw [values]
    exact (sound.onTime punct).mono fun u k _ inside => (states u).symm.trans inside
  · change Places _ _ _ (s.lists.vListInsertEnd xPendingReadyList (xEventListItem t)).pvContainer
    rw [moved.pvContainer]
    exact sound.places.enter blocked fun _ => suspended
  · exact ⟨rfl, rfl, rfl, rfl, rfl, fun _ _ => rfl, fun u _ => ⟨states u, congrFun values _⟩⟩

omit [DecidableEq ε] [DecidableEq τ] in
theorem BlockedIn.exists_eq {k : Option (TaskList ε)} (blocked : BlockedIn k) : ∃ l, k = some l := by
  rcases blocked with rfl | rfl | rfl
  · exact ⟨_, rfl⟩
  · exact ⟨_, rfl⟩
  · exact ⟨_, rfl⟩

/-- The value of an event list item. -/
theorem setEventValue_sound (sound : s.Sound punctual idle) (t : τ) (v : TickType) :
    (s.setItemValue (xEventListItem t) v).Sound punctual idle ∧ Keeps s (s.setItemValue (xEventListItem t) v) t ∧
      ∀ u, (s.setItemValue (xEventListItem t) v).itemValue (xStateListItem u) = s.itemValue (xStateListItem u) := by
  obtain ⟨view, arranged⟩ := sound.arranged
  have states : ∀ u, (s.setItemValue (xEventListItem t) v).itemValue (xStateListItem u) = s.itemValue (xStateListItem u) :=
    fun u => by simp [setItemValue, itemValue, Lists.listGET_LIST_ITEM_VALUE, Lists.listSET_LIST_ITEM_VALUE]
  have arranged' : Arranged (s.setItemValue (xEventListItem t) v).lists s.uxPriority s.uxTopReadyPriority view := by
    refine arranged.setValue fun l delayed inside => ?_
    obtain ⟨u, eq⟩ := delayed.state (arranged.fits _ _ inside)
    cases eq
  exact ⟨⟨⟨view, arranged'⟩, sound.turns, fun punct => (sound.onTime punct).values states, sound.places, sound.pended, sound.base⟩,
    ⟨rfl, rfl, rfl, rfl, rfl, fun _ _ => rfl, fun u _ => ⟨rfl, states u⟩⟩, states⟩

theorem unblock_sound (sound : s.Sound punctual idle) (here : s.container (xStateListItem t) = some l) :
    ∃ s', s.unblock t = some s' ∧ s'.Sound punctual idle ∧ Keeps s s' t ∧ s'.uxPriority = s.uxPriority := by
  obtain ⟨view, arranged⟩ := sound.arranged
  obtain ⟨lists, view', call, arranged', container, value, -⟩ := unblock_spec arranged here
  have values : lists.listGET_LIST_ITEM_VALUE = s.itemValue := by
    funext i
    exact congrFun value _
  refine ⟨_, call, ⟨⟨view', arranged'⟩, sound.turns, fun punct => ?_, ?_, sound.pended, sound.base⟩,
    ⟨rfl, rfl, rfl, rfl, rfl, fun _ _ => rfl, fun u ne => ⟨?_, congrFun values _⟩⟩, rfl⟩
  · change Timely lists.pvContainer lists.listGET_LIST_ITEM_VALUE _ _ _ _
    rw [container, values]
    refine (sound.onTime punct).mono fun u k delayed inside => ?_
    have before := fewer_update (c := update s.lists.pvContainer (xEventListItem t) none)
      (not_delayed (by simp [Delayed])) u k delayed inside
    rwa [update_of_ne (by simp)] at before
  · change Places _ _ _ lists.pvContainer
    rw [container]
    exact sound.places.ready t
  · change lists.pvContainer _ = _
    rw [container, update_of_ne (by simpa using ne), update_of_ne (by simp)]
    rfl

end Tasks

end Bk7251.Kernel
