import Bk7251.Kernel.TaskTicks

/-!
# The calls of the scheduler

What each call makes of the places of the tasks, and that none of them gets stuck. A task with an item in an
event list is blocked, and the idle task is always ready.
-/
namespace Bk7251.Kernel

open ItemPtr Function

namespace Tasks

open TaskItem TaskList

variable {τ ε : Type} [DecidableEq τ] [DecidableEq ε] {s : Tasks τ ε} {view : TaskList ε → Order (TaskItem τ)}
  {c : TaskItem τ → Option (TaskList ε)} {value : TaskItem τ → TickType} {d o l : TaskList ε} {tick next : TickType}
  {i : TaskItem τ} {t idle : τ} {prio prio' : τ → Nat} {suspended : Nat}

/-! ### Places -/

/-- Neither ready nor about to be deleted. -/
def BlockedIn (l : Option (TaskList ε)) : Prop :=
  l = some xDelayedTaskList1 ∨ l = some xDelayedTaskList2 ∨ l = some xSuspendedTaskList

structure Places (idle : τ) (prio : τ → Nat) (suspended : Nat) (c : TaskItem τ → Option (TaskList ε)) : Prop where
  waiting : ∀ t l, c (xEventListItem t) = some l → BlockedIn (c (xStateListItem t))
  pending : suspended = 0 → ∀ t, c (xEventListItem t) ≠ some xPendingReadyList
  idle : c (xStateListItem idle) = some (pxReadyTasksLists (prio idle))

omit [DecidableEq ε] in
/-- A task becomes ready. -/
theorem Places.ready (places : Places idle prio suspended c) (t : τ) :
    Places idle prio suspended
      (update (update c (xEventListItem t) none) (xStateListItem t) (some (pxReadyTasksLists (prio t)))) := by
  constructor
  case waiting =>
    intro u l inside
    by_cases eq : u = t
    · subst eq
      simp at inside
    · simp only [update_of_ne (show xEventListItem u ≠ xStateListItem t by simp),
        update_of_ne (show xEventListItem u ≠ xEventListItem t by simpa using eq)] at inside
      simpa [eq] using places.waiting u l inside
  case pending =>
    intro running u
    by_cases eq : u = t
    · subst eq
      simp
    · simpa [eq] using places.pending running u
  case idle =>
    by_cases eq : idle = t
    · subst eq
      simp
    · simpa [eq] using places.idle

omit [DecidableEq ε] in
/-- A task that waits for no event goes somewhere else or nowhere, or any task to where it is blocked. -/
theorem Places.move (places : Places idle prio suspended c) (ne : t ≠ idle) {k : Option (TaskList ε)}
    (calm : c (xEventListItem t) = none ∨ BlockedIn k) :
    Places idle prio suspended (update c (xStateListItem t) k) := by
  constructor
  case waiting =>
    intro u l inside
    rw [update_of_ne (by simp)] at inside
    by_cases eq : u = t
    · subst eq
      rw [update_self]
      rcases calm with none | blocked
      · exact absurd (inside.symm.trans none) (by simp)
      · exact blocked
    · rw [update_of_ne (by simpa using eq)]
      exact places.waiting u l inside
  case pending =>
    intro running u
    rw [update_of_ne (by simp)]
    exact places.pending running u
  case idle =>
    rw [update_of_ne (by simpa using ne.symm)]
    exact places.idle

omit [DecidableEq ε] in
theorem Places.leave (places : Places idle prio suspended c) (t : τ) :
    Places idle prio suspended (update c (xEventListItem t) none) := by
  constructor
  case waiting =>
    intro u k inside
    by_cases eq : u = t
    · subst eq
      simp at inside
    · rw [update_of_ne (by simpa using eq)] at inside
      simpa using places.waiting u k inside
  case pending =>
    intro running u
    by_cases eq : u = t
    · subst eq
      simp
    · rw [update_of_ne (by simpa using eq)]
      exact places.pending running u
  case idle =>
    rw [update_of_ne (by simp)]
    exact places.idle

omit [DecidableEq ε] in
/-- A blocked task waits for an event. -/
theorem Places.enter (places : Places idle prio suspended c) (blocked : BlockedIn (c (xStateListItem t)))
    (held : l = xPendingReadyList → suspended ≠ 0) :
    Places idle prio suspended (update c (xEventListItem t) (some l)) := by
  constructor
  case waiting =>
    intro u k inside
    rw [update_of_ne (by simp)]
    by_cases eq : u = t
    · exact eq ▸ blocked
    · rw [update_of_ne (by simpa using eq)] at inside
      exact places.waiting u k inside
  case pending =>
    intro running u inside
    by_cases eq : u = t
    · subst eq
      rw [update_self] at inside
      exact held (Option.some.inj inside) running
    · rw [update_of_ne (by simpa using eq)] at inside
      exact places.pending running u inside
  case idle =>
    rw [update_of_ne (by simp)]
    exact places.idle

omit [DecidableEq τ] [DecidableEq ε] in
/-- Fewer tasks wait for time. -/
theorem Timely.mono (timely : Timely c value d o tick next) {c' : TaskItem τ → Option (TaskList ε)}
    (fewer : ∀ t l, Delayed l → c' (xStateListItem t) = some l → c (xStateListItem t) = some l) :
    Timely c' value d o tick next where
  lists := timely.lists
  later t here := timely.later t (fewer t d timely.lists.delayed.1 here)
  overflowed t there := timely.overflowed t (fewer t o timely.lists.delayed.2 there)

omit [DecidableEq τ] [DecidableEq ε] in
/-- Only the times of the tasks matter. -/
theorem Timely.values (timely : Timely c value d o tick next) {value' : TaskItem τ → TickType}
    (same : ∀ t, value' (xStateListItem t) = value (xStateListItem t)) : Timely c value' d o tick next := by
  refine ⟨timely.lists, fun t here => ?_, fun t there => ?_⟩
  · rw [same]
    exact timely.later t here
  · rw [same]
    exact timely.overflowed t there

omit [DecidableEq τ] [DecidableEq ε] in
/-- Another time to look, not later than any task of this turn. -/
theorem Timely.reset (timely : Timely c value d o tick next) {next' : TickType}
    (least : ∀ t, c (xStateListItem t) = some d → next' ≤ value (xStateListItem t)) :
    Timely c value d o tick next' where
  lists := timely.lists
  later t here := ⟨(timely.later t here).1, least t here⟩
  overflowed := timely.overflowed

omit [DecidableEq ε] in
theorem fewer_update {t : τ} {l : Option (TaskList ε)} (other : ∀ k, Delayed k → l ≠ some k) :
    ∀ u k, Delayed k → update c (xStateListItem t) l (xStateListItem u) = some k → c (xStateListItem u) = some k := by
  intro u k delayed inside
  by_cases eq : u = t
  · subst eq
    rw [update_self] at inside
    exact absurd inside (other k delayed)
  · rwa [update_of_ne (by simpa using eq)] at inside

omit [DecidableEq τ] [DecidableEq ε] in
theorem not_delayed (other : ¬Delayed l) : ∀ k, Delayed k → some l ≠ some k :=
  fun _ delayed eq => other (Option.some.inj eq ▸ delayed)

/-! ### Switching -/

omit [DecidableEq τ] [DecidableEq ε] in
theorem highestReady_spec {top p : Nat} (arranged : Arranged s.lists prio top view) {n : Nat}
    (here : s.container (xStateListItem t) = some (pxReadyTasksLists p)) (low : p ≤ n) :
    ∃ q, s.highestReady n = some q ∧ (view (pxReadyTasksLists q)).items ≠ [] ∧
      ∀ r, q < r → r ≤ n → (view (pxReadyTasksLists r)).items = [] := by
  have empty := fun r => Lists.isEmpty_spec arranged.holds (Set.mem_univ (pxReadyTasksLists r))
  have found : (view (pxReadyTasksLists p)).items ≠ [] := List.ne_nil_of_mem (arranged.contained.mpr here)
  induction n with
  | zero =>
    obtain rfl := Nat.le_zero.mp low
    refine ⟨0, ?_, found, fun r above bound => absurd bound (Nat.not_le.mpr above)⟩
    rw [highestReady, empty, if_neg (by simpa using found)]
  | succ n ih =>
    by_cases none : (view (pxReadyTasksLists (n + 1))).items = []
    · have lower : p ≤ n := by
        rcases Nat.lt_or_eq_of_le low with below | rfl
        · exact Nat.le_of_lt_succ below
        · exact absurd none found
      obtain ⟨q, call, some, above⟩ := ih lower
      refine ⟨q, ?_, some, fun r higher bound => ?_⟩
      · rw [highestReady, empty, if_pos (by simp [none]), call]
      · rcases Nat.lt_or_eq_of_le bound with below | rfl
        · exact above r higher (Nat.le_of_lt_succ below)
        · exact none
    · refine ⟨n + 1, ?_, none, fun r higher bound => absurd bound (Nat.not_le.mpr higher)⟩
      rw [highestReady, empty, if_neg (by simpa using none)]

/-- The task that is selected has the highest priority of those that are ready, and is the next of them
to have its turn. -/
theorem select_spec (arranged : Arranged s.lists s.uxPriority s.uxTopReadyPriority view) {p : Nat}
    (here : s.container (xStateListItem t) = some (pxReadyTasksLists p)) :
    ∃ lists u,
      s.taskSELECT_HIGHEST_PRIORITY_TASK =
        some { s with lists := lists, pxCurrentTCB := u, uxTopReadyPriority := s.uxPriority u } ∧
      Arranged lists s.uxPriority (s.uxPriority u) (update view (pxReadyTasksLists (s.uxPriority u))
        (view (pxReadyTasksLists (s.uxPriority u))).advance) ∧
      lists.pvContainer = s.lists.pvContainer ∧ lists.xItemValue = s.lists.xItemValue ∧
      s.container (xStateListItem u) = some (pxReadyTasksLists (s.uxPriority u)) ∧
      (view (pxReadyTasksLists (s.uxPriority u))).turns.head? = some (xStateListItem u) ∧
      ∀ w q, s.container (xStateListItem w) = some (pxReadyTasksLists q) → q ≤ s.uxPriority u := by
  obtain ⟨q, call, some, above⟩ := highestReady_spec arranged here (arranged.top t p here)
  obtain ⟨lists, next, holds, value, container⟩ :=
    Lists.listGET_OWNER_OF_NEXT_ENTRY_spec arranged.holds (Set.mem_univ (pxReadyTasksLists q))
  obtain ⟨i, rest, turns⟩ : ∃ i rest, (view (pxReadyTasksLists q)).turns = i :: rest := by
    refine List.exists_cons_of_ne_nil fun none => some ?_
    obtain ⟨ahead, passed⟩ := List.append_eq_nil_iff.mp none
    simp [Order.items, ahead, passed]
  have inside : s.container i = Option.some (pxReadyTasksLists q) := by
    refine arranged.contained.mp (List.mem_append.mpr (List.mem_append.mp ?_).symm)
    change i ∈ (view (pxReadyTasksLists q)).turns
    rw [turns]
    exact List.mem_cons_self
  obtain ⟨u, rfl, own⟩ : ∃ u, i = xStateListItem u ∧ s.uxPriority u = q := by
    have fits := arranged.fits _ _ inside
    cases i with
    | xStateListItem u => exact ⟨u, rfl, fits⟩
    | xEventListItem u => cases fits
  subst own
  have highest : ∀ w q, s.container (xStateListItem w) = Option.some (pxReadyTasksLists q) → q ≤ s.uxPriority u := by
    intro w q ready
    refine Nat.not_lt.mp fun higher => ?_
    have none := above q higher (arranged.top w q ready)
    exact absurd (arranged.contained.mpr ready) (by simp [none])
  have same : lists.listGET_LIST_ITEM_VALUE = s.lists.listGET_LIST_ITEM_VALUE := by
    funext j
    exact congrFun value _
  refine ⟨lists, u, ?_, ?_, container, value, inside, by rw [turns]; rfl, highest⟩
  · simp only [taskSELECT_HIGHEST_PRIORITY_TASK, call, Option.bind_some, next, turns, List.head?_cons, Option.map_some]
    rfl
  · constructor
    case holds => exact holds
    case fits =>
      rw [container]
      exact arranged.fits
    case top =>
      rw [container]
      exact highest
    case small => exact arranged.small
    case start =>
      intro k delayed
      rw [update_of_ne (by rcases delayed with rfl | rfl <;> simp)]
      exact arranged.start k delayed
    case sorted =>
      intro k delayed
      rw [same, update_of_ne (by rcases delayed with rfl | rfl <;> simp)]
      exact arranged.sorted k delayed

/-! ### Waiting -/

/-- The running task is in its ready list. -/
def Running (s : Tasks τ ε) : Prop :=
  s.container (xStateListItem s.pxCurrentTCB) = some (pxReadyTasksLists (s.uxPriority s.pxCurrentTCB))

/-- Where a task is that waits for `n` ticks from now on. -/
structure Sleeps (s s' : Tasks τ ε) (t : τ) (n : TickType) (l : TaskList ε) : Prop where
  blocked : BlockedIn (some l)
  places : s'.lists.pvContainer = update s.lists.pvContainer (xStateListItem t) (some l)
  values : ∀ i, i ≠ xStateListItem t → s'.itemValue i = s.itemValue i
  forever : l = xSuspendedTaskList ∨ Delayed l ∧ s'.itemValue (xStateListItem t) = s.xTickCount + n

omit [DecidableEq ε] in
theorem TwoLists.ne (two : TwoLists d o) : d ≠ o := by
  rcases two with ⟨rfl, rfl⟩ | ⟨rfl, rfl⟩ <;> simp

omit [DecidableEq τ] [DecidableEq ε] in
theorem Delayed.ne_suspended (delayed : Delayed l) : l ≠ xSuspendedTaskList := by
  rcases delayed with rfl | rfl <;> simp

omit [DecidableEq ε] in
theorem Sleeps.elsewhere {s' : Tasks τ ε} {n : TickType} (sleeps : Sleeps s s' t n l) {u : τ} {k : TaskList ε}
    (ne : k ≠ l) (inside : s'.lists.pvContainer (xStateListItem u) = some k) :
    s.container (xStateListItem u) = some k ∧ s'.itemValue (xStateListItem u) = s.itemValue (xStateListItem u) := by
  rw [sleeps.places] at inside
  by_cases eq : u = t
  · subst eq
    rw [update_self] at inside
    exact absurd (Option.some.inj inside).symm ne
  · have ne' : xStateListItem u ≠ xStateListItem t := by simpa using eq
    rw [update_of_ne ne'] at inside
    exact ⟨inside, sleeps.values _ ne'⟩

omit [DecidableEq ε] in
/-- The task is in the list, or another one that was there before. -/
theorem Sleeps.inside {s' : Tasks τ ε} {n : TickType} (sleeps : Sleeps s s' t n l) (delayed : Delayed l) {u : τ}
    (inside : s'.lists.pvContainer (xStateListItem u) = some l) :
    s'.itemValue (xStateListItem u) = s.xTickCount + n ∨
      s.container (xStateListItem u) = some l ∧ s'.itemValue (xStateListItem u) = s.itemValue (xStateListItem u) := by
  by_cases eq : u = t
  · subst eq
    rcases sleeps.forever with eq | ⟨-, value⟩
    · exact absurd eq delayed.ne_suspended
    · exact .inl value
  · have ne : xStateListItem u ≠ xStateListItem t := by simpa using eq
    rw [sleeps.places, update_of_ne ne] at inside
    exact .inr ⟨inside, sleeps.values _ ne⟩

omit [DecidableEq ε] in
theorem Sleeps.timely_overflow {s' : Tasks τ ε} {n : TickType}
    (sleeps : Sleeps s s' t n s.pxOverflowDelayedTaskList) (onTime : s.OnTime) (wraps : s.xTickCount + n < s.xTickCount) :
    Timely s'.lists.pvContainer s'.itemValue s.pxDelayedTaskList s.pxOverflowDelayedTaskList s.xTickCount
      s.xNextTaskUnblockTime := by
  refine ⟨onTime.lists, fun u here => ?_, fun u there => ?_⟩
  · obtain ⟨before, value⟩ := sleeps.elsewhere onTime.lists.ne here
    rw [value]
    exact onTime.later u before
  · rcases sleeps.inside onTime.lists.delayed.2 there with value | ⟨before, value⟩
    · rw [value]
      exact wraps
    · rw [value]
      exact onTime.overflowed u before

omit [DecidableEq ε] in
theorem Sleeps.timely_delayed {s' : Tasks τ ε} {n : TickType} (sleeps : Sleeps s s' t n s.pxDelayedTaskList)
    (onTime : s.OnTime) (positive : n ≠ 0) (stays : ¬s.xTickCount + n < s.xTickCount) :
    Timely s'.lists.pvContainer s'.itemValue s.pxDelayedTaskList s.pxOverflowDelayedTaskList s.xTickCount
      (if s.xTickCount + n < s.xNextTaskUnblockTime then s.xTickCount + n else s.xNextTaskUnblockTime) := by
  have least : ∀ v, s.xTickCount + n ≤ v ∨ s.xNextTaskUnblockTime ≤ v →
      (if s.xTickCount + n < s.xNextTaskUnblockTime then s.xTickCount + n else s.xNextTaskUnblockTime) ≤ v := by
    intro v bound
    split <;> grind
  refine ⟨onTime.lists, fun u here => ?_, fun u there => ?_⟩
  · rcases sleeps.inside onTime.lists.delayed.1 here with value | ⟨before, value⟩
    · rw [value]
      exact ⟨by grind, least _ (.inl (UInt32.le_refl _))⟩
    · rw [value]
      exact ⟨(onTime.later u before).1, least _ (.inr (onTime.later u before).2)⟩
  · obtain ⟨before, value⟩ := sleeps.elsewhere onTime.lists.ne.symm there
    rw [value]
    exact onTime.overflowed u before

/-- A task that is in no list goes into a list of delayed tasks, with the time at which it has to wake up. -/
theorem insert_sleeps {lists₁ : Lists (TaskItem τ) (TaskList ε)} {n : TickType}
    (arranged : Arranged lists₁ s.uxPriority s.uxTopReadyPriority view)
    (moved : Lists.Moved s.lists lists₁ (xStateListItem t) none) (delayed : Delayed l) :
    ∃ lists view',
      (lists₁.listSET_LIST_ITEM_VALUE (xStateListItem t) (s.xTickCount + n)).vListInsert l (xStateListItem t) =
        some lists ∧
      Arranged lists s.uxPriority s.uxTopReadyPriority view' ∧ Sleeps s { s with lists := lists } t n l := by
  have out : lists₁.pvContainer (xStateListItem t) = none := by rw [moved.pvContainer, update_self]
  have timed := arranged.setValue (i := xStateListItem t) (v := s.xTickCount + n)
    fun k _ inside => absurd (out.symm.trans inside) (by simp)
  have fits : Fits s.uxPriority l (xStateListItem t) := by
    rcases delayed with rfl | rfl <;> exact trivial
  obtain ⟨lists, call, arranged', moved'⟩ :=
    timed.insert (l := l) out fits (by rcases delayed with rfl | rfl <;> simp)
  refine ⟨lists, _, call, arranged', ⟨?_, ?_, fun i ne => ?_, .inr ⟨delayed, ?_⟩⟩⟩
  · rcases delayed with rfl | rfl
    · exact .inl rfl
    · exact .inr (.inl rfl)
  · change lists.pvContainer = _
    rw [moved'.pvContainer]
    change update lists₁.pvContainer _ _ = _
    rw [moved.pvContainer, update_idem]
  · exact (congrFun moved'.value _).trans
      ((update_of_ne (by simpa using ne) ..).trans (congrFun moved.value (item i)))
  · exact (congrFun moved'.value _).trans (update_self ..)

/-- The running task goes to sleep, into the list of the turn in which its time comes. -/
theorem prvAddCurrentTaskToDelayedList_spec {n : TickType} (forever : Bool)
    (arranged : Arranged s.lists s.uxPriority s.uxTopReadyPriority view)
    (turns : TwoLists s.pxDelayedTaskList s.pxOverflowDelayedTaskList) (running : s.Running) (positive : n ≠ 0) :
    ∃ lists next view' l,
      s.prvAddCurrentTaskToDelayedList n forever = some { s with
        lists := lists, xNextTaskUnblockTime := next
        ucDelayAborted := update s.ucDelayAborted s.pxCurrentTCB false } ∧
      Arranged lists s.uxPriority s.uxTopReadyPriority view' ∧
      Sleeps s { s with lists := lists } s.pxCurrentTCB n l ∧
      (l = xSuspendedTaskList → n = portMAX_DELAY ∧ forever = true) ∧
      (s.OnTime → Timely lists.pvContainer lists.listGET_LIST_ITEM_VALUE s.pxDelayedTaskList s.pxOverflowDelayedTaskList
        s.xTickCount next) := by
  obtain ⟨lists₁, call₁, arranged₁, moved₁⟩ :=
    remove_spec (s := { s with ucDelayAborted := update s.ucDelayAborted s.pxCurrentTCB false }) arranged running
  unfold prvAddCurrentTaskToDelayedList
  simp only [call₁, Option.bind_some]
  by_cases indefinitely : n = portMAX_DELAY ∧ forever = true
  · rw [if_pos indefinitely]
    have out : lists₁.pvContainer (xStateListItem s.pxCurrentTCB) = none := by rw [moved₁.pvContainer, update_self]
    obtain ⟨arranged₂, moved₂⟩ := arranged₁.insertEnd (l := xSuspendedTaskList) out trivial (by simp) (by simp [Delayed])
    have places : (lists₁.vListInsertEnd xSuspendedTaskList (xStateListItem s.pxCurrentTCB)).pvContainer =
        update s.lists.pvContainer (xStateListItem s.pxCurrentTCB) (some xSuspendedTaskList) := by
      rw [moved₂.pvContainer, moved₁.pvContainer, update_idem]
    have values : (lists₁.vListInsertEnd xSuspendedTaskList (xStateListItem s.pxCurrentTCB)).listGET_LIST_ITEM_VALUE =
        s.itemValue := by
      funext i
      exact (congrFun moved₂.value _).trans (congrFun moved₁.value _)
    refine ⟨_, s.xNextTaskUnblockTime, _, xSuspendedTaskList, rfl, arranged₂,
      ⟨.inr (.inr rfl), places, fun i _ => congrFun values i, .inl rfl⟩, fun _ => indefinitely, fun onTime => ?_⟩
    rw [places, values]
    exact onTime.mono (fewer_update (not_delayed (by simp [Delayed])))
  · rw [if_neg indefinitely]
    obtain ⟨delayed, overflow⟩ := turns.delayed
    by_cases wraps : s.xTickCount + n < s.xTickCount
    · obtain ⟨lists, view', call, arranged₃, sleeps⟩ := insert_sleeps (n := n) arranged₁ moved₁ overflow
      refine ⟨lists, s.xNextTaskUnblockTime, view', s.pxOverflowDelayedTaskList, (if_pos wraps).trans ?_, arranged₃,
        sleeps, fun eq => absurd eq overflow.ne_suspended, ?_⟩
      · exact congrArg (Option.map _) call
      · exact fun onTime => sleeps.timely_overflow onTime wraps
    · obtain ⟨lists, view', call, arranged₃, sleeps⟩ := insert_sleeps (n := n) arranged₁ moved₁ delayed
      refine ⟨lists, if s.xTickCount + n < s.xNextTaskUnblockTime then s.xTickCount + n else s.xNextTaskUnblockTime, view',
        s.pxDelayedTaskList, (if_neg wraps).trans ?_, arranged₃, sleeps, fun eq => absurd eq delayed.ne_suspended, ?_⟩
      · exact congrArg (fun lists => Option.map _ (Option.map _ lists)) call
      · exact fun onTime => sleeps.timely_delayed onTime positive wraps

end Tasks

end Bk7251.Kernel
