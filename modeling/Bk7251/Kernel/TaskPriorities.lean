import Bk7251.Kernel.TaskSound

/-!
# Priorities

A task whose priority changes is in the ready list of the new one, if it is ready, and otherwise where it was.
New tasks are ready.
-/
namespace Bk7251.Kernel

open ItemPtr Function

namespace Tasks

open TaskItem TaskList

variable {τ ε : Type} [DecidableEq τ] [DecidableEq ε] {s s' : Tasks τ ε} {l : TaskList ε} {t idle : τ} {punctual : Prop}
  {prio' base' : τ → Nat} {p : Nat} {v : TickType} {c : TaskItem τ → Option (TaskList ε)} {prio : τ → Nat}
  {suspended : Nat} {view : TaskList ε → Order (TaskItem τ)} {y : Bool}

omit [DecidableEq ε] in
/-- A task that waits for no event is ready with another priority. -/
theorem Places.requeue (places : Places idle prio suspended c) (same : ∀ u, u ≠ t → prio' u = prio u)
    (calm : c (xEventListItem t) = none) :
    Places idle prio' suspended (update c (xStateListItem t) (some (pxReadyTasksLists (prio' t)))) := by
  constructor
  case waiting =>
    intro u k inside
    rw [update_of_ne (by simp)] at inside
    have ne : u ≠ t := by
      rintro rfl
      exact absurd (inside.symm.trans calm) (by simp)
    rw [update_of_ne (by simpa using ne)]
    exact places.waiting u k inside
  case pending =>
    intro running u
    rw [update_of_ne (by simp)]
    exact places.pending running u
  case idle =>
    by_cases eq : idle = t
    · subst eq
      simp
    · rw [update_of_ne (by simpa using eq), same idle eq]
      exact places.idle

omit [DecidableEq ε] [DecidableEq τ] in
/-- A ready task waits for no event. -/
theorem Places.calm (places : Places idle prio suspended c) (ready : c (xStateListItem t) = some (pxReadyTasksLists p)) :
    c (xEventListItem t) = none := by
  by_contra waits
  obtain ⟨l, inside⟩ := Option.ne_none_iff_exists'.mp waits
  have blocked := places.waiting t l inside
  rw [ready] at blocked
  simp [BlockedIn] at blocked

omit [DecidableEq ε] [DecidableEq τ] in
/-- What became of the task itself, too. -/
theorem Keeps.settled_of (keeps : Keeps s s' t) (settled : s.Settled)
    (own : t ≠ s.pxCurrentTCB ∧ (s'.Ready t → s'.uxPriority t ≤ s.uxPriority s.pxCurrentTCB) ∨
      t = s.pxCurrentTCB ∧ s'.Ready t ∧ s.uxPriority t ≤ s'.uxPriority t) : s'.Settled := by
  rcases own with ⟨ne, low⟩ | ⟨rfl, ready, more⟩
  · exact keeps.settled settled ne low
  · constructor
    case running =>
      rw [Running, keeps.current]
      exact ready
    case highest =>
      intro u there
      rw [keeps.current]
      by_cases eq : u = s.pxCurrentTCB
      · rw [eq]
      · rw [Ready, (keeps.others u eq).1, keeps.priority u eq] at there
        rw [keeps.priority u eq]
        exact Nat.le_trans (settled.highest u there) more

/-- The task with its new priority is where it belongs. -/
theorem moveReady_sound (sound : s.Sound punctual idle) (same : ∀ u, u ≠ t → prio' u = s.uxPriority u)
    (small : prio' t < configMAX_PRIORITIES) (base : ∀ u, base' u < configMAX_PRIORITIES) :
    ∃ s', { s with uxPriority := prio', uxBasePriority := base' }.moveReady t (s.uxPriority t) = some s' ∧
      s'.Sound punctual idle ∧ Keeps s s' t ∧ s'.uxPriority = prio' ∧ (s.Waits t → s'.Waits t) ∧
      s'.itemValue (xStateListItem t) = s.itemValue (xStateListItem t) ∧ (s'.Ready t ↔ s.Ready t) := by
  obtain ⟨view, arranged⟩ := sound.arranged
  unfold moveReady
  by_cases ready : s.container (xStateListItem t) = some (pxReadyTasksLists (s.uxPriority t))
  · obtain ⟨lists, view', call, arranged', moved⟩ :=
      requeue_spec (s := { s with uxPriority := prio', uxBasePriority := base' }) arranged same small ready
    have values : lists.listGET_LIST_ITEM_VALUE = s.itemValue := by
      funext i
      exact congrFun moved.value _
    refine ⟨_, (if_pos ready).trans call, ⟨⟨view', arranged'⟩, sound.turns, fun punct => ?_, ?_, sound.pended, base⟩,
      ⟨rfl, rfl, rfl, rfl, rfl, same, fun u ne => ⟨?_, congrFun values _⟩⟩, rfl, ?_, congrFun values _, iff_of_true ?_ ready⟩
    · change Timely lists.pvContainer lists.listGET_LIST_ITEM_VALUE _ _ _ _
      rw [moved.pvContainer, values]
      exact (sound.onTime punct).mono (fewer_update (not_delayed (by simp [Delayed])))
    · change Places _ _ _ lists.pvContainer
      rw [moved.pvContainer]
      exact sound.places.requeue same (sound.places.calm ready)
    · change lists.pvContainer _ = _
      rw [moved.pvContainer, update_of_ne (by simpa using ne)]
      rfl
    · intro waits
      rcases waits with one | two
      · exact absurd (one.symm.trans ready) (by simp)
      · exact absurd (two.symm.trans ready) (by simp)
    · change lists.pvContainer _ = _
      rw [moved.pvContainer, update_self]
  · have elsewhere : ∀ p, s.container (xStateListItem t) ≠ some (pxReadyTasksLists p) := by
      intro p inside
      have own : s.uxPriority t = p := arranged.fits _ _ inside
      exact ready (own ▸ inside)
    have notIdle : idle ≠ t := by
      rintro rfl
      exact ready sound.places.idle
    refine ⟨_, if_neg ready, ⟨⟨view, arranged.setPriority same elsewhere small⟩, sound.turns, sound.onTime, ?_, sound.pended,
      base⟩, ⟨rfl, rfl, rfl, rfl, rfl, same, fun _ _ => ⟨rfl, rfl⟩⟩, rfl, id, rfl, iff_of_false (elsewhere _) ready⟩
    exact ⟨sound.places.waiting, sound.places.pending,
      sound.places.idle.trans (congrArg (some ∘ pxReadyTasksLists) (same idle notIdle).symm)⟩

/-- The task takes its priority with it, and no task is woken or put to sleep. -/
theorem moveReady_goes (sound : s.Sound punctual idle) (same : ∀ u, u ≠ t → prio' u = s.uxPriority u)
    (small : prio' t < configMAX_PRIORITIES) (base : ∀ u, base' u < configMAX_PRIORITIES)
    (own : s.Settled → y = false →
      t ≠ s.pxCurrentTCB ∧ (s.Ready t → prio' t ≤ s.uxPriority s.pxCurrentTCB) ∨
        t = s.pxCurrentTCB ∧ s.uxPriority t ≤ prio' t) :
    ∃ s', { s with uxPriority := prio', uxBasePriority := base' }.moveReady t (s.uxPriority t) = some s' ∧
      Goes punctual idle s s' y 0 fun _ => False := by
  obtain ⟨s', call, sound', keeps, priority, waits, value, ready⟩ := moveReady_sound sound same small base
  refine ⟨s', call, ⟨sound', fun yes => keeps.pending.trans yes, fun settled no _ => ?_, fun punct u _ => ?_⟩⟩
  · refine keeps.settled_of settled ?_
    rw [priority]
    rcases own settled no with ⟨ne, low⟩ | ⟨rfl, more⟩
    · exact .inl ⟨ne, fun there => low (ready.mp there)⟩
    · exact .inr ⟨rfl, ready.mpr settled.running, more⟩
  · by_cases eq : u = t
    · subst eq
      constructor
      case waits =>
        intro there _
        rw [ticksLeft, value, keeps.tick]
        exact ⟨waits there, rfl⟩
      case expires =>
        intro there late
        have left := UInt32.lt_iff_toNat_lt.mp ((sound.onTime punct).ticksLeft_pos there)
        exact absurd late (Nat.not_le.mpr left)
      case ready => exact ready.mpr
    · exact keeps.stays (sound.onTime punct) eq

/-- The value of the event list item does not matter. -/
theorem resetEventValue_sound (sound : s.Sound punctual idle) (t : τ) (p : Nat) :
    ∃ lists, s.resetEventValue t p = { s with lists := lists } ∧ Sound punctual idle { s with lists := lists } ∧
      lists.pvContainer = s.lists.pvContainer ∧
      ∀ u, lists.listGET_LIST_ITEM_VALUE (xStateListItem u) = s.itemValue (xStateListItem u) := by
  unfold resetEventValue
  split
  · obtain ⟨sound', -, states⟩ := setEventValue_sound sound t (UInt32.ofNat (configMAX_PRIORITIES - p))
    exact ⟨_, rfl, sound', rfl, states⟩
  · exact ⟨s.lists, rfl, sound, rfl, fun _ => rfl⟩

omit [DecidableEq ε] [DecidableEq τ] in
/-- From lists with the same places and times. -/
theorem Goes.from_lists {lists : Lists (TaskItem τ) (TaskList ε)} {touched : τ → Prop} {k : Nat}
    (goes : Goes punctual idle { s with lists := lists } s' y k touched) (places : lists.pvContainer = s.lists.pvContainer)
    (values : ∀ u, lists.listGET_LIST_ITEM_VALUE (xStateListItem u) = s.itemValue (xStateListItem u)) :
    Goes punctual idle s s' y k touched := by
  have ready : ∀ u, Ready { s with lists := lists } u ↔ s.Ready u := fun u => by
    rw [Ready, container, places]
    rfl
  have waits : ∀ u, Waits { s with lists := lists } u ↔ s.Waits u := fun u => by
    rw [Waits, container, places]
    rfl
  have left : ∀ u, ticksLeft { s with lists := lists } u = s.ticksLeft u := fun u =>
    congrArg (· - s.xTickCount) (values u)
  constructor
  case sound => exact goes.sound
  case pending => exact goes.pending
  case settled =>
    intro settled
    refine goes.settled ⟨(ready _).mpr settled.running, fun u there => settled.highest u ((ready u).mp there)⟩
  case stays =>
    intro punct u far
    have stays := goes.stays punct u far
    constructor
    case waits =>
      intro there before
      rw [← left] at before ⊢
      exact stays.waits ((waits u).mpr there) before
    case expires =>
      intro there late
      rw [← left] at late
      exact stays.expires ((waits u).mpr there) late
    case ready => exact fun there => stays.ready ((ready u).mpr there)

theorem resetEventValue_priorities (s : Tasks τ ε) (t : τ) (p : Nat) (prio' base' : τ → Nat) :
    { s with uxPriority := prio', uxBasePriority := base' }.resetEventValue t p =
      { s.resetEventValue t p with uxPriority := prio', uxBasePriority := base' } := by
  unfold resetEventValue
  by_cases free : s.itemValue (xEventListItem t) &&& taskEVENT_LIST_ITEM_VALUE_IN_USE = 0
  · rw [if_pos free]
    exact if_pos free
  · rw [if_neg free]
    exact if_neg free

/-- A base priority is set, and the priority with it unless it is inherited. -/
theorem vTaskPrioritySet_goes (sound : s.Sound punctual idle) (t : τ) (p : Nat) :
    ∃ s' y, s.vTaskPrioritySet t p = some (s', y) ∧ Goes punctual idle s s' y 0 fun _ => False := by
  unfold vTaskPrioritySet
  obtain ⟨new, clamped⟩ : ∃ new, new = if p ≥ configMAX_PRIORITIES then configMAX_PRIORITIES - 1 else p := ⟨_, rfl⟩
  have small : new < configMAX_PRIORITIES := by
    rw [clamped, configMAX_PRIORITIES]
    split <;> omega
  rw [← clamped]
  dsimp only
  by_cases other : s.uxBasePriority t ≠ new
  · rw [if_pos other, resetEventValue_priorities]
    obtain ⟨lists, reset, sound₁, places, values⟩ := resetEventValue_sound sound t new
    obtain ⟨prio', raised⟩ : ∃ prio', prio' =
        if s.uxBasePriority t = s.uxPriority t then update s.uxPriority t new else s.uxPriority := ⟨_, rfl⟩
    have own : prio' t = new ∧ s.uxBasePriority t = s.uxPriority t ∨ prio' t = s.uxPriority t := by
      rw [raised]
      split
      · exact .inl ⟨update_self .., ‹_›⟩
      · exact .inr rfl
    have same : ∀ u, u ≠ t → prio' u = s.uxPriority u := by
      intro u ne
      rw [raised]
      split
      · exact update_of_ne ne ..
      · rfl
    have low : prio' t < configMAX_PRIORITIES := by
      rcases own with ⟨eq, -⟩ | eq
      · rwa [eq]
      · obtain ⟨view, arranged⟩ := sound.arranged
        exact eq ▸ arranged.small t
    have base : ∀ u, update s.uxBasePriority t new u < configMAX_PRIORITIES := by
      intro u
      by_cases eq : u = t
      · rwa [eq, update_self]
      · rw [update_of_ne eq]
        exact sound.base u
    rw [reset, ← raised]
    have calm : s.Settled → (if new > s.uxBasePriority t then
          decide (t ≠ s.pxCurrentTCB ∧ new ≥ s.uxPriority s.pxCurrentTCB)
        else decide (t = s.pxCurrentTCB)) = false →
        t ≠ s.pxCurrentTCB ∧ (s.Ready t → prio' t ≤ s.uxPriority s.pxCurrentTCB) ∨
          t = s.pxCurrentTCB ∧ s.uxPriority t ≤ prio' t := by
      intro settled no
      by_cases running : t = s.pxCurrentTCB
      · refine .inr ⟨running, ?_⟩
        split at no
        · rename_i higher
          rcases own with ⟨eq, unlent⟩ | eq
          · rw [eq, ← unlent]
            exact Nat.le_of_lt higher
          · exact Nat.le_of_eq eq.symm
        · exact absurd running (of_decide_eq_false no)
      · refine .inl ⟨running, fun ready => ?_⟩
        rcases own with ⟨eq, unlent⟩ | eq
        · rw [eq]
          split at no
          · have less := of_decide_eq_false no
            exact Nat.le_of_not_le fun more => less ⟨running, more⟩
          · rename_i lower
            exact Nat.le_trans (Nat.not_lt.mp lower) (unlent ▸ settled.highest t ready)
        · rw [eq]
          exact settled.highest t ready
    have ready : ∀ u, Ready { s with lists := lists } u ↔ s.Ready u := fun u => by
      rw [Ready, container, places]
      rfl
    obtain ⟨s', call, goes⟩ := moveReady_goes sound₁ same low base fun settled no =>
      have settled' : s.Settled :=
        ⟨(ready _).mp settled.running, fun u there => settled.highest u ((ready u).mpr there)⟩
      (calm settled' no).imp_left fun low => ⟨low.1, fun there => low.2 ((ready t).mp there)⟩
    exact ⟨s', _, congrArg (Option.map _) call, goes.from_lists places values⟩
  · rw [if_neg other]
    exact ⟨s, false, rfl, .refl sound⟩

/-- The holder of a mutex runs with the priority of the task that waits for it. -/
theorem vTaskPriorityInherit_goes (sound : s.Sound punctual idle) (holder : Option τ) :
    ∃ s', s.vTaskPriorityInherit holder = some s' ∧ Goes punctual idle s s' false 0 fun _ => False := by
  cases holder with
  | none => exact ⟨s, rfl, .refl sound⟩
  | some t =>
    unfold vTaskPriorityInherit
    by_cases lower : s.uxPriority t < s.uxPriority s.pxCurrentTCB
    · simp only [if_pos lower]
      obtain ⟨lists, reset, sound₁, places, values⟩ :=
        resetEventValue_sound sound t (s.uxPriority s.pxCurrentTCB)
      obtain ⟨view, arranged⟩ := sound.arranged
      have small : update s.uxPriority t (s.uxPriority s.pxCurrentTCB) t < configMAX_PRIORITIES := by
        rw [update_self]
        exact arranged.small _
      have apart : t ≠ s.pxCurrentTCB := fun eq => absurd lower (eq ▸ Nat.lt_irrefl _)
      obtain ⟨s', call, goes⟩ := moveReady_goes (y := false) sound₁ (fun u ne => update_of_ne ne ..) small sound.base
        fun _ _ => .inl ⟨apart, fun _ => Nat.le_of_eq (update_self ..)⟩
      rw [reset]
      exact ⟨s', call, goes.from_lists places values⟩
    · exact ⟨s, if_neg lower, .refl sound⟩

/-- A task that is in no list is ready, with the priority and the event value it is given. -/
theorem enqueue_sound {lists : Lists (TaskItem τ) (TaskList ε)} {b : τ → Bool} {m : τ → Nat}
    (sound : s.Sound punctual idle) (arranged : Arranged lists s.uxPriority s.uxTopReadyPriority view)
    (container : lists.pvContainer = update s.lists.pvContainer (xStateListItem t) none)
    (values : ∀ u, lists.listGET_LIST_ITEM_VALUE (xStateListItem u) = s.itemValue (xStateListItem u))
    (calm : s.container (xEventListItem t) = none) (same : ∀ u, u ≠ t → prio' u = s.uxPriority u)
    (small : prio' t < configMAX_PRIORITIES) (base : ∀ u, base' u < configMAX_PRIORITIES) (v : TickType)
    (named : s' = { s with
      lists := lists.listSET_LIST_ITEM_VALUE (xEventListItem t) v, uxPriority := prio', uxBasePriority := base'
      ucDelayAborted := b, uxMutexesHeld := m }.prvAddTaskToReadyList t) :
    s'.Sound punctual idle ∧ Keeps s s' t ∧ s'.Ready t ∧ s'.uxPriority = prio' := by
  have out : lists.pvContainer (xStateListItem t) = none := by rw [container, update_self]
  have still : lists.pvContainer (xEventListItem t) = none := by
    rw [container, update_of_ne (by simp)]
    exact calm
  have arranged₁ := (arranged.setPriority same (fun p inside => absurd (out.symm.trans inside) (by simp)) small).setValue
    (i := xEventListItem t) (v := v) fun l _ inside => absurd (still.symm.trans inside) (by simp)
  obtain ⟨lists', call, arranged', moved⟩ := addReady_spec (t := t) (s := { s with
    lists := lists.listSET_LIST_ITEM_VALUE (xEventListItem t) v, uxPriority := prio', uxBasePriority := base'
    ucDelayAborted := b, uxMutexesHeld := m }) arranged₁ out
  have kept : ∀ u, lists'.listGET_LIST_ITEM_VALUE (xStateListItem u) = s.itemValue (xStateListItem u) := by
    intro u
    refine ((congrFun moved.value _).trans ?_).trans (values u)
    simp [Lists.listGET_LIST_ITEM_VALUE, Lists.listSET_LIST_ITEM_VALUE]
  have places : lists'.pvContainer =
      update s.lists.pvContainer (xStateListItem t) (some (pxReadyTasksLists (prio' t))) := by
    rw [moved.pvContainer]
    change update lists.pvContainer _ _ = _
    rw [container, update_idem]
  rw [named, call]
  refine ⟨⟨⟨_, arranged'⟩, sound.turns, fun punct => ?_, ?_, sound.pended, base⟩,
    ⟨rfl, rfl, rfl, rfl, rfl, same, fun u ne => ⟨?_, kept u⟩⟩, ?_, rfl⟩
  · refine Timely.values ?_ kept
    change Timely lists'.pvContainer s.itemValue _ _ _ _
    rw [places]
    exact (sound.onTime punct).mono (fewer_update (not_delayed (by simp [Delayed])))
  · change Places _ _ _ lists'.pvContainer
    rw [places]
    exact sound.places.requeue same calm
  · change lists'.pvContainer _ = _
    rw [places, update_of_ne (by simpa using ne)]
    rfl
  · change lists'.pvContainer _ = _
    rw [places, update_self]

omit [DecidableEq ε] in
theorem pvTaskIncrementMutexHeldCount_goes (sound : s.Sound punctual idle) :
    Goes punctual idle s s.pvTaskIncrementMutexHeldCount false 0 fun _ => False where
  sound := sound.flags
  pending := id
  settled settled _ _ := ⟨settled.running, settled.highest⟩
  stays punct t far :=
    have same : Goes punctual idle s s false 0 fun _ => False := .refl sound
    have stays := same.stays punct t far
    ⟨stays.waits, stays.expires, stays.ready⟩

/-- The running task gives its mutex back, and with it the priority that it has inherited. -/
theorem xTaskPriorityDisinherit_goes (sound : s.Sound punctual idle) (running : s.Running) :
    ∃ s' y, s.xTaskPriorityDisinherit (some s.pxCurrentTCB) = some (s', y) ∧ Goes punctual idle s s' y 0 fun _ => False := by
  unfold xTaskPriorityDisinherit
  dsimp only
  obtain ⟨held, count⟩ : ∃ held, held =
      update s.uxMutexesHeld s.pxCurrentTCB (s.uxMutexesHeld s.pxCurrentTCB - 1) := ⟨_, rfl⟩
  rw [← count]
  by_cases last : s.uxPriority s.pxCurrentTCB ≠ s.uxBasePriority s.pxCurrentTCB ∧ held s.pxCurrentTCB = 0
  · rw [if_pos last]
    obtain ⟨view, arranged⟩ := sound.arranged
    obtain ⟨lists₁, call₁, arranged₁, moved₁⟩ :=
      remove_spec (s := { s with uxMutexesHeld := held }) arranged running
    have own : update s.uxPriority s.pxCurrentTCB (s.uxBasePriority s.pxCurrentTCB) s.pxCurrentTCB =
        s.uxBasePriority s.pxCurrentTCB := update_self ..
    rw [call₁, Option.map_some]
    obtain ⟨sound', keeps, ready, -⟩ := enqueue_sound (m := held) (b := s.ucDelayAborted) sound arranged₁
      moved₁.pvContainer (fun u => congrFun moved₁.value _) (sound.places.calm running)
      (fun u ne => update_of_ne ne ..) (own.symm ▸ sound.base _) sound.base _ rfl
    refine ⟨_, true, rfl, ⟨sound', fun yes => keeps.pending.trans yes, fun _ no => absurd no (by simp), fun punct u _ => ?_⟩⟩
    by_cases eq : u = s.pxCurrentTCB
    · subst eq
      have waits : ¬s.Waits s.pxCurrentTCB := by
        rintro (one | two)
        · exact absurd (one.symm.trans running) (by simp)
        · exact absurd (two.symm.trans running) (by simp)
      exact ⟨fun there => absurd there waits, fun there => absurd there waits, fun _ => ready⟩
    · exact keeps.stays (sound.onTime punct) eq
  · rw [if_neg last]
    have same : Goes punctual idle s s false 0 fun _ => False := .refl sound
    exact ⟨_, false, rfl, ⟨sound.flags, same.pending, fun settled _ _ => ⟨settled.running, settled.highest⟩,
      fun punct u _ => ⟨(same.stays punct u id).waits, (same.stays punct u id).expires, id⟩⟩⟩

omit [DecidableEq ε] in
theorem vListInitialiseItem_same {lists : Lists (TaskItem τ) (TaskList ε)} {i : TaskItem τ}
    (out : lists.pvContainer i = none) : lists.vListInitialiseItem i = lists := by
  rw [Lists.vListInitialiseItem, ← out, update_eq_self]

/-- A new task is ready. -/
theorem xTaskCreate_sound (sound : s.Sound punctual idle) (out : s.container (xStateListItem t) = none)
    (calm : s.container (xEventListItem t) = none) (p : Nat) :
    (s.xTaskCreate t p).1.Sound punctual idle ∧ Keeps s (s.xTaskCreate t p).1 t ∧
      (s.xTaskCreate t p).1.Ready t := by
  obtain ⟨view, arranged⟩ := sound.arranged
  obtain ⟨new, clamped⟩ : ∃ new, new = if p ≥ configMAX_PRIORITIES then configMAX_PRIORITIES - 1 else p := ⟨_, rfl⟩
  have small : new < configMAX_PRIORITIES := by
    rw [clamped, configMAX_PRIORITIES]
    split <;> omega
  have base : ∀ u, update s.uxBasePriority t new u < configMAX_PRIORITIES := by
    intro u
    by_cases eq : u = t
    · rwa [eq, update_self]
    · rw [update_of_ne eq]
      exact sound.base u
  have lists : (s.lists.vListInitialiseItem (xStateListItem t)).vListInitialiseItem (xEventListItem t) = s.lists := by
    rw [vListInitialiseItem_same (i := xStateListItem t) out, vListInitialiseItem_same calm]
  have own : update s.uxPriority t new t = new := update_self ..
  have container : s.lists.pvContainer = update s.lists.pvContainer (xStateListItem t) none := by
    rw [← show s.lists.pvContainer (xStateListItem t) = none from out, update_eq_self]
  have named : (s.xTaskCreate t p).1 = { s with
      lists := s.lists.listSET_LIST_ITEM_VALUE (xEventListItem t) (UInt32.ofNat (configMAX_PRIORITIES - new))
      uxPriority := update s.uxPriority t new, uxBasePriority := update s.uxBasePriority t new
      ucDelayAborted := update s.ucDelayAborted t false
      uxMutexesHeld := update s.uxMutexesHeld t 0 }.prvAddTaskToReadyList t := by
    simp only [xTaskCreate, prvInitialiseNewTask, lists, ← clamped]
  obtain ⟨sound', keeps, ready, -⟩ := enqueue_sound sound arranged container (fun _ => rfl) calm
    (fun u ne => update_of_ne ne ..) (own.symm ▸ small) base (UInt32.ofNat (configMAX_PRIORITIES - new)) named
  exact ⟨sound', keeps, ready⟩

theorem xTaskCreate_goes (sound : s.Sound punctual idle) (out : s.container (xStateListItem t) = none)
    (calm : s.container (xEventListItem t) = none) (p : Nat) :
    Goes punctual idle s (s.xTaskCreate t p).1 (s.xTaskCreate t p).2 0 (· = t) := by
  obtain ⟨sound', keeps, -⟩ := xTaskCreate_sound sound out calm p
  refine ⟨sound', fun yes => keeps.pending.trans yes, fun settled no _ => ?_,
    fun punct u ne => keeps.stays (sound.onTime punct) ne⟩
  have ne : t ≠ s.pxCurrentTCB := by
    rintro rfl
    exact absurd (out.symm.trans settled.running) (by simp)
  have low : ¬(s.xTaskCreate t p).1.uxPriority (s.xTaskCreate t p).1.pxCurrentTCB < (s.xTaskCreate t p).1.uxPriority t :=
    of_decide_eq_false no
  rw [keeps.current, keeps.priority _ ne.symm] at low
  exact keeps.settled settled ne fun _ => Nat.not_lt.mp low

omit [DecidableEq ε] [DecidableEq τ] in
/-- A task that is in no list waits for no event. -/
theorem Sound.calm (sound : s.Sound punctual idle) (out : s.container (xStateListItem t) = none) :
    s.container (xEventListItem t) = none := by
  by_contra waits
  obtain ⟨l, inside⟩ := Option.ne_none_iff_exists'.mp waits
  have blocked := sound.places.waiting t l inside
  rw [out] at blocked
  simp [BlockedIn] at blocked

/-- Before the scheduler is started, a new task is the one that will run unless a better one is. -/
theorem xTaskCreateEarly_sound (sound : s.Sound punctual idle) (settled : s.Settled)
    (out : s.container (xStateListItem t) = none) (p : Nat) :
    (s.xTaskCreateEarly t p).Sound punctual idle ∧ (s.xTaskCreateEarly t p).Settled ∧
      (s.xTaskCreateEarly t p).Ready t ∧
      ∀ u, u ≠ t → (s.xTaskCreateEarly t p).container (xStateListItem u) = s.container (xStateListItem u) ∧
        (s.Ready u → (s.xTaskCreateEarly t p).Ready u) := by
  obtain ⟨sound', keeps, ready⟩ := xTaskCreate_sound sound out (sound.calm out) p
  obtain ⟨s₁, created⟩ : ∃ s₁, s₁ = (s.xTaskCreate t p).1 := ⟨_, rfl⟩
  have early : s.xTaskCreateEarly t p = { s₁ with
      pxCurrentTCB := if s₁.uxPriority s.pxCurrentTCB ≤ s₁.uxPriority t then t else s.pxCurrentTCB } := by
    rw [created]
    rfl
  rw [← created] at sound' keeps ready
  have ne : s.pxCurrentTCB ≠ t := by
    rintro rfl
    exact absurd (out.symm.trans settled.running) (by simp)
  have others : ∀ u, u ≠ t → s₁.Ready u → s₁.uxPriority u ≤ s₁.uxPriority s.pxCurrentTCB := by
    intro u other there
    rw [Ready, (keeps.others u other).1, keeps.priority u other] at there
    rw [keeps.priority u other, keeps.priority _ ne]
    exact settled.highest u there
  rw [early]
  refine ⟨⟨sound'.arranged, sound'.turns, sound'.onTime, sound'.places, sound'.pended, sound'.base⟩, ?_, ready,
    fun u other => ⟨(keeps.others u other).1, fun there => ?_⟩⟩
  · by_cases better : s₁.uxPriority s.pxCurrentTCB ≤ s₁.uxPriority t
    · rw [if_pos better]
      refine ⟨ready, fun u there => ?_⟩
      by_cases eq : u = t
      · rw [eq]
      · exact Nat.le_trans (others u eq there) better
    · rw [if_neg better]
      refine ⟨?_, fun u there => ?_⟩
      · change s₁.container _ = some (pxReadyTasksLists (s₁.uxPriority _))
        rw [(keeps.others _ ne).1, keeps.priority _ ne]
        exact settled.running
      · by_cases eq : u = t
        · rw [eq]
          exact Nat.le_of_not_le better
        · exact others u eq there
  · change s₁.container _ = some (pxReadyTasksLists (s₁.uxPriority _))
    rw [(keeps.others u other).1, keeps.priority u other]
    exact there

end Tasks

end Bk7251.Kernel
