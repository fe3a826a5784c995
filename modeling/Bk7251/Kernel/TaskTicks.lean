import Bk7251.Kernel.TaskMoves

/-!
# Ticks

The tasks that wait for time are in the list for the current turn of the tick count or in the one for the
next turn, unless the count has been stepped over their time. Each tick readies those whose time it is, and no others,
also where the count wraps around.
-/
namespace Bk7251.Kernel

open ItemPtr Function

namespace Tasks

open TaskItem TaskList

variable {τ ε : Type} [DecidableEq τ] [DecidableEq ε] {s : Tasks τ ε} {view : TaskList ε → Order (TaskItem τ)}
  {l : TaskList ε} {i : TaskItem τ} {t : τ} {v : TickType} {prio : τ → Nat}

/-- The tasks of `woken` are ready, and wait for no event. -/
def wakeUp (woken : τ → Prop) [DecidablePred woken] (prio : τ → Nat) (container : TaskItem τ → Option (TaskList ε)) :
    TaskItem τ → Option (TaskList ε)
  | xStateListItem t => if woken t then some (pxReadyTasksLists (prio t)) else container (xStateListItem t)
  | xEventListItem t => if woken t then none else container (xEventListItem t)

omit [DecidableEq τ] [DecidableEq ε] in
theorem wakeUp_none {woken : τ → Prop} [DecidablePred woken] {container : TaskItem τ → Option (TaskList ε)}
    (none : ∀ t, ¬woken t) : wakeUp woken prio container = container := by
  funext i
  cases i with
  | xStateListItem t => exact if_neg (none t)
  | xEventListItem t => exact if_neg (none t)

omit [DecidableEq τ] [DecidableEq ε] in
theorem wakeUp_congr {woken woken' : τ → Prop} [DecidablePred woken] [DecidablePred woken']
    {container : TaskItem τ → Option (TaskList ε)} (same : ∀ t, woken t ↔ woken' t) :
    wakeUp woken prio container = wakeUp woken' prio container := by
  funext i
  cases i with
  | xStateListItem t => simp only [wakeUp, same]
  | xEventListItem t => simp only [wakeUp, same]

omit [DecidableEq ε] in
/-- One more task is woken. -/
theorem wakeUp_update {woken woken' : τ → Prop} [DecidablePred woken] [DecidablePred woken']
    {container : TaskItem τ → Option (TaskList ε)} (own : woken t) (others : ∀ u, u ≠ t → (woken' u ↔ woken u))
    (not : ¬woken' t) :
    wakeUp woken' prio (update (update container (xEventListItem t) none) (xStateListItem t)
      (some (pxReadyTasksLists (prio t)))) = wakeUp woken prio container := by
  funext i
  cases i with
  | xStateListItem u =>
    by_cases eq : u = t
    · subst eq
      simp [wakeUp, own, not]
    · simp [wakeUp, others u eq, eq]
  | xEventListItem u =>
    by_cases eq : u = t
    · subst eq
      simp [wakeUp, own, not]
    · simp [wakeUp, others u eq, eq]

/-- The time of a task in the list of delayed tasks has come. -/
def Due (s : Tasks τ ε) (t : τ) : Prop :=
  s.container (xStateListItem t) = some s.pxDelayedTaskList ∧ s.itemValue (xStateListItem t) ≤ s.xTickCount

instance (s : Tasks τ ε) : DecidablePred s.Due := fun _ => inferInstanceAs (Decidable (_ ∧ _))

omit [DecidableEq τ] [DecidableEq ε] in
/-- The list of delayed tasks, in the order of their times. -/
theorem delayed_cons {xs : List (TaskItem τ)} {top : Nat} (arranged : Arranged s.lists s.uxPriority top view)
    (delayed : Delayed s.pxDelayedTaskList) (items : (view s.pxDelayedTaskList).items = i :: xs) :
    ∃ t, i = xStateListItem t ∧ s.container (xStateListItem t) = some s.pxDelayedTaskList ∧
      ∀ u, s.container (xStateListItem u) = some s.pxDelayedTaskList →
        s.itemValue (xStateListItem t) ≤ s.itemValue (xStateListItem u) := by
  have inside : s.container i = some s.pxDelayedTaskList := arranged.contained.mp (items ▸ List.mem_cons_self)
  obtain ⟨t, rfl⟩ := delayed.state (arranged.fits _ _ inside)
  refine ⟨t, rfl, inside, fun u member => ?_⟩
  have sorted := arranged.sorted _ delayed
  rw [items] at sorted
  have there := arranged.contained.mpr member
  rw [items] at there
  rcases List.mem_cons.mp there with eq | later
  · rw [eq]
    exact UInt32.le_refl _
  · exact (List.pairwise_cons.mp sorted).1 _ later

/-- The loop readies the tasks that are due, and leaves the time of the first one that is not. -/
theorem unblockExpired_spec {n : Nat} {b : Bool}
    (arranged : Arranged s.lists s.uxPriority s.uxTopReadyPriority view) (delayed : Delayed s.pxDelayedTaskList)
    (enough : (view s.pxDelayedTaskList).items.length < n) :
    ∃ lists top next view' sw',
      unblockExpired n s b =
        some ({ s with lists := lists, uxTopReadyPriority := top, xNextTaskUnblockTime := next }, sw') ∧
      Arranged lists s.uxPriority top view' ∧ lists.xItemValue = s.lists.xItemValue ∧
      lists.pvContainer = wakeUp s.Due s.uxPriority s.lists.pvContainer ∧
      (∀ t, lists.pvContainer (xStateListItem t) = some s.pxDelayedTaskList → next ≤ s.itemValue (xStateListItem t)) ∧
      (sw' = false → b = false ∧ ∀ t, s.Due t → s.uxPriority t < s.uxPriority s.pxCurrentTCB) := by
  obtain ⟨xs, items⟩ : ∃ xs, (view s.pxDelayedTaskList).items = xs := ⟨_, rfl⟩
  rw [items] at enough
  induction xs generalizing s view n b with
  | nil =>
    obtain ⟨fuel, rfl⟩ := Nat.exists_eq_succ_of_ne_zero (Nat.ne_of_gt enough)
    have empty : s.lists.listLIST_IS_EMPTY s.pxDelayedTaskList = true := by
      rw [Lists.isEmpty_spec arranged.holds (Set.mem_univ _), items]
      rfl
    have nobody : ∀ t, s.container (xStateListItem t) ≠ some s.pxDelayedTaskList := fun t inside =>
      absurd (arranged.contained.mpr inside) (by simp [items])
    refine ⟨s.lists, s.uxTopReadyPriority, portMAX_DELAY, view, b, ?_, arranged, rfl, ?_, ?_, ?_⟩
    · rw [unblockExpired, if_pos empty]
    · exact (wakeUp_none fun t due => nobody t due.1).symm
    · exact fun t inside => absurd inside (nobody t)
    · exact fun no => ⟨no, fun t due => absurd due.1 (nobody t)⟩
  | cons i xs ih =>
    obtain ⟨fuel, rfl⟩ := Nat.exists_eq_succ_of_ne_zero (Nat.ne_of_gt (Nat.lt_of_le_of_lt (Nat.zero_le _) enough))
    obtain ⟨t, rfl, here, first⟩ := delayed_cons arranged delayed items
    have empty : s.lists.listLIST_IS_EMPTY s.pxDelayedTaskList = false := by
      rw [Lists.isEmpty_spec arranged.holds (Set.mem_univ _), items]
      rfl
    have head : s.lists.listGET_OWNER_OF_HEAD_ENTRY s.pxDelayedTaskList = some (xStateListItem t) := by
      rw [(Lists.head_spec arranged.holds (Set.mem_univ _)).1, items]
      rfl
    rw [unblockExpired, if_neg (by simp [empty]), head, Option.bind_some]
    dsimp only [TaskItem.pvOwner]
    by_cases early : s.xTickCount < s.itemValue (xStateListItem t)
    · rw [if_pos early]
      have nobody : ∀ u, ¬s.Due u := fun u due =>
        absurd (UInt32.le_trans (first u due.1) due.2) (UInt32.not_le.mpr early)
      refine ⟨s.lists, s.uxTopReadyPriority, s.itemValue (xStateListItem t), view, b, rfl, arranged, rfl, ?_, ?_, ?_⟩
      · exact (wakeUp_none nobody).symm
      · exact fun u inside => first u inside
      · exact fun no => ⟨no, fun u due => absurd due (nobody u)⟩
    · rw [if_neg early]
      obtain ⟨lists, view', call, arranged', container, value, rest⟩ := unblock_spec arranged here
      have items' : (view' s.pxDelayedTaskList).items = xs := by
        rw [rest _ delayed, items, List.erase_cons_head]
      obtain ⟨lists', top, next, view'', sw', calls, arranged'', value', container', later, quiet⟩ :=
        ih (s := { s with lists := lists, uxTopReadyPriority := max s.uxTopReadyPriority (s.uxPriority t) })
          (n := fuel) (b := b || decide (s.uxPriority t ≥ s.uxPriority s.pxCurrentTCB))
          arranged' delayed (by simpa using enough) items'
      have same : ∀ u, itemValue { s with lists := lists } u = s.itemValue u := fun u => congrFun value _
      have ready : xDelayedTaskList1 ≠ pxReadyTasksLists (ε := ε) (s.uxPriority t) ∧
          xDelayedTaskList2 ≠ pxReadyTasksLists (ε := ε) (s.uxPriority t) := ⟨by simp, by simp⟩
      have due : ∀ u, u ≠ t →
          (Due { s with lists := lists, uxTopReadyPriority := max s.uxTopReadyPriority (s.uxPriority t) } u ↔ s.Due u) := by
        intro u ne
        refine and_congr ?_ ?_
        · simp only [Tasks.container, container, update_of_ne (show xStateListItem u ≠ xStateListItem t by simpa using ne),
            update_of_ne (show xStateListItem u ≠ xEventListItem t by simp)]
        · exact Iff.of_eq (congrArg (· ≤ s.xTickCount) (same _))
      refine ⟨lists', top, next, view'', sw', ?_, arranged'', value'.trans value, ?_, ?_, ?_⟩
      · rw [call, Option.bind_some]
        exact calls
      · rw [container']
        dsimp only
        rw [container]
        refine wakeUp_update ⟨here, UInt32.not_lt.mp early⟩ due ?_
        rintro ⟨gone, -⟩
        simp only [Tasks.container, container, update_self, Option.some.injEq] at gone
        rcases delayed with eq | eq
        · exact ready.1 (eq.symm.trans gone.symm)
        · exact ready.2 (eq.symm.trans gone.symm)
      · intro u inside
        exact (same _) ▸ later u inside
      · intro no
        obtain ⟨before, others⟩ := quiet no
        obtain ⟨unasked, low⟩ := Bool.or_eq_false_iff.mp before
        refine ⟨unasked, fun u wakes => ?_⟩
        by_cases eq : u = t
        · exact eq ▸ Nat.not_le.mp (of_decide_eq_false low)
        · exact others u ((due u eq).mpr wakes)

omit [DecidableEq τ] [DecidableEq ε] in
/-- The next time to look is not later than the first task of the list. -/
theorem prvResetNextTaskUnblockTime_spec {top : Nat} (arranged : Arranged s.lists s.uxPriority top view)
    (delayed : Delayed s.pxDelayedTaskList) :
    ∃ next, s.prvResetNextTaskUnblockTime = some { s with xNextTaskUnblockTime := next } ∧
      ∀ t, s.container (xStateListItem t) = some s.pxDelayedTaskList → next ≤ s.itemValue (xStateListItem t) := by
  have empty := Lists.isEmpty_spec arranged.holds (Set.mem_univ s.pxDelayedTaskList)
  have head := (Lists.head_spec arranged.holds (Set.mem_univ s.pxDelayedTaskList)).1
  unfold prvResetNextTaskUnblockTime
  rw [empty, head]
  cases items : (view s.pxDelayedTaskList).items with
  | nil =>
    refine ⟨portMAX_DELAY, rfl, fun t inside => ?_⟩
    exact absurd (arranged.contained.mpr inside) (by simp [items])
  | cons i xs =>
    obtain ⟨t, rfl, -, first⟩ := delayed_cons arranged delayed items
    exact ⟨s.itemValue (xStateListItem t), rfl, first⟩

/-- The two lists of delayed tasks, one for this turn of the tick count and one for the next. -/
def TwoLists (d o : TaskList ε) : Prop :=
  d = xDelayedTaskList1 ∧ o = xDelayedTaskList2 ∨ d = xDelayedTaskList2 ∧ o = xDelayedTaskList1

omit [DecidableEq ε] in
theorem TwoLists.symm {d o : TaskList ε} (two : TwoLists d o) : TwoLists o d := by
  rcases two with ⟨rfl, rfl⟩ | ⟨rfl, rfl⟩
  · exact .inr ⟨rfl, rfl⟩
  · exact .inl ⟨rfl, rfl⟩

omit [DecidableEq ε] in
theorem TwoLists.delayed {d o : TaskList ε} (two : TwoLists d o) : Delayed d ∧ Delayed o := by
  rcases two with ⟨rfl, rfl⟩ | ⟨rfl, rfl⟩
  · exact ⟨.inl rfl, .inr rfl⟩
  · exact ⟨.inr rfl, .inl rfl⟩

/-- Every waiting task is in the list of the turn of the tick count in which its time comes. -/
structure Timely (container : TaskItem τ → Option (TaskList ε)) (value : TaskItem τ → TickType) (d o : TaskList ε)
    (tick next : TickType) : Prop where
  lists : TwoLists d o
  later : ∀ t, container (xStateListItem t) = some d → tick < value (xStateListItem t) ∧ next ≤ value (xStateListItem t)
  overflowed : ∀ t, container (xStateListItem t) = some o → value (xStateListItem t) < tick

/-- After the count has been advanced: the tasks whose time it is may still be in the list. -/
structure AtTick (container : TaskItem τ → Option (TaskList ε)) (value : TaskItem τ → TickType) (d o : TaskList ε)
    (tick next : TickType) : Prop where
  lists : TwoLists d o
  now : ∀ t, container (xStateListItem t) = some d → tick ≤ value (xStateListItem t) ∧ next ≤ value (xStateListItem t)
  overflowed : ∀ t, container (xStateListItem t) = some o → value (xStateListItem t) < tick

def OnTime (s : Tasks τ ε) : Prop :=
  Timely s.container s.itemValue s.pxDelayedTaskList s.pxOverflowDelayedTaskList s.xTickCount s.xNextTaskUnblockTime

/-- The task waits for time. -/
def Waits (s : Tasks τ ε) (t : τ) : Prop :=
  s.container (xStateListItem t) = some xDelayedTaskList1 ∨ s.container (xStateListItem t) = some xDelayedTaskList2

/-- How many ticks are left, once round the tick count at most. -/
def ticksLeft (s : Tasks τ ε) (t : τ) : TickType := s.itemValue (xStateListItem t) - s.xTickCount

/-- The task waits for the next tick. -/
def Expires (s : Tasks τ ε) (t : τ) : Prop := s.Waits t ∧ s.ticksLeft t = 1

instance (s : Tasks τ ε) : DecidablePred s.Waits := fun _ => inferInstanceAs (Decidable (_ ∨ _))

instance (s : Tasks τ ε) : DecidablePred s.Expires := fun _ => inferInstanceAs (Decidable (_ ∧ _))

omit [DecidableEq τ] [DecidableEq ε] in
theorem waits_iff (turns : TwoLists s.pxDelayedTaskList s.pxOverflowDelayedTaskList) :
    s.Waits t ↔ s.container (xStateListItem t) = some s.pxDelayedTaskList ∨
      s.container (xStateListItem t) = some s.pxOverflowDelayedTaskList := by
  rcases turns with ⟨one, two⟩ | ⟨one, two⟩
  · rw [one, two]
    exact Iff.rfl
  · rw [one, two]
    exact or_comm

omit [DecidableEq τ] [DecidableEq ε] in
/-- A task that waits has ticks left. -/
theorem OnTime.ticksLeft_pos (onTime : s.OnTime) (waits : s.Waits t) : 0 < s.ticksLeft t := by
  unfold ticksLeft
  rcases (waits_iff onTime.lists).mp waits with here | there
  · have later := (onTime.later t here).1
    grind
  · have earlier := onTime.overflowed t there
    grind

omit [DecidableEq τ] [DecidableEq ε] in
theorem wakeUp_waits {woken : τ → Prop} [DecidablePred woken] {container : TaskItem τ → Option (TaskList ε)}
    (delayed : Delayed l) (inside : wakeUp woken prio container (xStateListItem t) = some l) :
    ¬woken t ∧ container (xStateListItem t) = some l := by
  by_cases wakes : woken t
  · rw [wakeUp, if_pos wakes] at inside
    rcases delayed with rfl | rfl <;> cases inside
  · rw [wakeUp, if_neg wakes] at inside
    exact ⟨wakes, inside⟩

/-- Looking for the tasks whose time has come. -/
theorem look_spec (arranged : Arranged s.lists s.uxPriority s.uxTopReadyPriority view)
    (turns : TwoLists s.pxDelayedTaskList s.pxOverflowDelayedTaskList) :
    ∃ lists top next view' sw, ∃ woken : τ → Bool,
      (if s.xTickCount ≥ s.xNextTaskUnblockTime then
          unblockExpired (s.lists.listCURRENT_LIST_LENGTH s.pxDelayedTaskList + 1) s false
        else some (s, false)) =
          some ({ s with lists := lists, uxTopReadyPriority := top, xNextTaskUnblockTime := next }, sw) ∧
      Arranged lists s.uxPriority top view' ∧ lists.xItemValue = s.lists.xItemValue ∧
      lists.pvContainer = wakeUp (woken · = true) s.uxPriority s.lists.pvContainer ∧
      (sw = false → ∀ t, woken t = true → s.uxPriority t < s.uxPriority s.pxCurrentTCB) ∧
      (AtTick s.container s.itemValue s.pxDelayedTaskList s.pxOverflowDelayedTaskList s.xTickCount
          s.xNextTaskUnblockTime →
        (∀ t, woken t = true ↔ s.Due t) ∧
        Timely lists.pvContainer s.itemValue s.pxDelayedTaskList s.pxOverflowDelayedTaskList s.xTickCount next) := by
  obtain ⟨delayed, overflow⟩ := turns.delayed
  by_cases time : s.xTickCount ≥ s.xNextTaskUnblockTime
  · rw [if_pos time, Lists.listCURRENT_LIST_LENGTH, arranged.holds.count _ (Set.mem_univ _)]
    obtain ⟨lists, top, next, view', sw, call, arranged', value, container, later, quiet⟩ :=
      unblockExpired_spec (b := false) arranged delayed (Nat.lt_succ_self _)
    have due : ∀ t, decide (s.Due t) = true ↔ s.Due t := fun _ => decide_eq_true_iff
    refine ⟨lists, top, next, view', sw, fun t => decide (s.Due t), call, arranged', value,
      container.trans (wakeUp_congr fun t => (due t).symm), fun no t wakes => (quiet no).2 t ((due t).mp wakes),
      fun atTick => ⟨due, turns, ?_, ?_⟩⟩
    · intro t inside
      refine ⟨?_, later t inside⟩
      rw [container] at inside
      obtain ⟨not, here⟩ := wakeUp_waits delayed inside
      exact UInt32.not_le.mp fun due => not ⟨here, due⟩
    · intro t inside
      rw [container] at inside
      exact atTick.overflowed t (wakeUp_waits overflow inside).2
  · rw [if_neg time]
    have before := UInt32.not_le.mp time
    refine ⟨s.lists, s.uxTopReadyPriority, s.xNextTaskUnblockTime, view, false, fun _ => false, rfl, arranged, rfl,
      (wakeUp_none fun _ => Bool.false_ne_true).symm, fun _ t wakes => absurd wakes Bool.false_ne_true, fun atTick => ?_⟩
    have nobody : ∀ t, ¬s.Due t := by
      rintro t ⟨here, due⟩
      exact time (UInt32.le_trans (atTick.now t here).2 due)
    refine ⟨fun t => iff_of_false Bool.false_ne_true (nobody t), turns, fun t here => ⟨?_, (atTick.now t here).2⟩,
      atTick.overflowed⟩
    exact UInt32.lt_of_lt_of_le before (atTick.now t here).2

omit [DecidableEq τ] [DecidableEq ε] in
/-- The lists of the next tick; they change places where the count wraps around. -/
theorem nextLists_spec (arranged : Arranged s.lists s.uxPriority s.uxTopReadyPriority view)
    (turns : TwoLists s.pxDelayedTaskList s.pxOverflowDelayedTaskList) :
    ∃ d o n next,
      (if s.xTickCount + 1 = 0 then taskSWITCH_DELAYED_LISTS { s with xTickCount := s.xTickCount + 1 }
        else some { s with xTickCount := s.xTickCount + 1 }) =
          some { s with
            pxDelayedTaskList := d, pxOverflowDelayedTaskList := o, xNumOfOverflows := n
            xNextTaskUnblockTime := next, xTickCount := s.xTickCount + 1 } ∧
        TwoLists d o ∧ (s.OnTime → AtTick s.container s.itemValue d o (s.xTickCount + 1) next) := by
  by_cases wraps : s.xTickCount + 1 = 0
  · rw [if_pos wraps]
    obtain ⟨next, reset, least⟩ := prvResetNextTaskUnblockTime_spec (s := { s with
      xTickCount := s.xTickCount + 1, pxDelayedTaskList := s.pxOverflowDelayedTaskList
      pxOverflowDelayedTaskList := s.pxDelayedTaskList, xNumOfOverflows := s.xNumOfOverflows + 1 })
      arranged turns.delayed.2
    refine ⟨_, _, _, next, reset, turns.symm, fun onTime => ⟨turns.symm, fun t here => ⟨?_, least t here⟩, fun t here => ?_⟩⟩
    · grind
    · have late := (onTime.later t here).1
      grind
  · rw [if_neg wraps]
    refine ⟨_, _, _, _, rfl, turns, fun onTime => ⟨turns, fun t here => ?_, fun t here => ?_⟩⟩
    · obtain ⟨strict, after⟩ := onTime.later t here
      exact ⟨by grind, after⟩
    · have early := onTime.overflowed t here
      grind

/-- A tick. Where the delayed tasks are in the lists of their turns, exactly those that waited for it are ready. -/
theorem advanceTick_spec (arranged : Arranged s.lists s.uxPriority s.uxTopReadyPriority view)
    (turns : TwoLists s.pxDelayedTaskList s.pxOverflowDelayedTaskList) :
    ∃ lists top d o n next view' sw, ∃ woken : τ → Bool,
      s.advanceTick = some ({ s with
        lists := lists, uxTopReadyPriority := top, pxDelayedTaskList := d, pxOverflowDelayedTaskList := o
        xNumOfOverflows := n, xNextTaskUnblockTime := next, xTickCount := s.xTickCount + 1 }, sw) ∧
      Arranged lists s.uxPriority top view' ∧ lists.xItemValue = s.lists.xItemValue ∧
      lists.pvContainer = wakeUp (woken · = true) s.uxPriority s.lists.pvContainer ∧ TwoLists d o ∧
      (sw = false → ∀ t, woken t = true → s.uxPriority t < s.uxPriority s.pxCurrentTCB) ∧
      (s.OnTime → (∀ t, woken t = true ↔ s.Expires t) ∧
        Timely lists.pvContainer s.itemValue d o (s.xTickCount + 1) next) := by
  obtain ⟨d, o, n, next, switched, turns', atTick⟩ := nextLists_spec arranged turns
  obtain ⟨lists, top, next', view', sw, woken, call, arranged', value, container, quiet, timely⟩ :=
    look_spec (s := { s with
      pxDelayedTaskList := d, pxOverflowDelayedTaskList := o, xNumOfOverflows := n, xNextTaskUnblockTime := next
      xTickCount := s.xTickCount + 1 }) arranged turns'
  have expires : s.OnTime → ∀ t, Due { s with
      pxDelayedTaskList := d, pxOverflowDelayedTaskList := o, xNumOfOverflows := n, xNextTaskUnblockTime := next
      xTickCount := s.xTickCount + 1 } t ↔ s.Expires t := by
    intro onTime t
    constructor
    · rintro ⟨here, due⟩
      obtain ⟨late, -⟩ := (atTick onTime).now t here
      have now : s.itemValue (xStateListItem t) = s.xTickCount + 1 := UInt32.le_antisymm due late
      refine ⟨?_, ?_⟩
      · rcases turns'.delayed.1 with eq | eq
        · exact .inl (here.trans (congrArg some eq))
        · exact .inr (here.trans (congrArg some eq))
      · rw [ticksLeft, now]
        grind
    · rintro ⟨waits, one⟩
      have now : s.itemValue (xStateListItem t) = s.xTickCount + 1 := by
        unfold ticksLeft at one
        grind
      have notLater : s.container (xStateListItem t) ≠ some o := fun there =>
        absurd ((atTick onTime).overflowed t there) (by rw [now]; exact UInt32.lt_irrefl _)
      refine ⟨?_, UInt32.le_of_eq now⟩
      rcases turns' with ⟨rfl, rfl⟩ | ⟨rfl, rfl⟩
      · exact waits.resolve_right notLater
      · exact waits.resolve_left notLater
  unfold advanceTick
  dsimp only
  rw [switched, Option.bind_some, call, Option.map_some]
  refine ⟨lists, top, d, o, n, next', view', _, woken, rfl, arranged', value, container, turns',
    fun no => quiet (Bool.or_eq_false_iff.mp no).1, fun onTime => ?_⟩
  obtain ⟨due, timely'⟩ := timely (atTick onTime)
  exact ⟨fun t => (due t).trans (expires onTime t), timely'⟩

end Tasks

end Bk7251.Kernel
