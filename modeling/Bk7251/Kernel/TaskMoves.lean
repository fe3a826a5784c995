import Bk7251.Kernel.TaskState

/-!
# Tasks on the move

What the helpers of the scheduler do to the lists: a task becomes ready, it leaves the event it waits for,
the running task goes to sleep. Of the state only what is written changes.
-/
namespace Bk7251.Kernel

open ItemPtr Function

namespace Tasks

open TaskItem TaskList

variable {τ ε : Type} [DecidableEq τ] [DecidableEq ε] {s : Tasks τ ε} {view : TaskList ε → Order (TaskItem τ)}
  {l : TaskList ε} {i : TaskItem τ} {t : τ} {v : TickType} {prio : τ → Nat} {top : Nat}

theorem remove_spec (arranged : Arranged s.lists prio top view) (here : s.container i = some l) :
    ∃ lists, s.remove i = some { s with lists := lists } ∧
      Arranged lists prio top (update view l ((view l).remove i)) ∧ Lists.Moved s.lists lists i none := by
  obtain ⟨lists, n, call, after, moved⟩ := arranged.remove here
  exact ⟨lists, by simp [remove, call], after, moved⟩

omit [DecidableEq τ] [DecidableEq ε] in
theorem recorded (p top : Nat) : (if p > top then p else top) = max top p := by
  split <;> omega

theorem addReady_spec (arranged : Arranged s.lists s.uxPriority s.uxTopReadyPriority view)
    (out : s.container (xStateListItem t) = none) :
    ∃ lists,
      s.prvAddTaskToReadyList t =
        { s with lists := lists, uxTopReadyPriority := max s.uxTopReadyPriority (s.uxPriority t) } ∧
      Arranged lists s.uxPriority (max s.uxTopReadyPriority (s.uxPriority t))
        (update view (pxReadyTasksLists (s.uxPriority t))
          ((view (pxReadyTasksLists (s.uxPriority t))).pushBack (xStateListItem t))) ∧
      Lists.Moved s.lists lists (xStateListItem t) (some (pxReadyTasksLists (s.uxPriority t))) := by
  have raised := arranged.raise (Nat.le_max_left s.uxTopReadyPriority (s.uxPriority t))
  obtain ⟨after, moved⟩ := raised.insertEnd (l := pxReadyTasksLists (s.uxPriority t)) out rfl
    (fun p eq => (TaskList.pxReadyTasksLists.inj eq) ▸ Nat.le_max_right _ _) (by simp [Delayed])
  refine ⟨_, ?_, after, moved⟩
  simp only [prvAddTaskToReadyList, taskRECORD_READY_PRIORITY, insertEnd, recorded]

/-- Out of the event list, if the task is in one. -/
theorem leaveEvent_spec (arranged : Arranged s.lists prio top view) :
    ∃ lists view', s.leaveEvent t = some { s with lists := lists } ∧ Arranged lists prio top view' ∧
      Lists.Moved s.lists lists (xEventListItem t) none ∧ ∀ k, Delayed k → view' k = view k := by
  unfold leaveEvent
  by_cases waits : s.container (xEventListItem t) ≠ none
  · obtain ⟨l, here⟩ := Option.ne_none_iff_exists'.mp waits
    obtain ⟨lists, call, after, moved⟩ := remove_spec arranged here
    refine ⟨lists, _, by rw [if_pos waits, call], after, moved, fun k delayed => update_of_ne ?_ ..⟩
    rintro rfl
    obtain ⟨u, eq⟩ := delayed.state (arranged.fits _ _ here)
    cases eq
  · have out : s.lists.pvContainer (xEventListItem t) = none := not_not.mp waits
    refine ⟨s.lists, view, if_neg waits, arranged, ⟨rfl, ?_⟩, fun _ _ => rfl⟩
    rw [← out, update_eq_self]

/-- A task that waited is ready, wherever it was and whatever it waited for. -/
theorem unblock_spec (arranged : Arranged s.lists s.uxPriority s.uxTopReadyPriority view)
    (here : s.container (xStateListItem t) = some l) :
    ∃ lists view',
      s.unblock t =
        some { s with lists := lists, uxTopReadyPriority := max s.uxTopReadyPriority (s.uxPriority t) } ∧
      Arranged lists s.uxPriority (max s.uxTopReadyPriority (s.uxPriority t)) view' ∧
      lists.pvContainer = update (update s.lists.pvContainer (xEventListItem t) none) (xStateListItem t)
        (some (pxReadyTasksLists (s.uxPriority t))) ∧
      lists.xItemValue = s.lists.xItemValue ∧
      ∀ k, Delayed k → (view' k).items = (view k).items.erase (xStateListItem t) := by
  obtain ⟨lists₁, call₁, arranged₁, moved₁⟩ := remove_spec arranged here
  obtain ⟨lists₂, view₂, call₂, arranged₂, moved₂, kept⟩ :=
    leaveEvent_spec (s := { s with lists := lists₁ }) (t := t) arranged₁
  have out : lists₂.pvContainer (xStateListItem t) = none := by
    rw [moved₂.pvContainer, update_of_ne (by simp), moved₁.pvContainer, update_self]
  obtain ⟨lists₃, call₃, arranged₃, moved₃⟩ := addReady_spec (s := { s with lists := lists₂ }) (t := t) arranged₂ out
  refine ⟨lists₃, _, ?_, arranged₃, ?_, ?_, ?_⟩
  · simp only [unblock, call₁, call₂, call₃, Option.bind_some, Option.map_some]
  · rw [moved₃.pvContainer]
    dsimp only
    rw [moved₂.pvContainer]
    dsimp only
    rw [moved₁.pvContainer, update_comm (by simp : xStateListItem t ≠ xEventListItem t), update_idem]
  · rw [moved₃.value, moved₂.value, moved₁.value]
  · intro k delayed
    rw [update_of_ne (by rcases delayed with rfl | rfl <;> simp), kept k delayed]
    by_cases eq : k = l
    · subst eq
      rw [update_self, Order.items_remove _ _ (arranged.holds.nodup (Set.mem_univ k))]
    · rw [update_of_ne eq, List.erase_of_not_mem]
      exact fun inside => eq (Option.some.inj ((arranged.contained.mp inside).symm.trans here))

end Tasks

end Bk7251.Kernel
