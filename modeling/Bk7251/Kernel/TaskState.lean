import Bk7251.Kernel.ListCalls
import Bk7251.Kernel.Tasks

/-!
# Where tasks are

The items of the tasks in the lists of the scheduler: which list holds what, in which order. Everything
depends on the lists, the priorities and the top ready priority alone.
-/
namespace Bk7251.Kernel

open ItemPtr Function

namespace Tasks

open TaskItem TaskList

variable {τ ε : Type} {lists : Lists (TaskItem τ) (TaskList ε)} {prio prio' : τ → Nat} {top : Nat}
  {view : TaskList ε → Order (TaskItem τ)} {l : TaskList ε} {i : TaskItem τ} {t : τ} {v : TickType} {p : Nat}

/-- One of the two lists of delayed tasks. -/
def Delayed (l : TaskList ε) : Prop := l = xDelayedTaskList1 ∨ l = xDelayedTaskList2

/-- Which items a list is for. -/
def Fits (prio : τ → Nat) : TaskList ε → TaskItem τ → Prop
  | pxReadyTasksLists p, xStateListItem t => prio t = p
  | xDelayedTaskList1, xStateListItem _ | xDelayedTaskList2, xStateListItem _ | xTasksWaitingTermination, xStateListItem _
  | xSuspendedTaskList, xStateListItem _ => True
  | xPendingReadyList, xEventListItem _ | event _, xEventListItem _ => True
  | _, _ => False

/-- The items are in lists that are for them, and the delayed ones in the order of their times. -/
structure Arranged (lists : Lists (TaskItem τ) (TaskList ε)) (prio : τ → Nat) (top : Nat)
    (view : TaskList ε → Order (TaskItem τ)) : Prop where
  holds : lists.Holds Set.univ view
  fits : ∀ i l, lists.pvContainer i = some l → Fits prio l i
  top : ∀ t p, lists.pvContainer (xStateListItem t) = some (pxReadyTasksLists p) → p ≤ top
  small : ∀ t, prio t < configMAX_PRIORITIES
  start : ∀ l, Delayed l → (view l).passed = []
  sorted : ∀ l, Delayed l →
    (view l).items.Pairwise fun i j => lists.listGET_LIST_ITEM_VALUE i ≤ lists.listGET_LIST_ITEM_VALUE j

theorem Delayed.state (delayed : Delayed l) (fits : Fits prio l i) : ∃ t, i = xStateListItem t := by
  rcases delayed with rfl | rfl
  · cases i with
    | xStateListItem t => exact ⟨t, rfl⟩
    | xEventListItem t => cases fits
  · cases i with
    | xStateListItem t => exact ⟨t, rfl⟩
    | xEventListItem t => cases fits

theorem Arranged.contained (arranged : Arranged lists prio top view) : i ∈ (view l).items ↔ lists.pvContainer i = some l :=
  arranged.holds.contained l (Set.mem_univ l) i

section

variable [DecidableEq τ] [DecidableEq ε]

/-! ### Moving an item -/

theorem Arranged.remove (arranged : Arranged lists prio top view) (here : lists.pvContainer i = some l) :
    ∃ lists' n, lists.uxListRemove i = some (lists', n) ∧
      Arranged lists' prio top (update view l ((view l).remove i)) ∧ Lists.Moved lists lists' i none := by
  obtain ⟨lists', call, holds, moved⟩ := Lists.uxListRemove_spec arranged.holds here
  have kept : ∀ j k, lists'.pvContainer j = some k → lists.pvContainer j = some k := by
    intro j k inside
    rw [moved.pvContainer] at inside
    by_cases eq : j = i
    · subst eq
      simp at inside
    · rwa [update_of_ne eq] at inside
  refine ⟨lists', _, call, ?_, moved⟩
  constructor
  case holds => exact holds
  case fits => exact fun j k inside => arranged.fits j k (kept j k inside)
  case top => exact fun t p inside => arranged.top t p (kept _ _ inside)
  case small => exact arranged.small
  case start =>
    intro k delayed
    by_cases eq : k = l
    · subst eq
      rw [update_self, Order.remove, arranged.start k delayed]
      rfl
    · rw [update_of_ne eq]
      exact arranged.start k delayed
  case sorted =>
    intro k delayed
    have values : lists'.listGET_LIST_ITEM_VALUE = lists.listGET_LIST_ITEM_VALUE := by
      funext j
      exact congrFun moved.value _
    rw [values]
    by_cases eq : k = l
    · subst eq
      rw [update_self, Order.items_remove _ _ (arranged.holds.nodup (Set.mem_univ k))]
      exact (arranged.sorted k delayed).sublist List.erase_sublist
    · rw [update_of_ne eq]
      exact arranged.sorted k delayed

omit [DecidableEq ε] in
theorem fits_update {container : TaskItem τ → Option (TaskList ε)} (all : ∀ j k, container j = some k → Fits prio k j)
    (own : Fits prio l i) : ∀ j k, update container i (some l) j = some k → Fits prio k j := by
  intro j k inside
  by_cases eq : j = i
  · subst eq
    rw [update_self] at inside
    exact Option.some.inj inside ▸ own
  · rw [update_of_ne eq] at inside
    exact all j k inside

/-- At the end of a list that is not sorted. -/
theorem Arranged.insertEnd (arranged : Arranged lists prio top view) (out : lists.pvContainer i = none)
    (own : Fits prio l i) (ready : ∀ p, l = pxReadyTasksLists p → p ≤ top) (other : ¬Delayed l) :
    Arranged (lists.vListInsertEnd l i) prio top (update view l ((view l).pushBack i)) ∧
      Lists.Moved lists (lists.vListInsertEnd l i) i (some l) := by
  obtain ⟨holds, moved⟩ := Lists.vListInsertEnd_spec arranged.holds (Set.mem_univ l) out
  refine ⟨?_, moved⟩
  constructor
  case holds => exact holds
  case fits =>
    rw [moved.pvContainer]
    exact fits_update arranged.fits own
  case top =>
    intro t p inside
    rw [moved.pvContainer] at inside
    by_cases eq : xStateListItem t = i
    · subst eq
      rw [update_self] at inside
      exact ready p (Option.some.inj inside)
    · rw [update_of_ne eq] at inside
      exact arranged.top t p inside
  case small => exact arranged.small
  case start =>
    intro k delayed
    rw [update_of_ne (fun eq => other (eq ▸ delayed) : k ≠ l)]
    exact arranged.start k delayed
  case sorted =>
    intro k delayed
    rw [update_of_ne (fun eq => other (eq ▸ delayed) : k ≠ l)]
    exact arranged.sorted k delayed

/-- In its place in a list. -/
theorem Arranged.insert (arranged : Arranged lists prio top view) (out : lists.pvContainer i = none)
    (own : Fits prio l i) (notReady : ∀ p, l ≠ pxReadyTasksLists p) :
    ∃ lists', lists.vListInsert l i = some lists' ∧
      Arranged lists' prio top (update view l ((view l).insertBy
        (fun j => lists.listGET_LIST_ITEM_VALUE j ≤ lists.listGET_LIST_ITEM_VALUE i) i)) ∧
      Lists.Moved lists lists' i (some l) := by
  obtain ⟨lists', call, holds, moved⟩ := Lists.vListInsert_spec arranged.holds (Set.mem_univ l) out
  refine ⟨lists', call, ?_, moved⟩
  have values : lists'.listGET_LIST_ITEM_VALUE = lists.listGET_LIST_ITEM_VALUE := by
    funext j
    exact congrFun moved.value _
  constructor
  case holds => exact holds
  case fits =>
    rw [moved.pvContainer]
    exact fits_update arranged.fits own
  case top =>
    intro t p inside
    rw [moved.pvContainer] at inside
    by_cases eq : xStateListItem t = i
    · subst eq
      rw [update_self] at inside
      exact absurd (Option.some.inj inside) (notReady p)
    · rw [update_of_ne eq] at inside
      exact arranged.top t p inside
  case small => exact arranged.small
  case start =>
    intro k delayed
    by_cases eq : k = l
    · subst eq
      rw [update_self, Order.insertBy, arranged.start k delayed]
      rfl
    · rw [update_of_ne eq]
      exact arranged.start k delayed
  case sorted =>
    intro k delayed
    rw [values]
    by_cases eq : k = l
    · subst eq
      rw [update_self, Order.items_insertBy]
      exact Order.sorted_insert i (arranged.sorted k delayed)
    · rw [update_of_ne eq]
      exact arranged.sorted k delayed

/-- The value of an item that is in no list of delayed tasks. -/
theorem Arranged.setValue (arranged : Arranged lists prio top view)
    (elsewhere : ∀ l, Delayed l → lists.pvContainer i ≠ some l) :
    Arranged (lists.listSET_LIST_ITEM_VALUE i v) prio top view := by
  constructor
  case holds => exact Lists.listSET_LIST_ITEM_VALUE_spec arranged.holds v
  case fits => exact arranged.fits
  case top => exact arranged.top
  case small => exact arranged.small
  case start => exact arranged.start
  case sorted =>
    intro k delayed
    refine (arranged.sorted k delayed).imp_of_mem fun {x y} insideX insideY order => ?_
    have kept : ∀ z ∈ (view k).items,
        (lists.listSET_LIST_ITEM_VALUE i v).listGET_LIST_ITEM_VALUE z = lists.listGET_LIST_ITEM_VALUE z := by
      intro z inside
      have ne : z ≠ i := by
        rintro rfl
        exact elsewhere k delayed (arranged.contained.mp inside)
      exact update_of_ne (by simpa using ne) ..
    rwa [kept x insideX, kept y insideY]

omit [DecidableEq τ] [DecidableEq ε] in
/-- Another priority for a task that is in no ready list. -/
theorem Arranged.setPriority (arranged : Arranged lists prio top view) (same : ∀ u, u ≠ t → prio' u = prio u)
    (elsewhere : ∀ p, lists.pvContainer (xStateListItem t) ≠ some (pxReadyTasksLists p))
    (small : prio' t < configMAX_PRIORITIES) : Arranged lists prio' top view := by
  constructor
  case holds => exact arranged.holds
  case fits =>
    intro j k inside
    have fits := arranged.fits j k inside
    cases j with
    | xEventListItem u => cases k <;> exact fits
    | xStateListItem u =>
      cases k with
      | pxReadyTasksLists p =>
        have ne : u ≠ t := by
          rintro rfl
          exact elsewhere p inside
        exact (same u ne).trans fits
      | _ => exact fits
  case top => exact arranged.top
  case small =>
    intro u
    by_cases eq : u = t
    · exact eq ▸ small
    · exact same u eq ▸ arranged.small u
  case start => exact arranged.start
  case sorted => exact arranged.sorted

omit [DecidableEq τ] [DecidableEq ε] in
theorem Arranged.raise (arranged : Arranged lists prio top view) {top' : Nat} (higher : top ≤ top') :
    Arranged lists prio top' view :=
  { arranged with top := fun t p inside => Nat.le_trans (arranged.top t p inside) higher }

end

end Tasks

end Bk7251.Kernel
