import Bk7251.Kernel.TaskSound

/-!
# Time passes

A tick, a step of the tick count after a sleep, and the ticks and the tasks that were held back while the scheduler
was suspended. Ticks that are unwound later do what they would have done in time.
-/
namespace Bk7251.Kernel

open ItemPtr Function

namespace Tasks

open TaskItem TaskList

variable {τ ε : Type} [DecidableEq τ] [DecidableEq ε] {s s' s'' : Tasks τ ε} {t idle : τ} {punctual : Prop} {y y' : Bool} {k j : Nat}
  {touched touched' : τ → Prop}

/-! ### One after the other -/

omit [DecidableEq τ] [DecidableEq ε] in
theorem Stays.trans (first : Stays k s s' t) (second : Stays j s' s'' t) : Stays (k + j) s s'' t := by
  constructor
  case waits =>
    intro waits before
    obtain ⟨waits', left⟩ := first.waits waits (by omega)
    obtain ⟨waits'', left'⟩ := second.waits waits' (by omega)
    exact ⟨waits'', by omega⟩
  case expires =>
    intro waits late
    by_cases early : (s.ticksLeft t).toNat ≤ k
    · exact second.ready (first.expires waits early)
    · obtain ⟨waits', left⟩ := first.waits waits (by omega)
      exact second.expires waits' (by omega)
  case ready => exact fun ready => second.ready (first.ready ready)

omit [DecidableEq τ] [DecidableEq ε] in
theorem Goes.trans (first : Goes punctual idle s s' y k touched) (second : Goes punctual idle s' s'' y' j touched) :
    Goes punctual idle s s'' (y || y') (k + j) touched := by
  constructor
  case sound => exact second.sound
  case pending => exact fun yes => second.pending (first.pending yes)
  case settled =>
    intro settled no quiet
    obtain ⟨no₁, no₂⟩ := Bool.or_eq_false_iff.mp no
    have quiet₁ : s'.xYieldPending = false := by
      by_contra asks
      exact absurd (second.pending (by simpa using asks)) (by simp [quiet])
    exact second.settled (first.settled settled no₁ quiet₁) no₂ quiet
  case stays => exact fun punct t far => (first.stays punct t far).trans (second.stays punct t far)

omit [DecidableEq τ] [DecidableEq ε] in
theorem Goes.mono (goes : Goes punctual idle s s' y k touched) (more : ∀ t, touched t → touched' t) :
    Goes punctual idle s s' y k touched' :=
  { goes with stays := fun punct t far => goes.stays punct t fun own => far (more t own) }

omit [DecidableEq τ] [DecidableEq ε] in
/-- A switch that is needed is remembered. -/
theorem Goes.remember (goes : Goes punctual idle s s' y k touched) (asked : Bool) (asks : y = true → asked = true) :
    Goes punctual idle s { s' with xYieldPending := s'.xYieldPending || asked } false k touched := by
  constructor
  case sound => exact goes.sound.flags
  case pending =>
    intro yes
    change (s'.xYieldPending || asked) = true
    rw [goes.pending yes, Bool.true_or]
  case settled =>
    intro settled _ quiet
    obtain ⟨quiet', unasked⟩ := Bool.or_eq_false_iff.mp quiet
    have no : y = false := by
      by_contra yes
      exact absurd (asks (by simpa using yes)) (by simp [unasked])
    have settled' := goes.settled settled no quiet'
    exact ⟨settled'.running, settled'.highest⟩
  case stays =>
    intro punct t far
    have stays := goes.stays punct t far
    exact ⟨stays.waits, stays.expires, stays.ready⟩

/-! ### Ticks -/

omit [DecidableEq τ] [DecidableEq ε] in
theorem Places.wakeUp {prio : τ → Nat} {suspended : Nat} {c : TaskItem τ → Option (TaskList ε)} {woken : τ → Prop}
    [DecidablePred woken] (places : Places idle prio suspended c) :
    Places idle prio suspended (Tasks.wakeUp woken prio c) := by
  constructor
  case waiting =>
    intro t l inside
    by_cases wakes : woken t
    · exact absurd ((if_pos wakes).symm.trans inside) (by simp)
    · simp only [Tasks.wakeUp, if_neg wakes] at inside ⊢
      exact places.waiting t l inside
  case pending =>
    intro running t inside
    by_cases wakes : woken t
    · exact absurd ((if_pos wakes).symm.trans inside) (by simp)
    · simp only [Tasks.wakeUp, if_neg wakes] at inside
      exact places.pending running t inside
  case idle =>
    by_cases wakes : woken idle
    · exact if_pos wakes
    · exact (if_neg wakes).trans places.idle

/-- A tick, whatever has been pended. -/
theorem advanceTick_goes (sound : Sound punctual idle { s with uxPendedTicks := 0 }) :
    ∃ s' y, s.advanceTick = some (s', y) ∧
      Goes punctual idle { s with uxPendedTicks := 0 } { s' with uxPendedTicks := 0 } y 1 (fun _ => False) ∧
      s'.uxSchedulerSuspended = s.uxSchedulerSuspended ∧ s'.uxPendedTicks = s.uxPendedTicks ∧
      s'.xTickCount = s.xTickCount + 1 := by
  obtain ⟨view, arranged⟩ := sound.arranged
  obtain ⟨lists, top, d, o, n, next, view', sw, woken, call, arranged', value, container, turns, quiet, onTime⟩ :=
    advanceTick_spec (s := s) arranged sound.turns
  have values : lists.listGET_LIST_ITEM_VALUE = s.itemValue := by
    funext i
    exact congrFun value _
  have wakes : ∀ t, woken t = true →
      lists.pvContainer (xStateListItem t) = some (pxReadyTasksLists (s.uxPriority t)) := by
    intro t yes
    rw [container]
    exact if_pos yes
  have still : ∀ t, woken t ≠ true → lists.pvContainer (xStateListItem t) = s.container (xStateListItem t) := by
    intro t sleeps
    rw [container]
    exact if_neg sleeps
  have ready : ∀ t, s.Ready t → lists.pvContainer (xStateListItem t) = some (pxReadyTasksLists (s.uxPriority t)) := by
    intro t here
    by_cases yes : woken t = true
    · exact wakes t yes
    · exact (still t yes).trans here
  refine ⟨_, sw, call, ⟨⟨⟨view', arranged'⟩, turns, fun punct => ?_, ?_, fun _ => rfl, sound.base⟩, id, ?_,
    fun punct t _ => ?_⟩, rfl, rfl, rfl⟩
  · exact (onTime (sound.onTime punct)).2.values fun t => congrFun values _
  · change Places _ _ _ lists.pvContainer
    rw [container]
    exact sound.places.wakeUp
  · intro settled no _
    refine ⟨ready _ settled.running, fun t there => ?_⟩
    by_cases yes : woken t = true
    · exact Nat.le_of_lt (quiet no t yes)
    · exact settled.highest t ((still t yes).symm.trans there)
  · obtain ⟨expires, -⟩ := onTime (sound.onTime punct)
    have left : (lists.listGET_LIST_ITEM_VALUE (xStateListItem t) - (s.xTickCount + 1)) = s.ticksLeft t - 1 := by
      rw [values, ticksLeft]
      grind
    constructor
    case waits =>
      intro waits before
      have sleeps : woken t ≠ true := fun yes => absurd before (by
        change ¬1 < (s.ticksLeft t).toNat
        rw [((expires t).mp yes).2]
        decide)
      refine ⟨?_, ?_⟩
      · exact waits.imp (still t sleeps).trans (still t sleeps).trans
      · change (lists.listGET_LIST_ITEM_VALUE (xStateListItem t) - (s.xTickCount + 1)).toNat = _
        rw [left, UInt32.toNat_sub_of_le]
        · rfl
        · exact UInt32.le_iff_toNat_le.mpr (Nat.le_of_lt before)
    case expires =>
      intro waits late
      have some := UInt32.lt_iff_toNat_lt.mp ((sound.onTime punct).ticksLeft_pos waits)
      exact wakes t ((expires t).mpr ⟨waits, UInt32.toNat_inj.mp (Nat.le_antisymm late some)⟩)
    case ready => exact ready t

omit [DecidableEq τ] [DecidableEq ε] in
/-- The tick count is stepped over no task's time. -/
theorem vTaskStepTick_goes (sound : s.Sound punctual idle) (n : TickType)
    (before : punctual → s.xTickCount.toNat + n.toNat < s.xNextTaskUnblockTime.toNat) :
    Goes punctual idle s (s.vTaskStepTick n) false n.toNat fun _ => False := by
  have stepped (punct : punctual) : (s.xTickCount + n).toNat = s.xTickCount.toNat + n.toNat := by
    rw [UInt32.toNat_add]
    exact Nat.mod_eq_of_lt (Nat.lt_trans (before punct) s.xNextTaskUnblockTime.toNat_lt)
  constructor
  case sound =>
    refine ⟨sound.arranged, sound.turns, fun punct => ⟨sound.turns, fun t here => ?_, fun t there => ?_⟩, sound.places,
      sound.pended, sound.base⟩
    · have next := ((sound.onTime punct).later t here).2
      refine ⟨UInt32.lt_of_lt_of_le ?_ next, next⟩
      rw [UInt32.lt_iff_toNat_lt]
      exact (stepped punct).symm ▸ before punct
    · have early := (sound.onTime punct).overflowed t there
      rw [UInt32.lt_iff_toNat_lt] at early ⊢
      exact Nat.lt_of_lt_of_le early ((stepped punct).symm ▸ Nat.le_add_right _ _)
  case pending => exact id
  case settled => exact fun settled _ _ => ⟨settled.running, settled.highest⟩
  case stays =>
    intro punct t _
    -- what is left of a time in this turn or the next
    have left : s.Waits t → n.toNat < (s.ticksLeft t).toNat ∧
        (s.itemValue (xStateListItem t) - (s.xTickCount + n)).toNat = (s.ticksLeft t).toNat - n.toNat := by
      intro waits
      have value := (s.itemValue (xStateListItem t)).toNat_lt
      have count := before punct
      have bound := s.xNextTaskUnblockTime.toNat_lt
      rw [ticksLeft, UInt32.toNat_sub, UInt32.toNat_sub, stepped punct]
      rcases (waits_iff sound.turns).mp waits with here | there
      · obtain ⟨-, next⟩ := (sound.onTime punct).later t here
        rw [UInt32.le_iff_toNat_le] at next
        omega
      · have early := (sound.onTime punct).overflowed t there
        rw [UInt32.lt_iff_toNat_lt] at early
        omega
    constructor
    case waits => exact fun waits _ => ⟨waits, (left waits).2⟩
    case expires => exact fun waits late => absurd (left waits).1 (Nat.not_lt.mpr late)
    case ready => exact id

theorem xTaskIncrementTick_goes (sound : s.Sound punctual idle) :
    ∃ s' y, s.xTaskIncrementTick = some (s', y) ∧
      Goes punctual idle s s' y (if s.uxSchedulerSuspended = 0 then 1 else 0) fun _ => False := by
  unfold xTaskIncrementTick
  by_cases running : s.uxSchedulerSuspended = 0
  · rw [if_pos running, if_pos running]
    have none := sound.pended running
    have same : { s with uxPendedTicks := 0 } = s := by rw [← none]
    obtain ⟨s', y, call, goes, -, pended, -⟩ := advanceTick_goes (s := s) (same.symm ▸ sound)
    have same' : { s' with uxPendedTicks := 0 } = s' := by rw [← none, ← pended]
    rw [same, same'] at goes
    rw [call, Option.map_some]
    refine ⟨s', _, rfl, goes.sound, goes.pending, fun settled no quiet => ?_, goes.stays⟩
    exact goes.settled settled (Bool.or_eq_false_iff.mp no).1 quiet
  · rw [if_neg running, if_neg running, Option.map_some]
    have same : Goes punctual idle s s false 0 fun _ => False := .refl sound
    refine ⟨_, _, rfl, ⟨sound.arranged, sound.turns, sound.onTime, sound.places, fun now => absurd now running,
      sound.base⟩, id, fun settled _ _ => ⟨settled.running, settled.highest⟩, fun punct t far => ?_⟩
    have stays := same.stays punct t far
    exact ⟨stays.waits, stays.expires, stays.ready⟩

/-- Ticks that were pended. -/
theorem unwindTicks_goes {n : Nat} (sound : Sound punctual idle { s with uxPendedTicks := 0 })
    (running : s.uxSchedulerSuspended = 0) :
    ∃ s', unwindTicks n s = some s' ∧
      Goes punctual idle { s with uxPendedTicks := 0 } { s' with uxPendedTicks := 0 } false n fun _ => False := by
  induction n generalizing s with
  | zero => exact ⟨s, rfl, .refl sound⟩
  | succ n ih =>
    obtain ⟨s₁, y, call, goes, suspended, -, -⟩ := advanceTick_goes sound
    obtain ⟨asked, asks⟩ : ∃ asked, asked = (y || s₁.xYieldPending) := ⟨_, rfl⟩
    have first := goes.remember asked (fun yes => by rw [asks, yes, Bool.true_or])
    obtain ⟨s', calls, later⟩ := ih (s := { s₁ with xYieldPending := s₁.xYieldPending || asked }) first.sound
      (suspended.trans running)
    refine ⟨s', ?_, ?_⟩
    · rw [unwindTicks, xTaskIncrementTick, if_pos running, call]
      simp only [Option.map_some, Option.bind_some, ← asks]
      exact calls
    · rw [Nat.add_comm]
      exact first.trans later

/-! ### Held tasks -/

theorem drainPending_suspended (n : Nat) (s : Tasks τ ε) (any : Bool) (k : Nat) :
    drainPending n { s with uxSchedulerSuspended := k } any =
      (drainPending n s any).map fun p => ({ p.1 with uxSchedulerSuspended := k }, p.2) := by
  induction n generalizing s any with
  | zero => rfl
  | succ n ih =>
    rw [drainPending, drainPending]
    dsimp only
    split
    · rfl
    · cases s.lists.listGET_OWNER_OF_HEAD_ENTRY xPendingReadyList with
      | none => rfl
      | some i =>
        simp only [Option.bind_some, remove]
        cases s.lists.uxListRemove (xEventListItem i.pvOwner) with
        | none => rfl
        | some first =>
          simp only [Option.map_some, Option.bind_some]
          cases first.1.uxListRemove (xStateListItem i.pvOwner) with
          | none => rfl
          | some second =>
            exact ih { { s with lists := second.1 }.prvAddTaskToReadyList i.pvOwner with
              xYieldPending := s.xYieldPending ||
                decide (s.uxPriority i.pvOwner ≥ s.uxPriority s.pxCurrentTCB) } true

/-- The task is held until the scheduler is resumed. -/
def Held (s : Tasks τ ε) (t : τ) : Prop := s.container (xEventListItem t) = some xPendingReadyList

instance (s : Tasks τ ε) : DecidablePred s.Held := fun _ => inferInstanceAs (Decidable (_ = _))

omit [DecidableEq ε] in
/-- One task less is held. -/
theorem held_fewer (sound : s.Sound punctual idle) (sound' : s'.Sound punctual idle) (own : s.Held t)
    (fewer : ∀ u, s'.Held u → u ≠ t ∧ s.Held u) :
    s'.lists.listCURRENT_LIST_LENGTH xPendingReadyList < s.lists.listCURRENT_LIST_LENGTH xPendingReadyList := by
  obtain ⟨view, arranged⟩ := sound.arranged
  obtain ⟨view', arranged'⟩ := sound'.arranged
  rw [Lists.listCURRENT_LIST_LENGTH, Lists.listCURRENT_LIST_LENGTH, arranged.holds.count _ (Set.mem_univ _),
    arranged'.holds.count _ (Set.mem_univ _)]
  have member : xEventListItem t ∈ (view xPendingReadyList).items := arranged.contained.mpr own
  have within : (view' xPendingReadyList).items ⊆ (view xPendingReadyList).items.erase (xEventListItem t) := by
    intro i inside
    have here := arranged'.contained.mp inside
    have fits := arranged'.fits i _ here
    cases i with
    | xStateListItem u => cases fits
    | xEventListItem u =>
      obtain ⟨ne, before⟩ := fewer u here
      exact (List.mem_erase_of_ne (by simpa using ne)).mpr (arranged.contained.mpr before)
  have shorter := ((arranged'.holds.nodup (Set.mem_univ _)).subperm within).length_le
  rw [List.length_erase_of_mem member] at shorter
  have positive := List.length_pos_of_mem member
  omega

/-- Every task that is held is ready. -/
theorem drainPending_goes {n : Nat} {b : Bool} (sound : s.Sound punctual idle)
    (enough : s.lists.listCURRENT_LIST_LENGTH xPendingReadyList < n) :
    ∃ s' any', drainPending n s b = some (s', any') ∧ Goes punctual idle s s' false 0 s.Held ∧
      s'.uxSchedulerSuspended = s.uxSchedulerSuspended ∧ s'.uxPendedTicks = s.uxPendedTicks ∧ ∀ t, ¬s'.Held t := by
  induction n generalizing s b with
  | zero => exact absurd enough (Nat.not_lt_zero _)
  | succ n ih =>
    obtain ⟨view, arranged⟩ := sound.arranged
    have empty := Lists.isEmpty_spec arranged.holds (Set.mem_univ xPendingReadyList)
    have head := (Lists.head_spec arranged.holds (Set.mem_univ xPendingReadyList)).1
    rw [drainPending, empty, head]
    cases items : (view xPendingReadyList).items with
    | nil =>
      refine ⟨s, b, rfl, .refl sound, rfl, rfl, fun t held => ?_⟩
      exact absurd (arranged.contained.mpr held) (by simp [items])
    | cons i rest =>
      have inside : s.container i = some xPendingReadyList := arranged.contained.mp (items ▸ List.mem_cons_self)
      obtain ⟨t, rfl⟩ : ∃ t, i = xEventListItem t := by
        have fits := arranged.fits _ _ inside
        cases i with
        | xStateListItem t => cases fits
        | xEventListItem t => exact ⟨t, rfl⟩
      obtain ⟨s₁, call₁, sound₁, keeps₁, same₁, places₁⟩ := remove_event_sound sound inside
      have blocked := sound.places.waiting t _ inside
      obtain ⟨l, here⟩ := blocked.exists_eq
      have state : s₁.container (xStateListItem t) = some l := by
        rw [places₁, update_of_ne (by simp)]
        exact here
      obtain ⟨s₂, call₂, sound₂, keeps₂, same₂, events₂⟩ :=
        requeue_sound sound₁ state (by rw [places₁, update_self])
      obtain ⟨s₃, removed, rfl⟩ := Option.map_eq_some_iff.mp call₂
      have current : s₃.pxCurrentTCB = s.pxCurrentTCB := keeps₂.current.trans keeps₁.current
      have priority : s₃.uxPriority = s.uxPriority := same₂.trans same₁
      have first : Goes punctual idle s { s₃.prvAddTaskToReadyList t with
          xYieldPending := s₃.xYieldPending || decide (s₃.uxPriority t ≥ s₃.uxPriority s₃.pxCurrentTCB) } false 0 (· = t) := by
        refine (keeps₁.trans keeps₂).goes sound sound₂ (fun yes => ?_) fun settled _ quiet => ?_
        · have pending : s₃.xYieldPending = s.xYieldPending := keeps₂.pending.trans keeps₁.pending
          rw [pending, yes, Bool.true_or]
        · refine ⟨settled.blocked_ne blocked, fun _ => Nat.le_of_not_le ?_⟩
          have low := of_decide_eq_false (Bool.or_eq_false_iff.mp quiet).2
          rw [current, priority] at low
          exact priority ▸ low
      have fewer : ∀ u, Held { s₃.prvAddTaskToReadyList t with
          xYieldPending := s₃.xYieldPending || decide (s₃.uxPriority t ≥ s₃.uxPriority s₃.pxCurrentTCB) } u →
          u ≠ t ∧ s.Held u := by
        intro u held
        have before := (events₂ u).symm.trans held
        rw [places₁] at before
        by_cases eq : u = t
        · subst eq
          simp at before
        · rw [update_of_ne (by simpa using eq)] at before
          exact ⟨eq, before⟩
      obtain ⟨s', any', calls, later, suspended, pended, none⟩ := ih (b := true) first.sound
        (Nat.lt_of_lt_of_le (held_fewer sound first.sound inside fewer) (Nat.le_of_lt_succ enough))
      refine ⟨s', any', ?_, (first.mono fun u eq => eq ▸ inside).trans (later.mono fun u held => (fewer u held).2),
        suspended.trans (keeps₂.suspended.trans keeps₁.suspended), pended.trans (keeps₂.pended.trans keeps₁.pended), none⟩
      rw [← calls]
      simp only [List.isEmpty_cons, Bool.false_eq_true, if_false, List.head?_cons, Option.bind_some, TaskItem.pvOwner,
        call₁, removed]
      rfl

/-! ### The scheduler is suspended and resumed -/

omit [DecidableEq τ] [DecidableEq ε] in
theorem vTaskSuspendAll_goes (sound : s.Sound punctual idle) : Goes punctual idle s s.vTaskSuspendAll false 0 fun _ => False := by
  have same : Goes punctual idle s s false 0 fun _ => False := .refl sound
  refine ⟨⟨sound.arranged, sound.turns, sound.onTime, ?_, fun no => absurd no (Nat.succ_ne_zero _), sound.base⟩, id,
    fun settled _ _ => ⟨settled.running, settled.highest⟩, fun punct t far => ?_⟩
  · exact ⟨sound.places.waiting, fun no => absurd no (Nat.succ_ne_zero _), sound.places.idle⟩
  · have stays := same.stays punct t far
    exact ⟨stays.waits, stays.expires, stays.ready⟩

/-- The held tasks are ready and the pended ticks are counted. -/
theorem xTaskResumeAll_goes (sound : s.Sound punctual idle) (suspended : s.uxSchedulerSuspended ≠ 0) :
    ∃ s' y, s.xTaskResumeAll = some (s', y) ∧
      Goes punctual idle s s' y (if s.uxSchedulerSuspended = 1 then s.uxPendedTicks.toNat else 0) s.Held := by
  unfold xTaskResumeAll
  by_cases last : s.uxSchedulerSuspended = 1
  · obtain ⟨s₁, any, drained, goes, -, pended, none⟩ := drainPending_goes (b := false) sound (Nat.lt_add_one _)
    obtain ⟨next, reset, sound₂⟩ : ∃ next,
        (if any = true then { s₁ with uxSchedulerSuspended := 0 }.prvResetNextTaskUnblockTime
          else some { s₁ with uxSchedulerSuspended := 0 }) =
            some { s₁ with uxSchedulerSuspended := 0, xNextTaskUnblockTime := next } ∧
        Sound punctual idle { s₁ with uxSchedulerSuspended := 0, xNextTaskUnblockTime := next, uxPendedTicks := 0 } := by
      obtain ⟨view, arranged⟩ := goes.sound.arranged
      have places : Places idle s₁.uxPriority 0 s₁.container :=
        ⟨goes.sound.places.waiting, fun _ => none, goes.sound.places.idle⟩
      by_cases drainedAny : any = true
      · obtain ⟨next, call, least⟩ := prvResetNextTaskUnblockTime_spec (s := { s₁ with uxSchedulerSuspended := 0 })
          arranged goes.sound.turns.delayed.1
        exact ⟨next, (if_pos drainedAny).trans call, ⟨⟨view, arranged⟩, goes.sound.turns,
          fun punct => (goes.sound.onTime punct).reset least, places, fun _ => rfl, goes.sound.base⟩⟩
      · exact ⟨s₁.xNextTaskUnblockTime, if_neg drainedAny,
          ⟨⟨view, arranged⟩, goes.sound.turns, goes.sound.onTime, places, fun _ => rfl, goes.sound.base⟩⟩
    obtain ⟨s', unwound, later⟩ := unwindTicks_goes (n := s₁.uxPendedTicks.toNat)
      (s := { s₁ with uxSchedulerSuspended := 0, xNextTaskUnblockTime := next }) sound₂ rfl
    have between : Goes punctual idle s₁
        { s₁ with uxSchedulerSuspended := 0, xNextTaskUnblockTime := next, uxPendedTicks := 0 } false 0 s.Held := by
      have same : Goes punctual idle s₁ s₁ false 0 s.Held := .refl goes.sound
      refine ⟨sound₂, id, fun settled _ _ => ⟨settled.running, settled.highest⟩, fun punct t far => ?_⟩
      have stays := same.stays punct t far
      exact ⟨stays.waits, stays.expires, stays.ready⟩
    have all := (goes.trans between).trans (later.mono fun _ no => no.elim)
    refine ⟨{ s' with uxPendedTicks := 0 }, s'.xYieldPending, ?_, ?_⟩
    · simp only [last, Nat.sub_self, if_true, drainPending_suspended, drained, Option.map_some, Option.bind_some, reset,
        unwound]
    · rw [if_pos last, ← pended, ← Nat.zero_add s₁.uxPendedTicks.toNat]
      exact ⟨all.sound, all.pending, fun settled _ quiet => all.settled settled rfl quiet, all.stays⟩
  · rw [if_neg last]
    have held : s.uxSchedulerSuspended - 1 ≠ 0 := by omega
    have same : Goes punctual idle s s false 0 s.Held := .refl sound
    refine ⟨{ s with uxSchedulerSuspended := s.uxSchedulerSuspended - 1 }, false, if_neg held,
      ⟨⟨sound.arranged, sound.turns, sound.onTime, ?_, fun no => absurd no held, sound.base⟩, id,
        fun settled _ _ => ⟨settled.running, settled.highest⟩, fun punct t far => ?_⟩⟩
    · exact ⟨sound.places.waiting, fun no => absurd no held, sound.places.idle⟩
    · have stays := same.stays punct t far
      exact ⟨stays.waits, stays.expires, stays.ready⟩

/-- The next task is selected, or selected later while the scheduler is suspended. -/
theorem vTaskSwitchContext_goes (sound : s.Sound punctual idle) :
    ∃ s', s.vTaskSwitchContext = some s' ∧ s'.Sound punctual idle ∧ (s'.xYieldPending = false → s'.Settled) ∧
      (punctual → ∀ t, Stays 0 s s' t) := by
  have same : Goes punctual idle s s false 0 fun _ => False := .refl sound
  unfold vTaskSwitchContext
  by_cases suspended : s.uxSchedulerSuspended ≠ 0
  · rw [if_pos suspended]
    refine ⟨_, rfl, sound.flags, fun no => absurd no (by simp), fun punct t => ?_⟩
    have stays := same.stays punct t id
    exact ⟨stays.waits, stays.expires, stays.ready⟩
  · rw [if_neg suspended]
    obtain ⟨view, arranged⟩ := sound.arranged
    obtain ⟨lists, u, call, arranged', container, value, inside, -, highest⟩ :=
      select_spec (s := { s with xYieldPending := false }) arranged sound.places.idle
    have values : ∀ i, lists.listGET_LIST_ITEM_VALUE i = s.itemValue i := fun i => congrFun value _
    refine ⟨_, call, ⟨⟨_, arranged'⟩, sound.turns, fun punct => ?_, ?_, sound.pended, sound.base⟩,
      fun _ => ⟨?_, fun t ready => ?_⟩, fun punct t => ?_⟩
    · change Timely lists.pvContainer lists.listGET_LIST_ITEM_VALUE _ _ _ _
      rw [container]
      exact (sound.onTime punct).values fun t => values _
    · change Places _ _ _ lists.pvContainer
      rw [container]
      exact sound.places
    · exact (congrFun container _).trans inside
    · exact highest t _ ((congrFun container _).symm.trans ready)
    · have stays := same.stays punct t id
      have waits : (lists.pvContainer (xStateListItem t) = some xDelayedTaskList1 ∨
          lists.pvContainer (xStateListItem t) = some xDelayedTaskList2) ↔ s.Waits t := by
        rw [container]
        rfl
      constructor
      case waits => exact fun there _ => ⟨waits.mpr there, congrArg UInt32.toNat (congrArg (· - s.xTickCount) (values _))⟩
      case expires => exact fun there late => (congrFun container _).trans (stays.expires there late)
      case ready => exact fun ready => (congrFun container _).trans ready

end Tasks

end Bk7251.Kernel
