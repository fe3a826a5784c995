import Bk7251.Lib.Machine
import Bk7251.TempDetect.TempDetect

/-!
# Detection goes on

From the timer through the poll message, the conversion and the interrupt message back to the timer there
is always something that leads on, in every run in which a restart is not overtaken by a pause that is
still queued, an interrupt message finds a free slot, and the change of the interval changes it.
-/
namespace Bk7251.TempDetect

open Lib

/-- A restart comes after the last pause. -/
def Restarts : List TempMsg → Prop
  | [] => False
  | msg :: rest => Restarts rest ∨ msg = .TMPD_RESTART_TIMER ∧ .TMPD_PAUSE_TIMER ∉ rest

instance : (pending : List TempMsg) → Decidable (Restarts pending)
  | [] => isFalse id
  | _ :: rest =>
    have : Decidable (Restarts rest) := instDecidableRestarts rest
    inferInstanceAs (Decidable (_ ∨ _))

theorem Restarts.append {pending more : List TempMsg} (calm : .TMPD_PAUSE_TIMER ∉ more)
    (restarts : Restarts pending) : Restarts (pending ++ more) := by
  induction pending with
  | nil => exact absurd restarts id
  | cons msg rest ih =>
    refine restarts.imp ih fun last => ⟨last.1, ?_⟩
    show .TMPD_PAUSE_TIMER ∉ rest ++ more
    rw [List.mem_append, not_or]
    exact ⟨last.2, calm⟩

theorem Restarts.snoc (pending : List TempMsg) : Restarts (pending ++ [.TMPD_RESTART_TIMER]) := by
  induction pending with
  | nil => exact .inr ⟨rfl, List.not_mem_nil⟩
  | cons msg rest ih => exact .inl ih

theorem Restarts.mem {pending : List TempMsg} (restarts : Restarts pending) :
    .TMPD_RESTART_TIMER ∈ pending := by
  induction pending with
  | nil => exact absurd restarts id
  | cons msg rest ih =>
    obtain later | ⟨rfl, _⟩ := restarts
    · exact List.mem_cons_of_mem msg (ih later)
    · exact List.mem_cons_self

namespace Detect

/-- The message being processed and the queued ones, in order. -/
def pending (s : Detect) : List TempMsg := s.task.toList ++ s.msgQue

/-- Detection is paused, or something leads on. -/
def Alive (s : Detect) : Prop :=
  s.wanted = true → s.timer = true ∨ s.sampling = true ∨ ∃ msg ∈ s.pending, msg ≠ .TMPD_PAUSE_TIMER

instance (s : Detect) : Decidable s.Alive := by
  unfold Alive
  infer_instance

/-- What a step needs in order to lose nothing: a restart request no pause behind which no restart is
queued yet, or a stopped timer and a free slot; the last sample a free slot; the change of the interval
another interval, unless something else leads on. -/
def Sound (s : Detect) : Event → Prop
  | .restartDetect => .TMPD_PAUSE_TIMER ∉ s.pending ∨ Restarts s.pending ∨
      s.timer = false ∧ s.msgQue.length < TEMP_DET_QITEM_COUNT
  | .complete => s.sampling = true → s.msgQue.length < TEMP_DET_QITEM_COUNT
  | .process _ => s.wanted = true → s.task = some .TMPD_CHANGE_PARAM →
      s.detectIntval.toUInt32 ≠ ADC_TMEP_DETECT_INTVAL ∨ s.timer = true ∨ s.sampling = true ∨
        ∃ msg ∈ s.msgQue, msg ≠ .TMPD_PAUSE_TIMER
  | _ => True

instance (s : Detect) : (e : Event) → Decidable (s.Sound e)
  | .restartDetect => inferInstanceAs (Decidable (_ ∨ _))
  | .complete => inferInstanceAs (Decidable (_ → _))
  | .process _ => inferInstanceAs (Decidable (_ → _))
  | .expiry | .pop | .pauseTimer | .changeConfiguration .. | .singleOpen | .singleClose => isTrue trivial

end Detect

/-- What carries detection on: an open handle ends in an interrupt message, and either a restart comes
after every pause, or no pause is left and something else leads on. -/
structure Inv (s : Detect) : Prop where
  handle : s.detectHdl = true → s.sampling = true ∨ .TMPD_INT_POLL ∈ s.pending
  carried : s.wanted = true → Restarts s.pending ∨
    .TMPD_PAUSE_TIMER ∉ s.pending ∧ (s.timer = true ∨ s.sampling = true ∨ s.pending ≠ [])

theorem Inv.alive {s : Detect} (inv : Inv s) : s.Alive := by
  intro wanted
  obtain restarts | ⟨calm, timer | sampling | more⟩ := inv.carried wanted
  · exact .inr (.inr ⟨.TMPD_RESTART_TIMER, restarts.mem, by decide⟩)
  · exact .inl timer
  · exact .inr (.inl sampling)
  · obtain ⟨msg, member⟩ := List.exists_mem_of_ne_nil _ more
    refine .inr (.inr ⟨msg, member, ?_⟩)
    rintro rfl
    exact calm member

theorem inv_started (singleHdl : Bool) : Inv (Detect.started singleHdl) where
  handle := fun closed => nomatch closed
  carried := fun _ => .inr ⟨List.not_mem_nil, .inl rfl⟩

section

variable {s : Detect}

theorem sendMsg_room (room : s.msgQue.length < TEMP_DET_QITEM_COUNT) (msg : TempMsg) :
    s.sendMsg msg = { s with msgQue := s.msgQue ++ [msg] } := by
  rw [Detect.sendMsg, Fifo.push_fits _ _ _ room]

theorem sendMsg_full (full : ¬s.msgQue.length < TEMP_DET_QITEM_COUNT) (msg : TempMsg) :
    s.sendMsg msg = s := by
  rw [Detect.sendMsg, Fifo.push_full _ _ _ (Nat.lt_succ_of_le (Nat.not_lt.mp full))]

theorem pending_push {t : Detect} {more : List TempMsg} (task : t.task = s.task)
    (queue : t.msgQue = s.msgQue ++ more) : t.pending = s.pending ++ more := by
  rw [Detect.pending, Detect.pending, task, queue, List.append_assoc]

/-- Messages put behind the others. -/
theorem Inv.queued {t : Detect} {more : List TempMsg} (inv : Inv s) (pending : t.pending = s.pending ++ more)
    (calm : .TMPD_PAUSE_TIMER ∉ more) (wanted : t.wanted = s.wanted) (timer : t.timer = s.timer)
    (hdl : t.detectHdl = s.detectHdl)
    (sampling : s.sampling = true → t.sampling = true ∨ .TMPD_INT_POLL ∈ more) : Inv t where
  handle := by
    intro openHdl
    rw [pending, List.mem_append]
    obtain short | queued := inv.handle (hdl ▸ openHdl)
    · exact (sampling short).imp_right .inr
    · exact .inr (.inl queued)
  carried := by
    intro asked
    rw [pending, timer]
    obtain restarts | ⟨quiet, leads⟩ := inv.carried (wanted ▸ asked)
    · exact .inl (restarts.append calm)
    · refine .inr ⟨by rw [List.mem_append, not_or]; exact ⟨quiet, calm⟩, ?_⟩
      obtain running | short | queued := leads
      · exact .inl running
      · refine .inr ((sampling short).imp_right fun sent => ?_)
        exact List.append_ne_nil_of_right_ne_nil _ (List.ne_nil_of_mem sent)
      · exact .inr (.inr (List.append_ne_nil_of_left_ne_nil queued _))

/-- A message is done with; nothing else was taken out of the queue. -/
theorem Inv.processed {t : Detect} {msg : TempMsg} {more : List TempMsg} (inv : Inv s)
    (task : s.task = some msg) (pending : t.pending = s.msgQue ++ more)
    (calm : .TMPD_PAUSE_TIMER ∉ more) (wanted : t.wanted = s.wanted)
    (handle : t.detectHdl = true → t.sampling = true ∨ .TMPD_INT_POLL ∈ s.msgQue)
    (next : s.wanted = true → .TMPD_PAUSE_TIMER ∉ s.msgQue → msg ≠ .TMPD_PAUSE_TIMER →
      t.timer = true ∨ t.sampling = true ∨ t.pending ≠ []) : Inv t where
  handle := fun openHdl => (handle openHdl).imp_right fun queued => by
    rw [pending]
    exact List.mem_append_left more queued
  carried := by
    intro asked
    have shape : s.pending = msg :: s.msgQue := by rw [Detect.pending, task, Option.toList_some, List.singleton_append]
    rw [pending]
    rw [pending] at next
    have quietly : .TMPD_PAUSE_TIMER ∉ s.msgQue → .TMPD_PAUSE_TIMER ∉ s.msgQue ++ more := fun quiet => by
      rw [List.mem_append, not_or]
      exact ⟨quiet, calm⟩
    obtain restarts | ⟨quiet, _⟩ := inv.carried (wanted ▸ asked)
    · rw [shape] at restarts
      -- the message was the restart itself, or one is still to come
      obtain later | ⟨rfl, quiet⟩ := restarts
      · exact .inl (later.append calm)
      · exact .inr ⟨quietly quiet, next (wanted ▸ asked) quiet (by decide)⟩
    · rw [shape, List.mem_cons, not_or] at quiet
      exact .inr ⟨quietly quiet.2, next (wanted ▸ asked) quiet.2 (Ne.symm quiet.1)⟩

/-- A message is done with that sends none itself. -/
theorem Inv.finished {t : Detect} {msg : TempMsg} (inv : Inv s) (task : s.task = some msg)
    (pending : t.pending = s.msgQue) (wanted : t.wanted = s.wanted)
    (handle : t.detectHdl = true → t.sampling = true ∨ .TMPD_INT_POLL ∈ s.msgQue)
    (next : s.wanted = true → .TMPD_PAUSE_TIMER ∉ s.msgQue → msg ≠ .TMPD_PAUSE_TIMER →
      t.timer = true ∨ t.sampling = true ∨ t.pending ≠ []) : Inv t :=
  inv.processed task (pending.trans (List.append_nil _).symm) List.not_mem_nil wanted handle next

/-- A change of the configuration starts the timer when it changes the interval, and never stops it. -/
theorem changeConfiguration_spec (s : Detect) (intval thre dist : UInt32) :
    ∃ intval' thre' dist' timer', s.changeConfiguration intval thre dist =
        { s with detectIntval := intval', detectThre := thre', distInital := dist', timer := timer' } ∧
      (timer' = true ∨ timer' = s.timer ∧
        s.detectIntval.toUInt32 = if intval = 0 then ADC_TMEP_DETECT_INTVAL else intval) := by
  rw [Detect.changeConfiguration]
  generalize (if intval = 0 then ADC_TMEP_DETECT_INTVAL else intval) = intval
  generalize (if thre = 0 then ADC_TMEP_LSB_PER_10DEGREE * ADC_TMEP_10DEGREE_PER_DBPWR else thre) = thre
  generalize (if dist = 0 then ADC_TMEP_DIST_INTIAL_VAL else dist) = dist
  by_cases values : s.detectThre.toUInt32 ≠ thre ∨ s.distInital.toUInt32 ≠ dist
  · by_cases other : s.detectIntval.toUInt32 ≠ intval
    · simp only [if_pos values, if_pos other]
      exact ⟨_, _, _, true, rfl, .inl rfl⟩
    · simp only [if_pos values, if_neg other]
      exact ⟨_, _, _, s.timer, rfl, .inr ⟨rfl, not_not.mp other⟩⟩
  · by_cases other : s.detectIntval.toUInt32 ≠ intval
    · simp only [if_neg values, if_pos other]
      exact ⟨_, _, _, true, rfl, .inl rfl⟩
    · simp only [if_neg values, if_neg other]
      exact ⟨_, _, _, s.timer, rfl, .inr ⟨rfl, not_not.mp other⟩⟩

/-- A poll finds the handle open, waits for a single read, opens the handle with the timer stopped, or
fails to and starts the timer again. -/
theorem timerPoll_spec (s : Detect) (opened : Bool) :
    s.detectHdl = true ∧ s.timerPoll opened = some s ∨ s.timerPoll opened = none ∨
      opened = true ∧ s.timerPoll opened = some { s with timer := false, detectHdl := true, sampling := true } ∨
      s.detectHdl = false ∧ s.timerPoll opened = some { s with timer := true } := by
  rw [Detect.timerPoll, Detect.enable]
  by_cases openHdl : s.detectHdl = true
  · rw [if_pos openHdl]
    exact .inl ⟨openHdl, rfl⟩
  · rw [if_neg openHdl]
    by_cases single : s.singleHdl = true
    · rw [if_pos single]
      exact .inr (.inl rfl)
    · rw [if_neg single]
      cases opened with
      | true => exact .inr (.inr (.inl ⟨rfl, rfl⟩))
      | false => exact .inr (.inr (.inr ⟨(Bool.not_eq_true _).mp openHdl, rfl⟩))

/-- After a poll the timer runs again, or there is a message: the change of the interval is lost only to
other messages. -/
theorem pollingHandler_spec (s : Detect) : ∃ count timer' more,
    s.pollingHandler =
      { s with detectIntvalChange := count, timer := timer', msgQue := s.msgQue ++ more } ∧
      .TMPD_PAUSE_TIMER ∉ more ∧ (timer' = true ∨ s.msgQue ++ more ≠ []) := by
  let counted : Detect := { s with detectIntvalChange := s.detectIntvalChange + 1 }
  by_cases last : s.detectIntvalChange + 1 = ADC_TMEP_DETECT_INTVAL_CHANGE
  · have moved : s.pollingHandler = counted.sendMsg .TMPD_CHANGE_PARAM := if_pos last
    rw [moved]
    by_cases room : s.msgQue.length < TEMP_DET_QITEM_COUNT
    · rw [@sendMsg_room counted room]
      refine ⟨_, s.timer, [.TMPD_CHANGE_PARAM], rfl, by decide, .inr ?_⟩
      exact List.append_ne_nil_of_right_ne_nil _ (List.cons_ne_nil _ _)
    · rw [@sendMsg_full counted room]
      refine ⟨s.detectIntvalChange + 1, s.timer, [], ?_, List.not_mem_nil, .inr fun empty => room ?_⟩
      · rw [List.append_nil]
      · have none : s.msgQue = [] := (List.append_eq_nil_iff.mp empty).1
        rw [none]
        decide
  · have moved : s.pollingHandler = { counted with timer := true } := if_neg last
    refine ⟨s.detectIntvalChange + 1, true, [], ?_, List.not_mem_nil, .inl rfl⟩
    rw [moved, List.append_nil]

end

/-! ### One step -/

section

variable {s : Detect}

private theorem inv_process {opened : Bool} (inv : Inv s) (sound : s.Sound (.process opened)) :
    Inv (s.process opened) := by
  rw [Detect.process]
  cases task : s.task with
  | none => exact inv
  | some msg =>
    have handle : s.detectHdl = true → msg ≠ .TMPD_INT_POLL → s.sampling = true ∨ .TMPD_INT_POLL ∈ s.msgQue := by
      intro openHdl other
      refine (inv.handle openHdl).imp_right fun member => ?_
      rw [Detect.pending, task, Option.toList_some, List.singleton_append, List.mem_cons] at member
      exact member.resolve_left other.symm
    cases msg with
    | TMPD_PAUSE_TIMER =>
      refine inv.finished task rfl rfl ?_ ?_
      · exact fun openHdl => handle openHdl (by decide)
      · exact fun _ _ other => absurd rfl other
    | TMPD_RESTART_TIMER =>
      refine inv.finished task rfl rfl ?_ ?_
      · exact fun openHdl => handle openHdl (by decide)
      · exact fun _ _ _ => .inl rfl
    | TMPD_CHANGE_PARAM =>
      obtain ⟨intval', thre', dist', timer', changed, runs⟩ :=
        changeConfiguration_spec s ADC_TMEP_DETECT_INTVAL s.detectThre.toUInt32 ADC_TMEP_DIST_INTIAL_VAL
      simp only [Detect.handle, changed]
      refine inv.finished task rfl rfl ?_ ?_
      · exact fun openHdl => handle openHdl (by decide)
      · intro wanted _ _
        obtain runs | ⟨kept, same⟩ := runs
        · exact .inl runs
        · rw [kept]
          -- the timer was not touched: the condition names what else leads on
          obtain other | timer | sampling | ⟨msg, queued, _⟩ := sound wanted task
          · exact absurd same other
          · exact .inl timer
          · exact .inr (.inl sampling)
          · exact .inr (.inr (List.ne_nil_of_mem queued))
    | TMPD_TIMER_POLL =>
      simp only [Detect.handle]
      obtain ⟨openHdl, polled⟩ | waits | ⟨_, polled⟩ | ⟨closed, polled⟩ := timerPoll_spec s opened
      · -- the message comes to nothing, but the conversion or its message is still there
        rw [polled]
        refine inv.finished task rfl rfl ?_ ?_
        · exact fun openHdl => handle openHdl (by decide)
        · exact fun _ _ _ => .inr ((handle openHdl (by decide)).imp_right List.ne_nil_of_mem)
      · rw [waits]
        exact inv
      · rw [polled]
        refine inv.finished task rfl rfl ?_ ?_
        · exact fun _ => .inl rfl
        · exact fun _ _ _ => .inr (.inl rfl)
      · rw [polled]
        refine inv.finished task rfl rfl ?_ ?_
        · exact fun stillOpen => nomatch closed.symm.trans stillOpen
        · exact fun _ _ _ => .inl rfl
    | TMPD_INT_POLL =>
      obtain ⟨count, timer', more, moved, calm, leads⟩ := pollingHandler_spec s.disable
      simp only [Detect.handle, moved]
      refine @Inv.processed s _ _ more inv task rfl calm rfl ?_ ?_
      · exact fun stillOpen => nomatch stillOpen
      · exact fun _ _ _ => leads.imp_right .inr

private theorem inv_sendMsg {msg : TempMsg} (inv : Inv s) (other : msg ≠ .TMPD_PAUSE_TIMER) :
    Inv (s.sendMsg msg) := by
  by_cases room : s.msgQue.length < TEMP_DET_QITEM_COUNT
  · rw [sendMsg_room room]
    refine @Inv.queued s _ [msg] inv (pending_push rfl rfl) ?_ rfl rfl rfl .inl
    rw [List.mem_singleton]
    exact other.symm
  · rw [sendMsg_full room]
    exact inv

private theorem inv_pauseTimer (inv : Inv s) : Inv s.pauseTimer := by
  -- nothing has to lead on any more; the open handle still ends in its message
  let paused : Detect := { s with wanted := false }
  have still : Inv paused := ⟨inv.handle, fun asked => nomatch asked⟩
  by_cases running : s.timer = true
  · have sent : s.pauseTimer = paused.sendMsg .TMPD_PAUSE_TIMER := if_pos running
    rw [sent]
    by_cases room : s.msgQue.length < TEMP_DET_QITEM_COUNT
    · rw [@sendMsg_room paused room]
      have behind := @pending_push s { paused with msgQue := s.msgQue ++ [.TMPD_PAUSE_TIMER] } _ rfl rfl
      refine ⟨fun openHdl => (inv.handle openHdl).imp_right fun queued => ?_, fun asked => nomatch asked⟩
      rw [behind]
      exact List.mem_append_left _ queued
    · rw [@sendMsg_full paused room]
      exact still
  · have silent : s.pauseTimer = paused := if_neg running
    rw [silent]
    exact still

private theorem inv_restartDetect (inv : Inv s) (sound : s.Sound .restartDetect) : Inv s.restartDetect := by
  let asked : Detect := { s with wanted := true }
  have calmly : .TMPD_PAUSE_TIMER ∉ s.pending → s.timer = true ∨ s.pending ≠ [] → Inv asked :=
    fun calm leads => ⟨inv.handle, fun _ => .inr ⟨calm, leads.imp_right .inr⟩⟩
  have already : Restarts s.pending → Inv asked := fun restarts => ⟨inv.handle, fun _ => .inl restarts⟩
  by_cases running : s.timer = true
  · have silent : s.restartDetect = asked := if_neg (by simp [running])
    rw [silent]
    obtain calm | restarts | ⟨stopped, _⟩ := sound
    · exact calmly calm (.inl running)
    · exact already restarts
    · exact absurd running (by simp [stopped])
  · have sent : s.restartDetect = asked.sendMsg .TMPD_RESTART_TIMER := if_pos (by simpa using running)
    rw [sent]
    by_cases room : s.msgQue.length < TEMP_DET_QITEM_COUNT
    · rw [@sendMsg_room asked room]
      have behind := @pending_push s { asked with msgQue := s.msgQue ++ [.TMPD_RESTART_TIMER] } _ rfl rfl
      refine ⟨fun openHdl => (inv.handle openHdl).imp_right fun queued => ?_, fun _ => .inl ?_⟩
      · rw [behind]
        exact List.mem_append_left _ queued
      · rw [behind]
        exact Restarts.snoc s.pending
    · -- a queue that is full of other messages than pauses leads on by itself
      rw [@sendMsg_full asked room]
      obtain calm | restarts | ⟨_, free⟩ := sound
      · refine calmly calm (.inr fun empty => room ?_)
        have none : s.msgQue = [] := (List.append_eq_nil_iff.mp empty).2
        rw [none]
        decide
      · exact already restarts
      · exact absurd free room

/-- A step that meets its condition keeps detection going. -/
theorem inv_step (s : Detect) (event : Event) (inv : Inv s) (sound : s.Sound event) : Inv (s.step event) := by
  cases event with
  | process opened => exact inv_process inv sound
  | expiry =>
    simp only [Detect.step, Detect.expiry]
    split
    · exact inv_sendMsg inv (by decide)
    · exact inv
  | complete =>
    simp only [Detect.step, Detect.complete]
    split
    next sampling =>
      rw [@sendMsg_room { s with sampling := false } (sound sampling)]
      refine @Inv.queued s _ [.TMPD_INT_POLL] inv (pending_push rfl rfl) (by decide) rfl rfl rfl ?_
      exact fun _ => .inr List.mem_cons_self
    next => exact inv
  | pop =>
    simp only [Detect.step, Detect.pop]
    split
    next msg rest task queue =>
      have same : s.pending = msg :: rest := by
        rw [Detect.pending, task, queue, Option.toList_none, List.nil_append]
      obtain ⟨handle, carried⟩ := inv
      rw [same] at handle carried
      exact ⟨handle, carried⟩
    next => exact inv
  | pauseTimer => exact inv_pauseTimer inv
  | restartDetect => exact inv_restartDetect inv sound
  | changeConfiguration intval thre dist =>
    obtain ⟨intval', thre', dist', timer', changed, runs⟩ := changeConfiguration_spec s intval thre dist
    simp only [Detect.step, changed]
    refine ⟨inv.handle, fun asked => (inv.carried asked).imp_right fun quiet => ⟨quiet.1, ?_⟩⟩
    obtain runs | ⟨kept, _⟩ := runs
    · exact .inl runs
    · exact kept ▸ quiet.2
  | singleOpen =>
    simp only [Detect.step]
    split
    · exact inv
    · exact ⟨inv.handle, inv.carried⟩
  | singleClose => exact ⟨inv.handle, inv.carried⟩

end

/-- In every state of every run whose steps meet the condition, detection is paused or leads on: the timer
runs, a conversion is short of its samples, or a poll, an interrupt, a change of the parameters or a
restart is queued or being processed. -/
theorem detect_progress (singleHdl : Bool) (events : List Event)
    (sound : Along Detect.step Detect.Sound (Detect.started singleHdl) events) :
    ∀ part, part <+: events → (part.foldl Detect.step (Detect.started singleHdl)).Alive := by
  rintro part ⟨rest, rfl⟩
  exact ((along_append part rest).mp sound).1.invariant inv_step (inv_started singleHdl) |>.alive

def cycle : List Event := [.expiry, .pop, .process true, .complete, .pop, .process true]

def served : List Event := [.pop, .process true]

/-- Two minutes of polling, a pause and a restart, a change of the interval while a poll waits for a
single read. -/
def busyRun : List Event :=
  (List.replicate 120 cycle).flatten ++ served ++ [.pauseTimer] ++ served ++ [.restartDetect] ++ served ++
    [.singleOpen, .expiry, .pop, .changeConfiguration 30 0 0, .singleClose, .process true, .complete] ++ served

theorem detect_progress_cycles : (busyRun.foldl Detect.step (Detect.started false)).Alive :=
  detect_progress false busyRun (by decide +kernel) busyRun (List.prefix_refl busyRun)

/-- Five polls come in while the single read holds the ADC. -/
def crowded : List Event :=
  [.expiry, .pop, .singleOpen, .expiry, .expiry, .expiry, .expiry, .expiry, .singleClose, .process true,
    .complete]

/-- A restart overtaken by a pause; a change to the interval that is set; an interrupt message for which
no slot is free. -/
theorem detect_stalls :
    ¬([.pauseTimer, .restartDetect, .pop, .process true].foldl Detect.step (Detect.started false)).Alive ∧
    ¬((.changeConfiguration 15 0 0 :: (List.replicate 120 cycle).flatten ++ served).foldl
        Detect.step (Detect.started false)).Alive ∧
    ¬((crowded ++ (List.replicate 5 served).flatten).foldl Detect.step (Detect.started false)).Alive := by
  decide +kernel

end Bk7251.TempDetect
