import Bk7251.App.CoreQueue

/-!
# Receive events

`bmsg_rx_sender` and `bmsg_rx_handler` (`app/app.c`) with the counter `bmsg_rx_count`. A step is one
interrupt-disabled section or one queue operation.
-/
namespace Bk7251.App

open Lib

structure RxState where
  ioQueue : List BusMsg
  bmsgRxCount : Int
  /-- The events of the senders between their critical section and their push. -/
  sending : List Nat
  /-- The message the core thread has popped. -/
  core : Option BusMsg
deriving DecidableEq

def RxState.init : RxState := ⟨[], 0, [], none⟩

inductive RxEvent where
  | enter (arg : Nat)
  | push (i : Nat)
  | other (msg : BusMsg)
  | pop
  | handle

namespace RxState

variable (s : RxState)

/-- The critical section of `bmsg_rx_sender`. -/
def enter (arg : Nat) : RxState :=
  -- two events are pending already: the sender returns
  if s.bmsgRxCount ≥ 2 then s
  else { s with bmsgRxCount := s.bmsgRxCount + 1, sending := s.sending ++ [arg] }

/-- The push of `bmsg_rx_sender`; a failure is only printed. -/
def push (i : Nat) : RxState :=
  match s.sending[i]? with
  | some arg =>
    { s with ioQueue := (rtosPushToQueue s.ioQueue ⟨.rx, arg⟩).1, sending := s.sending.eraseIdx i }
  | none => s

/-- `rtos_pop_from_queue` in `core_thread_main`. -/
def pop : RxState :=
  match s.core, s.ioQueue with
  | none, msg :: rest => { s with ioQueue := rest, core := some msg }
  | _, _ => s

/-- The `switch` of `core_thread_main`, with `bmsg_rx_handler`. -/
def handle : RxState :=
  match s.core with
  | some msg =>
    { s with
      core := none
      bmsgRxCount :=
        if msg.type = .rx ∧ s.bmsgRxCount > 0 then s.bmsgRxCount - 1 else s.bmsgRxCount }
  | none => s

def step (s : RxState) : RxEvent → RxState
  | .enter arg => s.enter arg
  | .push i => s.push i
  | .other msg =>
    -- nobody else sends receive events
    if msg.type = .rx then s else { s with ioQueue := (rtosPushToQueue s.ioQueue msg).1 }
  | .pop => s.pop
  | .handle => s.handle

end RxState

def BusMsg.isRx (msg : BusMsg) : Bool := msg.type = .rx

/-- The receive events that are in the queue, about to be pushed, or popped and not counted down. -/
def RxState.pending (s : RxState) : Nat :=
  s.ioQueue.countP BusMsg.isRx + s.sending.length + s.core.toList.countP BusMsg.isRx

/-- The step pushes a receive event into a full queue. -/
def RxState.Lost (s : RxState) (e : RxEvent) : Prop :=
  ∃ i, e = .push i ∧ i < s.sending.length ∧ CORE_QITEM_COUNT ≤ s.ioQueue.length

instance (s : RxState) (e : RxEvent) : Decidable (s.Lost e) :=
  match e with
  | .push i => decidable_of_iff (i < s.sending.length ∧ CORE_QITEM_COUNT ≤ s.ioQueue.length) (by
      constructor
      · exact fun full => ⟨i, rfl, full⟩
      · rintro ⟨j, same, full⟩
        cases same
        exact full)
  | .enter _ | .other _ | .pop | .handle => isFalse fun ⟨_, other, _⟩ => by cases other

/-- How far the counter is ahead of the pending events. -/
def RxState.excess (s : RxState) : Int := s.bmsgRxCount - s.pending

theorem excess_enter (s : RxState) (arg : Nat) : (s.enter arg).excess = s.excess := by
  rw [RxState.enter]
  split
  · rfl
  · simp only [RxState.excess, RxState.pending, List.length_append, List.length_singleton]
    omega

theorem excess_push (s : RxState) (i : Nat) :
    (s.push i).excess = s.excess + if s.Lost (.push i) then 1 else 0 := by
  rw [RxState.push]
  split
  next arg here =>
    have inside : i < s.sending.length := (List.getElem?_eq_some_iff.mp here).1
    have left : (s.sending.eraseIdx i).length + 1 = s.sending.length := by
      rw [List.length_eraseIdx_of_lt inside]
      exact Nat.sub_add_cancel (Nat.zero_lt_of_lt inside)
    by_cases room : s.ioQueue.length < CORE_QITEM_COUNT
    · -- with room the event only moves from the sender to the queue
      have kept : ¬ s.Lost (.push i) := by
        rintro ⟨j, _, _, full⟩
        exact Nat.not_lt.mpr full room
      rw [if_neg kept, rtosPushToQueue_room room]
      simp only [RxState.excess, RxState.pending, List.countP_append, List.countP_singleton,
        BusMsg.isRx, decide_true, if_true]
      omega
    · -- the event is gone but was counted
      have gone : s.Lost (.push i) := ⟨i, rfl, inside, Nat.not_lt.mp room⟩
      rw [if_pos gone, rtosPushToQueue_full room]
      simp only [RxState.excess, RxState.pending]
      omega
  next outside =>
    have kept : ¬ s.Lost (.push i) := by
      rintro ⟨j, same, inside, _⟩
      cases same
      rw [List.getElem?_eq_none_iff] at outside
      exact Nat.not_lt.mpr outside inside
    rw [if_neg kept]
    exact (Int.add_zero _).symm

theorem excess_other (s : RxState) (msg : BusMsg) : (s.step (.other msg)).excess = s.excess := by
  simp only [RxState.step]
  split
  · rfl
  next differs =>
    have silent : msg.isRx = false := decide_eq_false differs
    simp only [RxState.excess, RxState.pending, countP_rtosPushToQueue silent]

theorem excess_pop (s : RxState) : s.pop.excess = s.excess := by
  rw [RxState.pop]
  split
  next msg rest free queue =>
    simp only [RxState.excess, RxState.pending, free, queue, List.countP_cons, Option.toList,
      List.countP_nil]
    omega
  · rfl

/-- A popped event is counted, so the handler counts it down. -/
theorem excess_handle {s : RxState} (ahead : 0 ≤ s.excess) : s.handle.excess = s.excess := by
  rw [RxState.handle]
  split
  next msg here =>
    simp only [RxState.excess, RxState.pending, here, Option.toList, List.countP_cons,
      List.countP_nil, BusMsg.isRx, decide_eq_true_eq] at ahead ⊢
    split
    next counted =>
      rw [if_pos counted.1]
      omega
    next other =>
      by_cases rx : msg.type = .rx
      · rw [if_pos rx] at ahead
        -- this event is pending, so the counter cannot be at 0
        have none : ¬ s.bmsgRxCount > 0 := fun some => other ⟨rx, some⟩
        omega
      · rw [if_neg rx]
  · rfl

/-- Each lost event puts the counter one ahead, for good. -/
theorem excess_step {s : RxState} (ahead : 0 ≤ s.excess) (e : RxEvent) :
    (s.step e).excess = s.excess + if s.Lost e then 1 else 0 := by
  cases e with
  -- only a push can lose an event
  | push i => exact excess_push s i
  | enter arg =>
    rw [if_neg (by rintro ⟨_, other, _⟩; cases other), Int.add_zero]
    exact excess_enter s arg
  | other msg =>
    rw [if_neg (by rintro ⟨_, other, _⟩; cases other), Int.add_zero]
    exact excess_other s msg
  | pop =>
    rw [if_neg (by rintro ⟨_, other, _⟩; cases other), Int.add_zero]
    exact excess_pop s
  | handle =>
    rw [if_neg (by rintro ⟨_, other, _⟩; cases other), Int.add_zero]
    exact excess_handle ahead

/-- The counter says how many events are pending, and no event is suppressed when none is. -/
structure RxState.Accounted (s : RxState) : Prop where
  exact : s.bmsgRxCount = s.pending
  live : s.bmsgRxCount ≥ 2 → 0 < s.pending

theorem accounted_iff (s : RxState) : s.Accounted ↔ s.excess = 0 := by
  constructor
  · exact fun accounted => Int.sub_eq_zero.mpr accounted.exact
  · intro zero
    have exact : s.bmsgRxCount = s.pending := Int.sub_eq_zero.mp zero
    refine ⟨exact, fun two => ?_⟩
    rw [exact] at two
    omega

/-- From an exact counter, a step keeps it exact unless it loses an event. -/
theorem accounted_step {s : RxState} (accounted : s.Accounted) (e : RxEvent) :
    (s.step e).Accounted ↔ ¬ s.Lost e := by
  have zero := (accounted_iff s).mp accounted
  rw [accounted_iff, excess_step (Int.le_of_eq zero.symm) e, zero]
  by_cases lost : s.Lost e
  · rw [if_pos lost]
    exact iff_of_false (by decide) (not_not.mpr lost)
  · rw [if_neg lost]
    exact iff_of_true rfl lost

/-- The counter is right at every moment of a run exactly when the run loses no event to a full
queue. -/
theorem rx_accounted_iff (events : List RxEvent) :
    (∀ part, part <+: events → (part.foldl RxState.step RxState.init).Accounted) ↔
      Along RxState.step (fun s e => ¬ s.Lost e) RxState.init events :=
  always_iff_along (P := RxState.Accounted) (fun _ e accounted => accounted_step accounted e)
    ((accounted_iff RxState.init).mpr (by decide)) events

/-- The queue is full twice when an event comes; once it has drained, no event gets through. -/
theorem rx_accounted_fails :
    let full : List RxEvent := List.replicate 64 (.other ⟨.tx, 0⟩)
    let events : List RxEvent := [.enter 1, .push 0, .enter 2, .push 0]
    let drain : List RxEvent := (List.replicate 64 [.pop, .handle]).flatten
    let s := (full ++ events ++ drain).foldl RxState.step RxState.init
    ¬ s.Accounted ∧ s.pending = 0 ∧ s.enter 3 = s := by
  intro full events drain s
  refine ⟨?_, by decide +kernel, by decide +kernel⟩
  rw [accounted_iff]
  decide +kernel

end Bk7251.App
