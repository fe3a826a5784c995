import Bk7251.Lib.Machine

/-!
# The bounded FIFO

A queue of at most `limit` items. A push is all or nothing, a pop takes the oldest
items that are there. What was delivered, followed by what is still queued, is what
was accepted, in order. A second queue takes of a block what fits.
-/
namespace Lib

namespace Fifo

variable {α : Type*}

inductive Op (α : Type*)
  | push (xs : List α)
  | pop (n : Nat)

inductive Out (α : Type*)
  | accepted (n : Nat)
  | delivered (xs : List α)
  deriving DecidableEq

def push (limit : Nat) (q xs : List α) : List α × Nat :=
  if q.length + xs.length ≤ limit then (q ++ xs, xs.length) else (q, 0)

def step (limit : Nat) (q : List α) : Op α → List α × Out α
  | .push xs => ((push limit q xs).1, .accepted (push limit q xs).2)
  | .pop n => (q.drop n, .delivered (q.take n))

/-- What an operation put into the queue, given the queue's answer. -/
def Op.stored : Op α → Out α → List α
  | .push xs, .accepted n => xs.take n
  | _, _ => []

def Out.received : Out α → List α
  | .delivered xs => xs
  | .accepted _ => []

theorem push_fits (limit : Nat) (q xs : List α) (fits : q.length + xs.length ≤ limit) :
    push limit q xs = (q ++ xs, xs.length) := if_pos fits

theorem push_full (limit : Nat) (q xs : List α) (full : limit < q.length + xs.length) :
    push limit q xs = (q, 0) := if_neg (Nat.not_le.mpr full)

theorem step_conserves (limit : Nat) (q : List α) (op : Op α) :
    (step limit q op).2.received ++ (step limit q op).1 =
      q ++ op.stored (step limit q op).2 := by
  cases op with
  | push xs =>
    by_cases fits : q.length + xs.length ≤ limit
    · simp [step, push_fits limit q xs fits, Out.received, Op.stored]
    · simp [step, push_full limit q xs (Nat.not_le.mp fits), Out.received, Op.stored]
  | pop n => simp [step, Out.received, Op.stored]

/-- No loss, no duplication, in order. -/
theorem run_conserves (limit : Nat) (q : List α) (ops : List (Op α)) :
    ((Machine.run (step limit) q ops).2.map Out.received).flatten ++
        (Machine.run (step limit) q ops).1 =
      q ++ ((ops.zip (Machine.run (step limit) q ops).2).map
        fun p => p.1.stored p.2).flatten := by
  induction ops generalizing q with
  | nil => simp [Machine.run]
  | cons op ops ih =>
    have first := step_conserves limit q op
    simp only [Machine.run, List.map_cons, List.flatten_cons, List.zip_cons_cons,
      List.append_assoc, ih]
    rw [← List.append_assoc, first, List.append_assoc]

/-! ### A queue that takes what fits -/

/-- The calls on a queue: appending, taking, looking, and the two sizes. -/
inductive Call (α : Type*)
  | put (xs : List α)
  | get (n : Nat)
  | peek (n : Nat)
  | used
  | unused

inductive Answer (α : Type*)
  | taken (n : Nat)
  | bytes (xs : List α)
  | size (n : Nat)
  deriving DecidableEq

/-- Of a block that does not fit the queue takes the beginning. -/
def serve (limit : Nat) (q : List α) : Call α → List α × Answer α
  | .put xs => (q ++ xs.take (limit - q.length), .taken (min xs.length (limit - q.length)))
  | .get n => (q.drop n, .bytes (q.take n))
  | .peek n => (q, .bytes (q.take n))
  | .used => (q, .size q.length)
  | .unused => (q, .size (limit - q.length))

/-- What a call put into the queue, given the queue's answer. -/
def Call.stored : Call α → Answer α → List α
  | .put xs, .taken n => xs.take n
  | _, _ => []

/-- What a call took out of the queue. -/
def Call.removed : Call α → Answer α → List α
  | .get _, .bytes xs => xs
  | _, _ => []

theorem serve_conserves (limit : Nat) (q : List α) (c : Call α) :
    c.removed (serve limit q c).2 ++ (serve limit q c).1 = q ++ c.stored (serve limit q c).2 := by
  cases c with
  | put xs =>
    simp only [serve, Call.removed, Call.stored, List.nil_append]
    rw [Nat.min_comm, ← List.take_eq_take_min]
  | get n => simp [serve, Call.removed, Call.stored]
  | peek | used | unused => simp [serve, Call.removed, Call.stored]

/-- What the calls of a run took out, followed by what is still queued, is what they put in. -/
theorem serve_run_conserves (limit : Nat) (q : List α) (cs : List (Call α)) :
    ((cs.zip (Machine.run (serve limit) q cs).2).map fun p => p.1.removed p.2).flatten ++
        (Machine.run (serve limit) q cs).1 =
      q ++ ((cs.zip (Machine.run (serve limit) q cs).2).map fun p => p.1.stored p.2).flatten := by
  induction cs generalizing q with
  | nil => simp [Machine.run]
  | cons c cs ih =>
    have first := serve_conserves limit q c
    simp only [Machine.run, List.zip_cons_cons, List.map_cons, List.flatten_cons, List.append_assoc, ih]
    rw [← List.append_assoc, first, List.append_assoc]

/-! ### A queue that drops its oldest items -/

/-- The last `limit` items. -/
def newest (limit : Nat) (xs : List α) : List α := xs.drop (xs.length - limit)

theorem newest_of_le {limit : Nat} {xs : List α} (low : xs.length ≤ limit) : newest limit xs = xs := by
  rw [newest, Nat.sub_eq_zero_of_le low, List.drop_zero]

/-- Dropping early drops the same items. -/
theorem newest_append (limit : Nat) (xs ys : List α) :
    newest limit (newest limit xs ++ ys) = newest limit (xs ++ ys) := by
  by_cases low : xs.length ≤ limit
  · rw [newest_of_le low]
  · have cut : newest limit xs ++ ys = (xs ++ ys).drop (xs.length - limit) := by
      rw [newest, List.drop_append_of_le_length (by omega)]
    rw [cut, newest, newest, List.drop_drop, List.length_drop, List.length_append]
    congr 1
    omega

theorem newest_sublist (limit : Nat) (xs : List α) : (newest limit xs).Sublist xs := List.drop_sublist _ _

/-- Take up to `n` items one by one; a run of `runs` arrives before each look at the queue, and the
runs left over arrive before the call returns. -/
def drain (limit : Nat) : List α → Nat → List (List α) → List α × List α
  | q, 0, runs => (newest limit (q ++ runs.flatten), [])
  | q, n + 1, runs =>
    match newest limit (q ++ runs.headD []) with
    | [] => (newest limit runs.tail.flatten, [])
    | x :: q =>
      let (left, taken) := drain limit q n runs.tail
      (left, x :: taken)

theorem headD_append_flatten_tail (runs : List (List α)) :
    runs.headD [] ++ runs.tail.flatten = runs.flatten := by
  cases runs <;> rfl

/-- Without arrivals a call takes the oldest items. -/
theorem drain_undisturbed {limit : Nat} (n : Nat) {q : List α} (low : q.length ≤ limit) :
    drain limit q n [] = (q.drop n, q.take n) := by
  induction n generalizing q with
  | zero => simp [drain, newest_of_le low]
  | succ n ih =>
    cases q with
    | nil => simp [drain, newest]
    | cons x q =>
      have shorter : q.length ≤ limit := Nat.le_of_succ_le low
      simp only [drain, List.headD_nil, List.append_nil, newest_of_le low, List.tail_nil, ih shorter]
      rfl

/-- What is taken and what is left were there before or arrived, in that order. -/
theorem drain_sublist (limit n : Nat) (q : List α) (runs : List (List α)) :
    ((drain limit q n runs).2 ++ (drain limit q n runs).1).Sublist (q ++ runs.flatten) := by
  induction n generalizing q runs with
  | zero => exact newest_sublist _ _
  | succ n ih =>
    have kept := newest_sublist limit (q ++ runs.headD [])
    simp only [drain]
    rw [← headD_append_flatten_tail runs, ← List.append_assoc]
    split
    · exact ((newest_sublist limit _).trans (List.sublist_append_right _ _))
    next x q' here =>
      rw [here] at kept
      exact ((ih q' runs.tail).cons_cons x).trans (kept.append_right _)

/-- The calls on a queue that drops: items arrive, a taker takes, the length is asked for. -/
inductive LossyCall (α : Type*)
  | arrive (xs : List α)
  | take (n : Nat) (runs : List (List α))
  | used

def serveLossy (limit : Nat) (q : List α) : LossyCall α → List α × Answer α
  | .arrive xs => (newest limit (q ++ xs), .taken xs.length)
  | .take n runs => ((drain limit q n runs).1, .bytes (drain limit q n runs).2)
  | .used => (q, .size q.length)

def LossyCall.arrivals : LossyCall α → List α
  | .arrive xs => xs
  | .take _ runs => runs.flatten
  | .used => []

/-- What a call gave back. -/
def Answer.given : Answer α → List α
  | .bytes xs => xs
  | _ => []

theorem serveLossy_sublist (limit : Nat) (q : List α) (c : LossyCall α) :
    ((serveLossy limit q c).2.given ++ (serveLossy limit q c).1).Sublist (q ++ c.arrivals) := by
  cases c with
  | arrive xs => exact newest_sublist _ _
  | take n runs => exact drain_sublist limit n q runs
  | used => simp [serveLossy, Answer.given, LossyCall.arrivals]

/-- What a run gave back, followed by what is still queued, arrived in that order, each item once. -/
theorem serveLossy_run_sublist (limit : Nat) (q : List α) (cs : List (LossyCall α)) :
    (((Machine.run (serveLossy limit) q cs).2.map Answer.given).flatten ++
        (Machine.run (serveLossy limit) q cs).1).Sublist
      (q ++ (cs.map LossyCall.arrivals).flatten) := by
  induction cs generalizing q with
  | nil => simp [Machine.run]
  | cons c cs ih =>
    have first := (serveLossy_sublist limit q c).append_right (cs.map LossyCall.arrivals).flatten
    have later := (ih (serveLossy limit q c).1).append_left (serveLossy limit q c).2.given
    simp only [Machine.run, List.map_cons, List.flatten_cons, List.append_assoc] at first later ⊢
    exact later.trans first

end Fifo

end Lib
