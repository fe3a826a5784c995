import Bk7251.RwMsg.Matching

/-!
# Which nodes are in the list

A node is in the list only while its call is in `rw_msg_send`, and it is freed when nothing leads to it
any more: neither the list, nor the pointer with which `rwnx_recv_msg` walks it. This fails when the
queue refuses a request, whose node stays in the list, and when a call that timed out frees a node that
the receiver has come to. The message of a request is released by whoever consumes it; a refused one is
freed by a pointer into it, and one without memory for its node is not freed at all.
-/
namespace Bk7251.RwMsg

open Lib

/-- The nodes that the receiver still gets to: the one it has a pointer to and, while it walks, those
behind nodes that have left the list. -/
inductive Reaches (s : State) : CallId → Prop where
  | here {c : CallId} (target : s.receiver.target = some c) : Reaches s c
  | next {c d : CallId} (before : Reaches s c) (walks : s.receiver.matched = none) (off : c ∉ s.tx)
      (hdrNext : (s.calls c).hdrNext = some d) : Reaches s d

/-- The call is in `rw_msg_send`, between the push and the extraction of its node. -/
def Call.Blocked (k : Call) : Prop :=
  k.node = true ∧ (k.pc = .linked ∨ k.pc = .waiting ∨ k.pc = .timedOut)

/-- Past the queue, the request was accepted by it. -/
def Call.Sent (k : Call) : Prop :=
  k.pc = .unused ∨ k.pc = .built ∨ k.pc = .linked ∨ (k.accepted = true ∧ k.pc ≠ .refused)

/-- There is memory for the node, the queue takes the request, and a call that timed out frees its
node when the receiver cannot get to it. -/
def Orderly (s : State) : Event → Prop
  | .begin _ _ cfm malloc => cfm.isSome → malloc = true
  | .enqueue _ ok => ok = true
  | .finish c => (s.calls c).pc = .unlinked → ¬ Reaches s c
  | _ => True

theorem Call.Blocked.not_freed {k : Call} (h : k.Blocked) : k.freed = false := by
  obtain ⟨node, pc | pc | pc⟩ := h <;> simp [Call.freed, node, pc]

theorem Call.Sent.accepted {k : Call} (sent : k.Sent)
    (past : k.pc ≠ .unused ∧ k.pc ≠ .built ∧ k.pc ≠ .linked) : k.accepted = true := by
  rcases sent with unused | built | linked | ⟨accepted, -⟩
  · exact absurd unused past.1
  · exact absurd built past.2.1
  · exact absurd linked past.2.2
  · exact accepted

theorem Call.Sent.of_accepted {k : Call} (accepted : k.accepted = true) (pc : k.pc ≠ .refused) : k.Sent :=
  .inr (.inr (.inr ⟨accepted, pc⟩))

theorem freed_setCall (s : State) (c d : CallId) (k : Call) :
    (s.setCall c k).freed d = if d = c then k.freed else s.freed d := by
  simp only [State.freed, setCall_calls]
  split <;> rfl

/-! ### What the receiver gets to -/

theorem Reaches.cases_closed {s : State} (inv : Inv s) {c : CallId} (h : Reaches s c) :
    s.receiver.target = some c ∨ ∃ W, s.Closed W ∧ c ∈ W := by
  induction h with
  | here target => exact .inl target
  | @next c d _ walks off hdrNext ih =>
    have walked : ∃ W, s.Closed W ∧ c ∈ W := by
      rcases ih with target | inside
      · apply inv.cursor c
        revert walks target
        cases s.receiver <;> simp [Receiver.target, Receiver.matched, Receiver.cursor]
      · exact inside
    obtain ⟨W, closed, member⟩ := walked
    exact .inr ⟨W, closed, closed.next c member off d hdrNext⟩

/-- The receiver gets to nodes of calls that have sent their requests and were not woken. -/
theorem Reaches.known {s : State} (inv : Inv s) {c : CallId} (h : Reaches s c) :
    ¬ (s.calls c).Fresh ∧ c ∉ s.woken := by
  rcases h.cases_closed inv with target | ⟨W, closed, member⟩
  · exact ⟨fun fresh => (inv.fresh c fresh).2.1 target, inv.target c target⟩
  · exact ⟨closed.known c member, closed.silent c member⟩

theorem not_reaches {s : State} (idle : s.receiver.target = none) (c : CallId) : ¬ Reaches s c := by
  intro h
  induction h with
  | here target =>
    rw [idle] at target
    cases target
  | next _ _ _ _ ih => exact ih

/-- A step that leaves the receiver and what is behind the nodes alone. -/
theorem Reaches.of_same {s s' : State} {c : CallId} (h : Reaches s' c)
    (receiver : s'.receiver = s.receiver) (tx : ∀ c, c ∈ s.tx → c ∈ s'.tx)
    (hdrNext : ∀ c, Reaches s c → (s'.calls c).hdrNext = (s.calls c).hdrNext) : Reaches s c := by
  induction h with
  | here target => exact .here (receiver ▸ target)
  | @next c d _ walks off behind ih =>
    refine .next ih (receiver ▸ walks) (fun member => off (tx c member)) ?_
    rw [← hdrNext c ih]
    exact behind

/-- A step that gives the receiver a new pointer, to a node it got to before or one in the list. -/
theorem Reaches.of_pointer {s s' : State} {c : CallId} (h : Reaches s' c) (calls : s'.calls = s.calls)
    (tx : s'.tx = s.tx) (walks : s'.receiver.matched = none → s.receiver.matched = none)
    (pointer : ∀ d, s'.receiver.target = some d → Reaches s d ∨ d ∈ s.tx) :
    Reaches s c ∨ c ∈ s.tx := by
  induction h with
  | here target => exact pointer _ target
  | next _ still off behind ih =>
    rw [tx] at off
    rw [calls] at behind
    exact .inl (.next (ih.resolve_right off) (walks still) off behind)

/-- A node that leaves the list leads to at most one that is in it. -/
theorem Reaches.of_extract {s : State} (c : CallId) (keeps : Bool) {d : CallId}
    (h : Reaches (s.coListExtract c keeps) d) : Reaches s d ∨ d ∈ s.tx := by
  induction h with
  | here target =>
    rw [coListExtract_receiver] at target
    exact .inl (.here target)
  | @next d e _ walks off behind ih =>
    rw [coListExtract_receiver] at walks
    rw [coListExtract_tx] at off
    by_cases inside : d ∈ s.tx
    · -- only the node that leaves was in the list before
      have same : d = c := by
        by_contra differs
        exact off ((List.mem_erase_of_ne differs).mpr inside)
      subst same
      rw [State.coListExtract, if_pos inside] at behind
      change ((s.setCall d _).calls d).hdrNext = some e at behind
      rw [setCall_calls, if_pos rfl] at behind
      change (if keeps then successor d s.tx else none) = some e at behind
      split at behind
      · exact .inr (mem_of_successor behind)
      · cases behind
    · refine .inl (.next (ih.resolve_right inside) walks inside ?_)
      rw [State.coListExtract] at behind
      split at behind
      next listed =>
        have differs : d ≠ c := fun same => inside (same ▸ listed)
        change ((s.setCall c _).calls d).hdrNext = some e at behind
        rwa [setCall_calls, if_neg differs] at behind
      · exact behind

/-! ### The invariant -/

structure Safe (s : State) : Prop where
  fault : s.fault = false
  blocked : ∀ c ∈ s.tx, (s.calls c).Blocked
  reached : ∀ c, Reaches s c → s.freed c = false
  sent : ∀ c, (s.calls c).Sent

theorem safe_init : Safe State.init where
  fault := rfl
  blocked _ member := nomatch member
  reached c h := absurd h (not_reaches rfl c)
  sent _ := .inl rfl

namespace Safe

variable {s : State}

theorem listed (safe : Safe s) {c : CallId} (member : c ∈ s.tx) : s.freed c = false :=
  (safe.blocked c member).not_freed

theorem walk (safe : Safe s) (c : CallId) : s.walkFaults c = false := by
  rw [State.walkFaults, List.any_eq_false]
  intro d member
  rw [safe.listed ((List.takeWhile_sublist _).subset member)]
  exact Bool.false_ne_true

theorem last (safe : Safe s) : s.lastFreed = false := by
  rw [State.lastFreed, Option.any_eq_false]
  intro c last
  rw [safe.listed (List.mem_of_getLast? last)]

/-- One call changes what neither the list nor the receiver sees. -/
theorem of_setCall (safe : Safe s) {c : CallId} {k : Call} (hdrNext : k.hdrNext = (s.calls c).hdrNext)
    (freed : k.freed = s.freed c) (blocked : c ∈ s.tx → k.Blocked) (sent : k.Sent) :
    Safe (s.setCall c k) where
  fault := safe.fault
  blocked d member := by
    rw [setCall_calls]
    split
    next same => exact blocked (same ▸ member)
    · exact safe.blocked d member
  reached d h := by
    have before : Reaches s d := by
      exact h.of_same rfl (fun _ member => member) fun e _ => setCall_field Call.hdrNext hdrNext e
    rw [freed_setCall]
    split
    next same =>
      rw [freed, ← same]
      exact safe.reached d before
    · exact safe.reached d before
  sent d := by
    rw [setCall_calls]
    split
    · exact sent
    · exact safe.sent d

/-- One call, which the receiver does not get to and whose node is not in the list. -/
theorem of_apart (safe : Safe s) {c : CallId} {k : Call} (apart : ¬ Reaches s c) (off : c ∉ s.tx)
    (sent : k.Sent) : Safe (s.setCall c k) where
  fault := safe.fault
  blocked d member := by
    have differs : d ≠ c := fun same => off (same ▸ member)
    rw [setCall_calls, if_neg differs]
    exact safe.blocked d member
  reached d h := by
    have before : Reaches s d := by
      refine h.of_same rfl (fun _ member => member) fun e reached => ?_
      have differs : e ≠ c := fun same => apart (same ▸ reached)
      rw [setCall_calls, if_neg differs]
    have differs : d ≠ c := fun same => apart (same ▸ before)
    rw [freed_setCall, if_neg differs]
    exact safe.reached d before
  sent d := by
    rw [setCall_calls]
    split
    · exact sent
    · exact safe.sent d

/-- The receiver and the messages move on. -/
theorem of_receiver (safe : Safe s) {s' : State} (calls : s'.calls = s.calls) (tx : s'.tx = s.tx)
    (fault : s'.fault = s.fault) (reached : ∀ c, Reaches s' c → s.freed c = false) : Safe s' where
  fault := fault.trans safe.fault
  blocked := by
    rw [tx, calls]
    exact safe.blocked
  reached c h := by
    rw [State.freed, calls]
    exact reached c h
  sent := by
    rw [calls]
    exact safe.sent

theorem of_pointer (safe : Safe s) {s' : State} (calls : s'.calls = s.calls) (tx : s'.tx = s.tx)
    (fault : s'.fault = s.fault) (walks : s'.receiver.matched = none → s.receiver.matched = none)
    (pointer : ∀ d, s'.receiver.target = some d → Reaches s d ∨ d ∈ s.tx) : Safe s' :=
  safe.of_receiver calls tx fault fun _ h =>
    (h.of_pointer calls tx walks pointer).elim (safe.reached _) safe.listed

/-- The node of a blocked call joins the list. -/
theorem of_push (safe : Safe s) {c : CallId} (blocked : (s.calls c).Blocked) :
    Safe { s with tx := s.tx ++ [c] } where
  fault := safe.fault
  blocked d member := by
    rcases List.mem_append.mp member with old | new
    · exact safe.blocked d old
    · rw [List.mem_singleton.mp new]
      exact blocked
  reached d h := by
    refine safe.reached d (h.of_same rfl ?_ fun _ _ => rfl)
    exact fun _ member => List.mem_append_left _ member
  sent := safe.sent

/-- A node leaves the list; its own call need not be blocked any more. -/
theorem of_extract (nodup : s.tx.Nodup) (c : CallId) (keeps : Bool) (fault : s.fault = false)
    (blocked : ∀ d ∈ s.tx, d ≠ c → (s.calls d).Blocked)
    (reached : ∀ d, Reaches s d ∨ d ∈ s.tx → s.freed d = false) (sent : ∀ d, (s.calls d).Sent) :
    Safe (s.coListExtract c keeps) := by
  have calls := fun d => coListExtract_calls s c d keeps
  constructor
  · rw [State.coListExtract]
    split <;> exact fault
  · intro d member
    rw [coListExtract_tx, nodup.mem_erase_iff] at member
    obtain ⟨hdrNext, same⟩ := calls d
    rw [same]
    exact blocked d member.2 member.1
  · intro d h
    obtain ⟨hdrNext, same⟩ := calls d
    have freed : (s.coListExtract c keeps).freed d = s.freed d := by
      rw [State.freed, same]
      rfl
    rw [freed]
    exact reached d (h.of_extract c keeps)
  · intro d
    obtain ⟨hdrNext, same⟩ := calls d
    rw [same]
    exact sent d

theorem extract (safe : Safe s) (nodup : s.tx.Nodup) (c : CallId) (keeps : Bool) :
    Safe (s.coListExtract c keeps) :=
  of_extract nodup c keeps safe.fault (fun d member _ => safe.blocked d member)
    (fun d h => h.elim (safe.reached d) safe.listed) safe.sent

/-- The steps of `rw_msg_send`. -/
theorem of_sendStep (safe : Safe s) (inv : Inv s) {e : Event} (enabled : Enabled s e)
    (orderly : Orderly s e) : Safe (sendStep s e) := by
  cases e with
  | begin c reqid cfm malloc =>
    have fresh : (s.calls c).Fresh := .inl enabled.2
    refine safe.of_apart (fun h => (h.known inv).1 fresh) (inv.fresh c fresh).1 ?_
    have memory : ¬ (cfm.isSome = true ∧ ¬ malloc = true) := fun h => h.2 (orderly h.1)
    refine .inr (.inl ?_)
    simp only [if_neg memory]
  -- the last node is that of a blocked call, so the push writes to memory that is there
  | pushBack c =>
    simp only [sendStep, safe.last, Bool.false_eq_true, if_false]
    have linked : Safe (s.setCall c { s.calls c with pc := .linked }) := by
      obtain ⟨built, node⟩ := enabled.2
      refine safe.of_setCall rfl ?_ (fun _ => ⟨node, .inl rfl⟩) (.inr (.inr (.inl rfl)))
      simp [State.freed, Call.freed, built]
    refine linked.of_push ?_
    rw [setCall_calls, if_pos rfl]
    exact ⟨enabled.2.2, .inl rfl⟩
  | enqueue c ok =>
    obtain rfl : ok = true := orderly
    simp only [sendStep, if_true]
    rcases enabled.2 with ⟨built, node⟩ | ⟨linked, node⟩
    · -- without a node the call was never in the list
      have off : c ∉ s.tx := (inv.fresh c (.inr built)).1
      refine safe.of_setCall rfl ?_ (fun member => absurd member off) ?_
      · simp [State.freed, Call.freed, node]
      · simp [Call.Sent, node]
    · refine safe.of_setCall rfl ?_ (fun _ => ⟨node, ?_⟩) ?_
      · simp [State.freed, Call.freed, node, linked]
      · simp [node]
      · simp [Call.Sent, node]
  | take c =>
    obtain ⟨waiting, raised⟩ := enabled.2
    -- the semaphore was set, so the receiver has taken the node off
    have woken : c ∈ s.woken := inv.signalled c (.inl raised)
    refine safe.of_setCall rfl ?_ (fun member => absurd woken (inv.listed c member)) ?_
    · simp [State.freed, Call.freed, waiting]
    · exact .of_accepted ((safe.sent c).accepted (by simp [waiting])) (by simp)
  | timeout c =>
    have waiting := enabled.2.1
    refine safe.of_setCall rfl ?_ (fun member => ⟨(safe.blocked c member).1, .inr (.inr rfl)⟩) ?_
    · simp [State.freed, Call.freed, waiting]
    · exact .of_accepted ((safe.sent c).accepted (by simp [waiting])) (by simp)
  | extract c keeps =>
    simp only [sendStep, safe.walk, Bool.false_eq_true, if_false]
    have timedOut : (s.calls c).pc = .timedOut := enabled.2
    have freed : ∀ d, (s.setCall c { s.calls c with pc := .unlinked }).freed d = s.freed d :=
      setCall_field Call.freed (by simp [Call.freed, timedOut])
    -- the call is not blocked any more, and its node leaves in the same critical section
    refine of_extract (s := s.setCall c _) inv.nodup c keeps safe.fault ?_ ?_ ?_
    · intro d member differs
      rw [setCall_calls, if_neg differs]
      exact safe.blocked d member
    · intro d h
      rw [freed]
      rcases h with reached | member
      · refine safe.reached d (reached.of_same rfl (fun _ member => member) fun e _ => ?_)
        exact setCall_field Call.hdrNext (by rfl) e
      · exact safe.listed member
    · intro d
      refine setCall_related (fun k k' => k.Sent → k'.Sent) (fun _ => id) (fun sent => ?_) d (safe.sent d)
      exact .of_accepted (sent.accepted (by simp [timedOut])) (by simp)
  | finish c =>
    simp only [sendStep]
    have sent := safe.sent c
    -- no call that returns is blocked
    have off : c ∉ s.tx := by
      intro member
      obtain ⟨_, blocked⟩ := safe.blocked c member
      rcases enabled.2 with pc | pc | pc <;> simp [pc] at blocked
    rcases enabled.2 with woken | unlinked | refused
    · -- the receiver has woken the call, and does not come back to it
      have signalled : c ∈ s.woken := inv.signalled c (.inr (.inl woken))
      refine safe.of_apart (fun h => (h.known inv).2 signalled) off ?_
      exact .of_accepted (sent.accepted (by simp [woken])) (by simp)
    · refine safe.of_apart (orderly unlinked) off ?_
      exact .of_accepted (sent.accepted (by simp [unlinked])) (by simp)
    · -- an orderly run has no refused request
      simp [Call.Sent, refused] at sent
  | _ => exact safe

/-- The receiver accesses no freed node. -/
theorem no_fault (safe : Safe s) (inv : Inv s) {c : CallId} (target : s.receiver.target = some c)
    (bad : s.freed c = true ∨ s.walkFaults c = true ∨ (s.calls c).semaphore ≠ 0) : False := by
  rcases bad with freed | walk | raised
  · rw [safe.reached c (.here target)] at freed
    exact Bool.noConfusion freed
  · rw [safe.walk] at walk
    exact Bool.noConfusion walk
  · exact inv.target c target (inv.signalled c (.inl (Nat.pos_of_ne_zero raised)))

/-- The steps of `rwnx_recv_msg`. -/
theorem of_received (safe : Safe s) (inv : Inv s) {s' : State} {e : Event} (step : Received s e s') :
    Safe s' := by
  cases step with
  | elsewhere => exact safe
  | fault target bad => exact (safe.no_fault inv target bad).elim
  | pop => exact safe.of_receiver rfl rfl rfl fun c h => absurd h (not_reaches rfl c)
  | pick here =>
    refine safe.of_pointer rfl rfl rfl (fun _ => by rw [here]; rfl) fun d first => ?_
    exact .inr (List.mem_of_mem_head? first)
  | found here =>
    exact safe.of_pointer rfl rfl rfl (fun walks => absurd walks (Option.some_ne_none _)) fun d same =>
      .inl (.here ((congrArg Receiver.target here).trans same))
  | passed here =>
    exact safe.of_pointer rfl rfl rfl (fun _ => by rw [here]; rfl) fun d same =>
      .inl (.here ((congrArg Receiver.target here).trans same))
  | @next m c here =>
    have reached : Reaches s c := .here (by rw [here]; rfl)
    have walks : s.receiver.matched = none := by rw [here]; rfl
    refine safe.of_pointer rfl rfl rfl (fun _ => walks) fun d behind => ?_
    change s.coListNext c = some d at behind
    rw [State.coListNext] at behind
    split at behind
    · exact .inr (mem_of_successor behind)
    next off => exact .inl (.next reached walks off behind)
  | handle => exact safe.of_receiver rfl rfl rfl fun c h => absurd h (not_reaches rfl c)
  | @extractFound m c here keeps =>
    have extracted := safe.extract inv.nodup c keeps
    refine extracted.of_pointer rfl rfl rfl (fun walks => absurd walks (Option.some_ne_none _)) fun d same => ?_
    exact .inl (.here (by rw [coListExtract_receiver, here]; exact same))
  | @copy m c here =>
    have copied : Safe (s.setCall c { s.calls c with cfm := Tlv.overwrite m.param (s.calls c).cfm }) :=
      safe.of_setCall rfl rfl (safe.blocked c) (safe.sent c)
    refine copied.of_pointer rfl rfl rfl (fun walks => absurd walks (Option.some_ne_none _)) fun d same => ?_
    exact .inl (.here ((congrArg Receiver.target here).trans same))
  | @signal m c here _ =>
    have raised : Safe (s.setCall c { s.calls c with semaphore := 1 }) :=
      safe.of_setCall rfl rfl (safe.blocked c) (safe.sent c)
    exact raised.of_receiver rfl rfl rfl fun d h => absurd h (not_reaches rfl d)
  | @release m here =>
    have closed : Safe (s.close m.origin) := by
      cases m.origin with
      | none => exact safe
      | some d => exact safe.of_setCall rfl rfl (safe.blocked d) (safe.sent d)
    exact closed.of_receiver rfl rfl rfl fun d h => absurd h (not_reaches rfl d)

end Safe

theorem safe_next {s : State} (safe : Safe s) (inv : Inv s) {e : Event} (enabled : Enabled s e)
    (orderly : Orderly s e) : Safe (next s e) := by
  cases e with
  | confirm c param =>
    have marked : Safe (s.setCall c { s.calls c with confirmed := true }) :=
      safe.of_setCall rfl rfl (safe.blocked c) (safe.sent c)
    exact marked.of_receiver rfl rfl rfl fun d h =>
      marked.reached d (h.of_same rfl (fun _ member => member) fun _ _ => rfl)
  | indicate id param =>
    exact safe.of_receiver rfl rfl rfl fun d h =>
      safe.reached d (h.of_same rfl (fun _ member => member) fun _ _ => rfl)
  | begin | pushBack | enqueue | take | timeout | extract | finish =>
    exact safe.of_sendStep inv enabled orderly
  | pop | pick | compare | next | handle | extractFound | copy | signal | release =>
    simp only [next]
    exact safe.of_received inv (received s _)

/-! ### The messages of the requests

`ke_msg_alloc` returns the address of the parameters of the message it has allocated; an accepted
message is freed by the kernel that consumes it (`KE_MSG_CONSUMED`). -/

/-- `offsetof(struct ke_msg, param)`. -/
def PARAM_OFFSET : Nat := 12

def keMsg2Param (msg : Nat) : Nat := msg + PARAM_OFFSET

def keParam2Msg (param : Nat) : Nat := if param = 0 then 0 else param - PARAM_OFFSET

structure Requests where
  state : State
  /-- The addresses by which the message of a call was freed, in order. -/
  releases : CallId → List Nat
  consumed : CallId → Bool

def Requests.init : Requests := ⟨State.init, fun _ => [], fun _ => false⟩

inductive RequestEvent where
  | core (e : Event)
  /-- The kernel is done with the message of an accepted request. -/
  | consume (c : CallId)

namespace Requests

/-- `base c` is the message that was allocated for call `c`. -/
def step (base : CallId → Nat) (r : Requests) : RequestEvent → Requests
  | .core (.enqueue c false) =>
    -- `os_free((void*)msg_params)`
    { r with
      state := RwMsg.next r.state (.enqueue c false)
      releases := Function.update r.releases c (r.releases c ++ [keMsg2Param (base c)]) }
  | .core e => { r with state := RwMsg.next r.state e }
  | .consume c =>
    { r with
      releases := Function.update r.releases c
        (r.releases c ++ [keParam2Msg (keMsg2Param (base c))])
      consumed := Function.update r.consumed c true }

def Enabled (r : Requests) : RequestEvent → Prop
  | .core e => RwMsg.Enabled r.state e
  | .consume c => (r.state.calls c).accepted = true ∧ r.consumed c = false

def Orderly (r : Requests) : RequestEvent → Prop
  | .core e => RwMsg.Orderly r.state e
  | .consume _ => True

instance (r : Requests) (e : RequestEvent) : Decidable (r.Enabled e) := by
  unfold Enabled
  cases e <;> infer_instance

/-- The list holds only nodes of calls inside `rw_msg_send`, none that is freed; no freed node was
accessed; and each message was freed at most once and by its own address, a call that has returned
having left it freed or with the kernel. -/
structure Live (base : CallId → Nat) (r : Requests) : Prop where
  blocked : ∀ c ∈ r.state.tx, (r.state.calls c).Blocked
  unlinked : ∀ c, r.state.freed c = true → c ∉ r.state.tx
  fault : r.state.fault = false
  once : ∀ c, r.releases c = [] ∨ r.releases c = [base c]
  settled : ∀ c ret, (r.state.calls c).pc = .returned ret →
    r.releases c = [base c] ∨ ((r.state.calls c).accepted = true ∧ r.consumed c = false)

variable {base : CallId → Nat} {r : Requests}

theorem keParam2Msg_keMsg2Param (msg : Nat) : keParam2Msg (keMsg2Param msg) = msg := by
  simp [keParam2Msg, keMsg2Param, PARAM_OFFSET]

/-- What the kernel has consumed it has freed, and nobody else frees. -/
def Released (base : CallId → Nat) (r : Requests) : Prop :=
  ∀ c, r.releases c = if r.consumed c then [base c] else []

theorem step_core {e : Event} (orderly : RwMsg.Orderly r.state e) :
    r.step base (.core e) = { r with state := RwMsg.next r.state e } := by
  cases e with
  | enqueue c ok =>
    obtain rfl : ok = true := orderly
    rfl
  | _ => rfl

theorem released_step (released : Released base r) {e : RequestEvent} (enabled : r.Enabled e)
    (orderly : r.Orderly e) : Released base (r.step base e) := by
  cases e with
  | core e =>
    rw [step_core orderly]
    exact released
  | consume c =>
    intro d
    simp only [step, keParam2Msg_keMsg2Param]
    by_cases same : d = c
    · subst same
      rw [Function.update_self, Function.update_self, released d, enabled.2]
      rfl
    · rw [Function.update_of_ne same, Function.update_of_ne same]
      exact released d

/-- Every enabled event is one of the machine of calls, or none. -/
theorem step_state (base : CallId → Nat) (e : RequestEvent) (orderly : r.Orderly e) :
    (r.step base e).state = match e with
      | .core e => RwMsg.next r.state e
      | .consume _ => r.state := by
  cases e with
  | core e => rw [step_core orderly]
  | consume c => rfl

structure Sound (base : CallId → Nat) (r : Requests) : Prop where
  inv : Inv r.state
  safe : Safe r.state
  released : Released base r

theorem sound_init : Sound base init := ⟨inv_init, safe_init, fun _ => rfl⟩

theorem sound_step (sound : Sound base r) (e : RequestEvent) (enabled : r.Enabled e)
    (orderly : r.Orderly e) : Sound base (r.step base e) := by
  have released := released_step sound.released enabled orderly
  have state := step_state base e orderly
  cases e with
  | core e =>
    refine ⟨?_, ?_, released⟩
    · rw [state]
      exact inv_next sound.inv enabled
    · rw [state]
      exact safe_next sound.safe sound.inv enabled orderly
  | consume c => exact ⟨sound.inv, sound.safe, released⟩

theorem Sound.live (sound : Sound base r) : Live base r where
  blocked := sound.safe.blocked
  unlinked c freed member := by
    rw [sound.safe.listed member] at freed
    cases freed
  fault := sound.safe.fault
  once c := by
    rw [sound.released c]
    split
    · exact .inr rfl
    · exact .inl rfl
  settled c ret returned := by
    have accepted := (sound.safe.sent c).accepted (by simp [returned])
    rw [sound.released c]
    cases consumed : r.consumed c with
    | true => exact .inl rfl
    | false => exact .inr ⟨accepted, rfl⟩

end Requests

open Requests

/-- The list holds nodes of blocked calls only, freed nodes are not accessed, and every message is
freed once and by its own address, throughout every run in which there is memory for each node, the
queue refuses no request, and no call that timed out frees a node the receiver can still get to. -/
theorem requests_live (base : CallId → Nat) (events : List RequestEvent)
    (enabled : Along (Requests.step base) Requests.Enabled .init events)
    (orderly : Along (Requests.step base) Requests.Orderly .init events) :
    Live base (events.foldl (Requests.step base) .init) :=
  Sound.live ((enabled.and orderly).invariant (P := Sound base)
    (fun _ e sound ok => sound_step sound e ok.1 ok.2) sound_init)

/-- A call that times out while nothing is received; its message is consumed later. -/
theorem requests_live_timeout :
    let r := [.core (.begin 0 5 (some [1, 2]) true), .core (.pushBack 0), .core (.enqueue 0 true),
      .core (.timeout 0), .core (.extract 0 true), .core (.finish 0), .consume 0].foldl
      (Requests.step fun _ => 100) .init
    Live (fun _ => 100) r ∧ r.state.freed 0 = true ∧ r.releases 0 = [100] := by
  refine ⟨requests_live _ _ (by decide +kernel) ?_, by decide +kernel, by decide +kernel⟩
  refine ⟨fun _ => rfl, trivial, rfl, trivial, trivial, fun _ => ?_, trivial, trivial⟩
  exact not_reaches rfl 0

/-- The queue refuses a request: its call returns, and the freed node is still in the list. -/
theorem requests_live_fails :
    ¬ ∀ (base : CallId → Nat) (events : List RequestEvent),
      Along (Requests.step base) Requests.Enabled .init events →
        Live base (events.foldl (Requests.step base) .init) := by
  intro always
  have live := always (fun _ => 100) [.core (.begin 0 5 (some [1, 2]) true), .core (.pushBack 0),
    .core (.enqueue 0 false), .core (.finish 0)] (by decide +kernel)
  exact live.unlinked 0 (by decide +kernel) (by decide +kernel)

end Bk7251.RwMsg
