import Mathlib.Data.List.Nodup
import Bk7251.RwMsg.RwMsg

/-!
# Which confirmation wakes whom

A confirmation is matched with a waiting call by its message id alone. In every run a call that
returns 0 was woken by one confirmation with its id, and no confirmation wakes two calls. The
confirmation is the one for its own request as long as no two requests with one id are open at once.
-/
namespace Bk7251.RwMsg

open Lib

/-- The call the receiver has a pointer to. -/
def Receiver.target : Receiver → Option CallId
  | .walking _ cursor => cursor
  | .passed _ c | .found _ c | .extracted _ c | .copied _ c => some c
  | _ => none

/-- The node the receiver has its `tx_node` on while it walks the list. -/
def Receiver.cursor : Receiver → Option CallId
  | .walking _ cursor => cursor
  | .passed _ c => some c
  | _ => none

/-- The match the receiver has found. -/
def Receiver.matched : Receiver → Option (Msg × CallId)
  | .found m c | .extracted m c | .copied m c => some (m, c)
  | _ => none

/-- The match whose node was taken off the list. -/
def Receiver.taken : Receiver → Option (Msg × CallId)
  | .extracted m c | .copied m c => some (m, c)
  | _ => none

/-- The match whose parameters are in the buffer. -/
def Receiver.filled : Receiver → Option (Msg × CallId)
  | .copied m c => some (m, c)
  | _ => none

/-- The calls whose semaphore was set. -/
def State.woken (s : State) : List CallId := s.deliveries.map Prod.snd

/-- The call's node is not known to anybody yet. -/
def Call.Fresh (k : Call) : Prop := k.pc = .unused ∨ k.pc = .built

/-- The call has been, or will be, woken. -/
def Call.Signalled (k : Call) : Prop :=
  0 < k.semaphore ∨ k.pc = .woken ∨ (k.node = true ∧ k.pc = .returned 0)

/-- A set that the walk of the receiver does not leave, over the list and over nodes that left it
during the walk. -/
structure State.Closed (s : State) (W : Set CallId) : Prop where
  listed : ∀ c ∈ s.tx, c ∈ W
  next : ∀ c ∈ W, c ∉ s.tx → ∀ d, (s.calls c).hdrNext = some d → d ∈ W
  silent : ∀ c ∈ W, c ∉ s.woken
  known : ∀ c ∈ W, ¬ (s.calls c).Fresh

structure Inv (s : State) : Prop where
  nodup : s.tx.Nodup
  cursor : ∀ c, s.receiver.cursor = some c → ∃ W, s.Closed W ∧ c ∈ W
  fresh : ∀ c, (s.calls c).Fresh → c ∉ s.tx ∧ s.receiver.target ≠ some c ∧ c ∉ s.woken
  listed : ∀ c ∈ s.tx, c ∉ s.woken
  target : ∀ c, s.receiver.target = some c → c ∉ s.woken
  matched : ∀ m c, s.receiver.matched = some (m, c) → m.id = (s.calls c).reqid
  gone : ∀ m c, s.receiver.taken = some (m, c) → c ∉ s.tx
  untouched : ∀ c, c ∉ s.woken → (∀ m, s.receiver.filled ≠ some (m, c)) →
    (s.calls c).cfm = (s.calls c).cfm₀
  filled : ∀ m c, s.receiver.filled = some (m, c) →
    (s.calls c).cfm = Tlv.overwrite m.param (s.calls c).cfm₀
  delivered : ∀ m c, (m, c) ∈ s.deliveries →
    m.id = (s.calls c).reqid ∧ (s.calls c).cfm = Tlv.overwrite m.param (s.calls c).cfm₀
  once : s.woken.Nodup
  signalled : ∀ c, (s.calls c).Signalled → c ∈ s.woken

theorem inv_init : Inv State.init := by
  constructor <;> simp [State.init, State.woken, Receiver.target, Receiver.cursor, Receiver.matched,
    Receiver.taken, Receiver.filled, Call.unused, Call.Signalled]

/-- What a step of a call may change about it without touching the list or the receiver. -/
structure SameData (k k' : Call) : Prop where
  reqid : k'.reqid = k.reqid
  cfm₀ : k'.cfm₀ = k.cfm₀
  cfm : k'.cfm = k.cfm
  hdrNext : k'.hdrNext = k.hdrNext
  fresh : k'.Fresh → k.Fresh
  signalled : k'.Signalled → k.Signalled

theorem SameData.refl (k : Call) : SameData k k := ⟨rfl, rfl, rfl, rfl, id, id⟩

theorem setCall_calls (s : State) (c d : CallId) (k : Call) :
    (s.setCall c k).calls d = if d = c then k else s.calls d := by
  simp only [State.setCall, Function.update_apply]

/-- As the new call is related to the old one, so are all calls to what they were. -/
theorem setCall_related {s : State} {c : CallId} {k : Call} (R : Call → Call → Prop)
    (refl : ∀ k, R k k) (self : R (s.calls c) k) (d : CallId) :
    R (s.calls d) ((s.setCall c k).calls d) := by
  rw [setCall_calls]
  split
  next same =>
    subst same
    exact self
  · exact refl _

theorem setCall_field {α : Type} {s : State} {c : CallId} {k : Call} (f : Call → α)
    (self : f k = f (s.calls c)) (d : CallId) : f ((s.setCall c k).calls d) = f (s.calls d) :=
  setCall_related (fun k k' => f k' = f k) (fun _ => rfl) self d

theorem sameData_setCall {s : State} {c : CallId} {k : Call} (same : SameData (s.calls c) k)
    (d : CallId) : SameData (s.calls d) ((s.setCall c k).calls d) :=
  setCall_related SameData SameData.refl same d

theorem State.Closed.of_sameData {s s' : State} {W : Set CallId} (closed : s.Closed W)
    (tx : s'.tx = s.tx) (deliveries : s'.deliveries = s.deliveries)
    (same : ∀ c, SameData (s.calls c) (s'.calls c)) : s'.Closed W where
  listed c member := closed.listed c (tx ▸ member)
  next c member outside d next :=
    closed.next c member (tx ▸ outside) d ((same c).hdrNext ▸ next)
  silent c member := by
    rw [State.woken, deliveries]
    exact closed.silent c member
  known c member fresh := closed.known c member ((same c).fresh fresh)

/-- The list, the receiver's pointers and the deliveries stay, and so does what calls are about. -/
theorem Inv.of_sameData {s s' : State} (inv : Inv s) (tx : s'.tx = s.tx)
    (receiver : s'.receiver = s.receiver) (deliveries : s'.deliveries = s.deliveries)
    (same : ∀ c, SameData (s.calls c) (s'.calls c)) : Inv s' := by
  have woken : s'.woken = s.woken := by rw [State.woken, State.woken, deliveries]
  constructor
  · rw [tx]
    exact inv.nodup
  · intro c here
    rw [receiver] at here
    obtain ⟨W, closed, member⟩ := inv.cursor c here
    exact ⟨W, closed.of_sameData tx deliveries same, member⟩
  · intro c fresh
    rw [tx, receiver, woken]
    exact inv.fresh c ((same c).fresh fresh)
  · rw [tx, woken]
    exact inv.listed
  · rw [receiver, woken]
    exact inv.target
  · rw [receiver]
    intro m c known
    rw [(same c).reqid]
    exact inv.matched m c known
  · rw [receiver, tx]
    exact inv.gone
  · rw [receiver, woken]
    intro c silent empty
    rw [(same c).cfm, (same c).cfm₀]
    exact inv.untouched c silent empty
  · rw [receiver]
    intro m c known
    rw [(same c).cfm, (same c).cfm₀]
    exact inv.filled m c known
  · rw [deliveries]
    intro m c known
    rw [(same c).reqid, (same c).cfm, (same c).cfm₀]
    exact inv.delivered m c known
  · rw [woken]
    exact inv.once
  · intro c signalled
    rw [woken]
    exact inv.signalled c ((same c).signalled signalled)

/-- The receiver moves on; its new pointer is to a call that is known and was not woken. -/
theorem Inv.of_receiver {s : State} (inv : Inv s) {r : Receiver}
    (target : ∀ c, r.target = some c → c ∉ s.woken ∧ ¬ (s.calls c).Fresh)
    (cursor : ∀ c, r.cursor = some c → ∃ W, s.Closed W ∧ c ∈ W)
    (matched : ∀ m c, r.matched = some (m, c) → m.id = (s.calls c).reqid)
    (taken : r.taken = none) (filled : s.receiver.filled = none) :
    Inv { s with receiver := r } := by
  -- a receiver that has taken nothing off the list has filled no buffer
  have empty : r.filled = none := by
    cases r <;> first | rfl | exact absurd taken (by simp [Receiver.taken])
  constructor
  · exact inv.nodup
  · intro c here
    obtain ⟨W, closed, member⟩ := cursor c here
    exact ⟨W, closed.of_sameData rfl rfl fun d => SameData.refl (s.calls d), member⟩
  · intro c fresh
    obtain ⟨absent, _, silent⟩ := inv.fresh c fresh
    exact ⟨absent, fun same => (target c same).2 fresh, silent⟩
  · exact inv.listed
  · exact fun c same => (target c same).1
  · exact matched
  · intro m c known
    simp [taken] at known
  · intro c silent _
    exact inv.untouched c silent (by simp [filled])
  · intro m c known
    simp [empty] at known
  · exact inv.delivered
  · exact inv.once
  · exact inv.signalled

/-- A call nobody knows yet takes up its data. -/
theorem Inv.of_fresh {s : State} (inv : Inv s) {c : CallId} (unknown : (s.calls c).Fresh) {k : Call}
    (buffer : k.cfm = k.cfm₀) (quiet : ¬ k.Signalled) : Inv (s.setCall c k) := by
  obtain ⟨absent, apart, silent⟩ := inv.fresh c unknown
  have other : ∀ d, d ≠ c → (s.setCall c k).calls d = s.calls d := fun d differs => by
    rw [setCall_calls, if_neg differs]
  have self : (s.setCall c k).calls c = k := by rw [setCall_calls, if_pos rfl]
  -- the receiver has no pointer to the call, so its match is another
  have pointed : ∀ m d, s.receiver.matched = some (m, d) → d ≠ c := by
    rintro m d known rfl
    apply apart
    revert known
    cases s.receiver <;> simp [Receiver.matched, Receiver.target]
  constructor
  · exact inv.nodup
  · intro d here
    obtain ⟨W, closed, member⟩ := inv.cursor d here
    -- the call is not in the set, so nothing that is changes
    have outside : ∀ e ∈ W, e ≠ c := fun e inside same => closed.known e inside (same ▸ unknown)
    refine ⟨W, ⟨closed.listed, fun e inside off => ?_, closed.silent, fun e inside => ?_⟩, member⟩
    · rw [other e (outside e inside)]
      exact closed.next e inside off
    · rw [other e (outside e inside)]
      exact closed.known e inside
  · intro d fresh
    by_cases same : d = c
    · subst same
      exact ⟨absent, apart, silent⟩
    · rw [other d same] at fresh
      exact inv.fresh d fresh
  · exact inv.listed
  · exact inv.target
  · intro m d known
    rw [other d (pointed m d known)]
    exact inv.matched m d known
  · exact inv.gone
  · intro d quiet empty
    by_cases same : d = c
    · subst same
      rw [self]
      exact buffer
    · rw [other d same]
      exact inv.untouched d quiet empty
  · intro m d known
    have matched : s.receiver.matched = some (m, d) := by
      have filled : s.receiver.filled = some (m, d) := known
      revert filled
      cases s.receiver <;> simp [Receiver.matched, Receiver.filled]
    rw [other d (pointed m d matched)]
    exact inv.filled m d known
  · intro m d known
    have differs : d ≠ c := by
      rintro rfl
      exact silent (List.mem_map.mpr ⟨(m, d), known, rfl⟩)
    rw [other d differs]
    exact inv.delivered m d known
  · exact inv.once
  · intro d signalled
    by_cases same : d = c
    · subst same
      rw [self] at signalled
      exact absurd signalled quiet
    · rw [other d same] at signalled
      exact inv.signalled d signalled

private theorem target_of_taken {r : Receiver} {m : Msg} {c : CallId} (known : r.taken = some (m, c)) :
    r.target = some c := by
  revert known
  cases r <;> simp [Receiver.taken, Receiver.target]

theorem State.Closed.of_push {s : State} {W : Set CallId} (closed : s.Closed W) {c : CallId}
    (silent : c ∉ s.woken) (known : ¬ (s.calls c).Fresh) :
    State.Closed { s with tx := s.tx ++ [c] } (insert c W) where
  listed d member := by
    rcases List.mem_append.mp member with old | new
    · exact Set.mem_insert_of_mem c (closed.listed d old)
    · rw [List.mem_singleton.mp new]
      exact Set.mem_insert c W
  next d member outside e next := by
    obtain ⟨off, differs⟩ : d ∉ s.tx ∧ d ∉ [c] := by
      rw [← not_or, ← List.mem_append]
      exact outside
    rcases Set.mem_insert_iff.mp member with same | inside
    · exact absurd (List.mem_singleton.mpr same) differs
    · exact Set.mem_insert_of_mem c (closed.next d inside off e next)
  silent d member := by
    rcases Set.mem_insert_iff.mp member with same | inside
    · rw [same]
      exact silent
    · exact closed.silent d inside
  known d member := by
    rcases Set.mem_insert_iff.mp member with same | inside
    · rw [same]
      exact known
    · exact closed.known d inside

/-- The node goes to the end of the list. -/
theorem Inv.of_push {s : State} (inv : Inv s) {c : CallId} (unknown : (s.calls c).Fresh) :
    Inv { s.setCall c { s.calls c with pc := .linked } with tx := s.tx ++ [c] } := by
  obtain ⟨absent, apart, silent⟩ := inv.fresh c unknown
  have same : SameData (s.calls c) { s.calls c with pc := .linked } := by
    refine ⟨rfl, rfl, rfl, rfl, ?_, ?_⟩
    · rintro (fresh | fresh) <;> simp at fresh
    · rintro (count | woke | ⟨_, back⟩)
      · exact .inl count
      · simp at woke
      · simp at back
  have linked : Inv (s.setCall c { s.calls c with pc := .linked }) :=
    inv.of_sameData rfl rfl rfl (sameData_setCall same)
  constructor
  · rw [List.nodup_append_comm]
    exact List.nodup_cons.mpr ⟨absent, inv.nodup⟩
  · intro d here
    obtain ⟨W, closed, member⟩ := linked.cursor d here
    -- the new last node joins the set the walk does not leave
    exact ⟨_, closed.of_push silent (by simp [Call.Fresh, setCall_calls]), Set.mem_insert_of_mem c member⟩
  · intro d fresh
    obtain ⟨outside, others⟩ := linked.fresh d fresh
    refine ⟨?_, others⟩
    intro member
    rcases List.mem_append.mp member with old | new
    · exact outside old
    · rw [List.mem_singleton.mp new] at fresh
      rw [Call.Fresh, setCall_calls, if_pos rfl] at fresh
      simp at fresh
  · intro d member
    rcases List.mem_append.mp member with old | new
    · exact inv.listed d old
    · rw [List.mem_singleton.mp new]
      exact silent
  · exact linked.target
  · exact linked.matched
  · intro m d known member
    rcases List.mem_append.mp member with old | new
    · exact linked.gone m d known old
    · rw [List.mem_singleton.mp new] at known
      exact apart (target_of_taken known)
  · exact linked.untouched
  · exact linked.filled
  · exact linked.delivered
  · exact linked.once
  · exact linked.signalled

theorem mem_of_successor {c d : CallId} {tx : List CallId} (next : successor c tx = some d) :
    d ∈ tx := by
  induction tx with
  | nil => simp [successor] at next
  | cons e tx ih =>
    rw [successor] at next
    split at next
    · exact List.mem_cons_of_mem _ (List.mem_of_mem_head? next)
    · exact List.mem_cons_of_mem _ (ih next)

/-- What the walk finds behind a node of the set is in the set. -/
theorem State.Closed.coListNext {s : State} {W : Set CallId} (closed : s.Closed W) {c d : CallId}
    (member : c ∈ W) (next : s.coListNext c = some d) : d ∈ W := by
  rw [State.coListNext] at next
  split at next
  · exact closed.listed d (mem_of_successor next)
  next off => exact closed.next c member off d next

theorem coListExtract_calls (s : State) (c d : CallId) (keeps : Bool) :
    ∃ hdrNext, (s.coListExtract c keeps).calls d = { s.calls d with hdrNext } := by
  rw [State.coListExtract]
  split
  · change ∃ hdrNext, (s.setCall c _).calls d = _
    rw [setCall_calls]
    split
    next same =>
      subst same
      exact ⟨_, rfl⟩
    · exact ⟨(s.calls d).hdrNext, rfl⟩
  · exact ⟨(s.calls d).hdrNext, rfl⟩

theorem coListExtract_tx (s : State) (c : CallId) (keeps : Bool) :
    (s.coListExtract c keeps).tx = s.tx.erase c := by
  rw [State.coListExtract]
  split
  · rfl
  next off => exact (List.erase_of_not_mem off).symm

@[simp] theorem coListExtract_receiver (s : State) (c : CallId) (keeps : Bool) :
    (s.coListExtract c keeps).receiver = s.receiver := by
  rw [State.coListExtract]
  split <;> rfl

@[simp] theorem coListExtract_deliveries (s : State) (c : CallId) (keeps : Bool) :
    (s.coListExtract c keeps).deliveries = s.deliveries := by
  rw [State.coListExtract]
  split <;> rfl

/-- The node that leaves keeps at most a pointer into the list. -/
theorem State.Closed.of_extract {s : State} {W : Set CallId} (closed : s.Closed W) (c : CallId)
    (keeps : Bool) : (s.coListExtract c keeps).Closed W where
  listed d member := by
    rw [coListExtract_tx] at member
    exact closed.listed d (List.mem_of_mem_erase member)
  next d member off e next := by
    rw [coListExtract_tx] at off
    by_cases inside : d ∈ s.tx
    · -- only the node that leaves was in the list before
      have same : d = c := by
        by_contra differs
        exact off ((List.mem_erase_of_ne differs).mpr inside)
      subst same
      rw [State.coListExtract, if_pos inside] at next
      change ((s.setCall d _).calls d).hdrNext = some e at next
      rw [setCall_calls, if_pos rfl] at next
      change (if keeps then successor d s.tx else none) = some e at next
      split at next
      · exact closed.listed e (mem_of_successor next)
      · simp at next
    · refine closed.next d member inside e ?_
      rw [State.coListExtract] at next
      split at next
      next listed =>
        have differs : d ≠ c := fun same => inside (same ▸ listed)
        change ((s.setCall c _).calls d).hdrNext = some e at next
        rwa [setCall_calls, if_neg differs] at next
      · exact next
  silent d member := by
    rw [State.woken, coListExtract_deliveries]
    exact closed.silent d member
  known d member := by
    obtain ⟨hdrNext, same⟩ := coListExtract_calls s c d keeps
    rw [same]
    exact closed.known d member

/-- A node leaves the list. -/
theorem Inv.of_extract {s : State} (inv : Inv s) (c : CallId) (keeps : Bool) :
    Inv (s.coListExtract c keeps) := by
  have calls := fun d => coListExtract_calls s c d keeps
  have woken : (s.coListExtract c keeps).woken = s.woken := by
    rw [State.woken, coListExtract_deliveries, State.woken]
  constructor
  · rw [coListExtract_tx]
    exact inv.nodup.erase c
  · intro d here
    rw [coListExtract_receiver] at here
    obtain ⟨W, closed, member⟩ := inv.cursor d here
    exact ⟨W, closed.of_extract c keeps, member⟩
  · intro d fresh
    obtain ⟨hdrNext, same⟩ := calls d
    rw [same] at fresh
    obtain ⟨outside, apart, silent⟩ := inv.fresh d fresh
    rw [coListExtract_tx, coListExtract_receiver, woken]
    exact ⟨fun member => outside (List.mem_of_mem_erase member), apart, silent⟩
  · intro d member
    rw [coListExtract_tx] at member
    rw [woken]
    exact inv.listed d (List.mem_of_mem_erase member)
  · rw [coListExtract_receiver, woken]
    exact inv.target
  · rw [coListExtract_receiver]
    intro m d known
    obtain ⟨hdrNext, same⟩ := calls d
    rw [same]
    exact inv.matched m d known
  · rw [coListExtract_receiver, coListExtract_tx]
    exact fun m d known member => inv.gone m d known (List.mem_of_mem_erase member)
  · rw [coListExtract_receiver, woken]
    intro d silent empty
    obtain ⟨hdrNext, same⟩ := calls d
    rw [same]
    exact inv.untouched d silent empty
  · rw [coListExtract_receiver]
    intro m d known
    obtain ⟨hdrNext, same⟩ := calls d
    rw [same]
    exact inv.filled m d known
  · rw [coListExtract_deliveries]
    intro m d known
    obtain ⟨hdrNext, same⟩ := calls d
    rw [same]
    exact inv.delivered m d known
  · rw [woken]
    exact inv.once
  · intro d signalled
    obtain ⟨hdrNext, same⟩ := calls d
    rw [same] at signalled
    rw [woken]
    exact inv.signalled d signalled

/-- The match is taken off the list: its node is there no more. -/
theorem Inv.of_take {s : State} (inv : Inv s) {m : Msg} {c : CallId} (here : s.receiver = .found m c)
    (off : c ∉ s.tx) : Inv { s with receiver := .extracted m c } := by
  have known := inv.target c (by rw [here]; rfl)
  have agrees := inv.matched m c (by rw [here]; rfl)
  constructor
  · exact inv.nodup
  · intro d none
    simp [Receiver.cursor] at none
  · intro d fresh
    obtain ⟨outside, apart, silent⟩ := inv.fresh d fresh
    refine ⟨outside, ?_, silent⟩
    rw [here] at apart
    exact apart
  · exact inv.listed
  · intro d same
    rw [← Option.some.inj same]
    exact known
  · intro m' d same
    rw [← (Prod.mk.inj (Option.some.inj same)).1, ← (Prod.mk.inj (Option.some.inj same)).2]
    exact agrees
  · intro m' d same
    rw [← (Prod.mk.inj (Option.some.inj same)).2]
    exact off
  · intro d silent _
    exact inv.untouched d silent (by simp [here, Receiver.filled])
  · intro m' d none
    simp [Receiver.filled] at none
  · exact inv.delivered
  · exact inv.once
  · exact inv.signalled

/-- The parameters go into the buffer, which the caller's bytes still fill. -/
theorem Inv.of_copy {s : State} (inv : Inv s) {m : Msg} {c : CallId}
    (here : s.receiver = .extracted m c) :
    Inv { s.setCall c { s.calls c with cfm := Tlv.overwrite m.param (s.calls c).cfm } with
      receiver := .copied m c } := by
  have known := inv.target c (by rw [here]; rfl)
  have agrees := inv.matched m c (by rw [here]; rfl)
  have buffer := inv.untouched c known (by simp [here, Receiver.filled])
  obtain ⟨k, new⟩ : ∃ k, k = { s.calls c with cfm := Tlv.overwrite m.param (s.calls c).cfm } := ⟨_, rfl⟩
  rw [← new]
  have calls : ∀ d, (s.setCall c k).calls d = if d = c then k else s.calls d := fun d =>
    setCall_calls s c d k
  have reqid := setCall_field Call.reqid (by rw [new] : k.reqid = (s.calls c).reqid)
  have fresh := setCall_related (fun k k' => k'.Fresh → k.Fresh) (fun _ => id)
    (by rw [new]; exact id : k.Fresh → (s.calls c).Fresh)
  have signalled := setCall_related (fun k k' => k'.Signalled → k.Signalled) (fun _ => id)
    (by rw [new]; exact id : k.Signalled → (s.calls c).Signalled)
  constructor
  · exact inv.nodup
  · intro d none
    simp [Receiver.cursor] at none
  · intro d young
    obtain ⟨outside, apart, silent⟩ := inv.fresh d (fresh d young)
    refine ⟨outside, ?_, silent⟩
    rw [here] at apart
    exact apart
  · exact inv.listed
  · intro d same
    rw [← Option.some.inj same]
    exact known
  · intro m' d same
    rw [← (Prod.mk.inj (Option.some.inj same)).1, ← (Prod.mk.inj (Option.some.inj same)).2]
    exact agrees.trans (reqid c).symm
  · intro m' d same
    rw [← (Prod.mk.inj (Option.some.inj same)).2]
    exact inv.gone m c (by rw [here]; rfl)
  · intro d silent apart
    have differs : d ≠ c := fun same => apart m (by rw [same]; rfl)
    change ((s.setCall c k).calls d).cfm = ((s.setCall c k).calls d).cfm₀
    rw [calls, if_neg differs]
    exact inv.untouched d silent (by simp [here, Receiver.filled])
  · intro m' d same
    rw [← (Prod.mk.inj (Option.some.inj same)).1, ← (Prod.mk.inj (Option.some.inj same)).2]
    change ((s.setCall c k).calls c).cfm = Tlv.overwrite m.param ((s.setCall c k).calls c).cfm₀
    rw [calls, if_pos rfl, new]
    exact congrArg (Tlv.overwrite m.param) buffer
  · intro m' d delivered
    -- a call that was delivered to was woken, and the receiver does not come back to it
    have differs : d ≠ c := by
      rintro rfl
      exact known (List.mem_map.mpr ⟨(m', d), delivered, rfl⟩)
    change m'.id = ((s.setCall c k).calls d).reqid ∧ ((s.setCall c k).calls d).cfm =
      Tlv.overwrite m'.param ((s.setCall c k).calls d).cfm₀
    rw [calls, if_neg differs]
    exact inv.delivered m' d delivered
  · exact inv.once
  · exact fun d woke => inv.signalled d (signalled d woke)

/-- The semaphore of the matched call is set; from now on it counts as woken. -/
theorem Inv.of_signal {s : State} (inv : Inv s) {m : Msg} {c : CallId}
    (here : s.receiver = .copied m c) :
    Inv { s.setCall c { s.calls c with semaphore := 1 } with
      receiver := .finishing m
      deliveries := s.deliveries ++ [(m, c)] } := by
  have known := inv.target c (by rw [here]; rfl)
  have agrees := inv.matched m c (by rw [here]; rfl)
  have off := inv.gone m c (by rw [here]; rfl)
  have filled := inv.filled m c (by rw [here]; rfl)
  obtain ⟨k, new⟩ : ∃ k, k = { s.calls c with semaphore := 1 } := ⟨_, rfl⟩
  rw [← new]
  have calls : ∀ d, (s.setCall c k).calls d = if d = c then k else s.calls d := fun d =>
    setCall_calls s c d k
  have reqid := setCall_field Call.reqid (by rw [new] : k.reqid = (s.calls c).reqid)
  have cfm := setCall_field Call.cfm (by rw [new] : k.cfm = (s.calls c).cfm)
  have cfm₀ := setCall_field Call.cfm₀ (by rw [new] : k.cfm₀ = (s.calls c).cfm₀)
  have fresh := setCall_related (fun k k' => k'.Fresh → k.Fresh) (fun _ => id)
    (by rw [new]; exact id : k.Fresh → (s.calls c).Fresh)
  -- `c` is the only call that is new among the woken ones
  have woken : (s.deliveries ++ [(m, c)]).map Prod.snd = s.woken ++ [c] := by
    simp [State.woken]
  constructor
  · exact inv.nodup
  · intro d none
    simp [Receiver.cursor] at none
  · intro d young
    obtain ⟨outside, apart, silent⟩ := inv.fresh d (fresh d young)
    refine ⟨outside, by simp [Receiver.target], ?_⟩
    change d ∉ (s.deliveries ++ [(m, c)]).map Prod.snd
    rw [woken]
    intro member
    rcases List.mem_append.mp member with old | last
    · exact silent old
    · rw [List.mem_singleton.mp last, here] at apart
      exact apart rfl
  · intro d member
    change d ∉ (s.deliveries ++ [(m, c)]).map Prod.snd
    rw [woken]
    intro later
    rcases List.mem_append.mp later with old | last
    · exact inv.listed d member old
    · rw [List.mem_singleton.mp last] at member
      exact off member
  · intro d none
    simp [Receiver.target] at none
  · intro m' d none
    simp [Receiver.matched] at none
  · intro m' d none
    simp [Receiver.taken] at none
  · intro d silent _
    change d ∉ (s.deliveries ++ [(m, c)]).map Prod.snd at silent
    rw [woken, List.mem_append, List.mem_singleton, not_or] at silent
    change ((s.setCall c k).calls d).cfm = ((s.setCall c k).calls d).cfm₀
    rw [cfm, cfm₀]
    refine inv.untouched d silent.1 fun m' same => silent.2 ?_
    rw [here] at same
    exact (Prod.mk.inj (Option.some.inj same)).2.symm
  · intro m' d none
    simp [Receiver.filled] at none
  · intro m' d member
    change m'.id = ((s.setCall c k).calls d).reqid ∧ ((s.setCall c k).calls d).cfm =
      Tlv.overwrite m'.param ((s.setCall c k).calls d).cfm₀
    rw [reqid, cfm, cfm₀]
    rcases List.mem_append.mp member with old | last
    · exact inv.delivered m' d old
    · obtain ⟨rfl, rfl⟩ := Prod.mk.inj (List.mem_singleton.mp last)
      exact ⟨agrees, filled⟩
  · change ((s.deliveries ++ [(m, c)]).map Prod.snd).Nodup
    rw [woken, List.nodup_append_comm]
    exact List.nodup_cons.mpr ⟨known, inv.once⟩
  · intro d signalled
    change d ∈ (s.deliveries ++ [(m, c)]).map Prod.snd
    rw [woken, List.mem_append, List.mem_singleton]
    by_cases same : d = c
    · exact .inr same
    · change ((s.setCall c k).calls d).Signalled at signalled
      rw [calls, if_neg same] at signalled
      exact .inl (inv.signalled d signalled)

private theorem inv_crash {s : State} (inv : Inv s) : Inv s.crash :=
  inv.of_sameData rfl rfl rfl fun c => SameData.refl (s.calls c)

/-- A step of a call that changes nothing but where it is. -/
private theorem sameData_pc {k : Call} {pc : SenderPc} {semaphore : Nat} {accepted : Bool}
    (known : ¬ (pc = .unused ∨ pc = .built)) (less : semaphore ≤ k.semaphore)
    (woke : pc = .woken → 0 < k.semaphore)
    (back : k.node = true → pc = .returned 0 → k.pc = .woken) :
    SameData k { k with pc, semaphore, accepted } := by
  refine ⟨rfl, rfl, rfl, rfl, fun fresh => absurd fresh known, ?_⟩
  rintro (count | woken | ⟨node, done⟩)
  · exact .inl (Nat.lt_of_lt_of_le count less)
  · exact .inl (woke woken)
  · exact .inr (.inl (back node done))

/-- The steps of `rw_msg_send`. -/
private theorem inv_sendStep {s : State} (inv : Inv s) {e : Event} (enabled : Enabled s e) :
    Inv (sendStep s e) := by
  cases e with
  | begin c reqid cfm malloc =>
    refine inv.of_fresh (.inl enabled.2) rfl ?_
    rintro (count | woke | ⟨_, back⟩)
    · simp at count
    · split at woke <;> simp at woke
    · split at back <;> simp at back
  | pushBack c =>
    simp only [sendStep]
    split
    · exact inv_crash inv
    · exact inv.of_push (.inr enabled.2.1)
  | enqueue c ok =>
    refine inv.of_sameData rfl rfl rfl (sameData_setCall (sameData_pc ?_ (Nat.le_refl _) ?_ ?_))
    · split
      · split <;> simp
      · simp
    · intro woke
      split at woke
      · split at woke <;> simp at woke
      · simp at woke
    · intro node back
      rw [if_pos node] at back
      split at back <;> simp at back
  | take c =>
    exact inv.of_sameData rfl rfl rfl (sameData_setCall
      (sameData_pc (by simp) (Nat.sub_le _ _) (fun _ => enabled.2.2) (by simp)))
  | timeout c =>
    exact inv.of_sameData rfl rfl rfl (sameData_setCall
      (sameData_pc (by simp) (Nat.le_refl _) (by simp) (by simp)))
  | extract c keeps =>
    simp only [sendStep]
    split
    · exact inv_crash inv
    · have moved : Inv (s.setCall c { s.calls c with pc := .unlinked }) :=
        inv.of_sameData rfl rfl rfl
          (sameData_setCall (sameData_pc (by simp) (Nat.le_refl _) (by simp) (by simp)))
      exact moved.of_extract c keeps
  | finish c =>
    refine inv.of_sameData rfl rfl rfl (sameData_setCall
      (sameData_pc (by simp) (Nat.le_refl _) (by simp) ?_))
    intro _ back
    split at back
    next woke => exact woke
    · simp at back
  | _ => exact inv

/-- A walk starts with the list alone. -/
private theorem Inv.closed_list {s : State} (inv : Inv s) : s.Closed { c | c ∈ s.tx } where
  listed _ member := member
  next _ member off := absurd member off
  silent := inv.listed
  known c member fresh := (inv.fresh c fresh).1 member

/-- What the receiver points to is known and was not woken. -/
private theorem Inv.pointer {s : State} (inv : Inv s) {target : Option CallId}
    (here : s.receiver.target = target) (d : CallId) (same : target = some d) :
    d ∉ s.woken ∧ ¬ (s.calls d).Fresh :=
  ⟨inv.target d (here.trans same), fun fresh => (inv.fresh d fresh).2.1 (here.trans same)⟩

/-! ### What the receiver can do -/

/-- The steps of `rwnx_recv_msg`, by where it is. -/
inductive Received (s : State) : Event → State → Prop where
  /-- The receiver is not at the event. -/
  | elsewhere {e : Event} : Received s e s
  | fault {e : Event} {c : CallId} (target : s.receiver.target = some c)
      (bad : s.freed c = true ∨ s.walkFaults c = true ∨ (s.calls c).semaphore ≠ 0) :
      Received s e s.crash
  | pop {m : Msg} {rest : List Msg} (queue : s.rx = m :: rest) :
      Received s .pop { s with rx := rest, receiver := .popped m }
  | pick {m : Msg} (here : s.receiver = .popped m) :
      Received s .pick { s with receiver := .walking m s.tx.head? }
  | found {m : Msg} {c : CallId} (here : s.receiver = .walking m (some c))
      (agrees : m.id = (s.calls c).reqid) : Received s .compare { s with receiver := .found m c }
  | passed {m : Msg} {c : CallId} (here : s.receiver = .walking m (some c)) :
      Received s .compare { s with receiver := .passed m c }
  | next {m : Msg} {c : CallId} (here : s.receiver = .passed m c) :
      Received s .next { s with receiver := .walking m (s.coListNext c) }
  | handle {m : Msg} (here : s.receiver = .walking m none) :
      Received s .handle { s with receiver := .finishing m }
  | extractFound {m : Msg} {c : CallId} (here : s.receiver = .found m c) (keeps : Bool) :
      Received s (.extractFound keeps)
        { s.coListExtract c keeps with rx := s.rx.erase m, receiver := .extracted m c }
  | copy {m : Msg} {c : CallId} (here : s.receiver = .extracted m c) :
      Received s .copy
        { s.setCall c { s.calls c with cfm := Tlv.overwrite m.param (s.calls c).cfm } with
          receiver := .copied m c }
  | signal {m : Msg} {c : CallId} (here : s.receiver = .copied m c) (valid : s.freed c = false) :
      Received s .signal
        { s.setCall c { s.calls c with semaphore := 1 } with
          receiver := .finishing m
          deliveries := s.deliveries ++ [(m, c)] }
  | release {m : Msg} (here : s.receiver = .finishing m) :
      Received s .release { s.close m.origin with receiver := .idle }

theorem received (s : State) (e : Event) : Received s e (recvStep s e) := by
  cases e with
  | pop =>
    simp only [recvStep]
    split
    next queue => exact .pop queue
    · exact .elsewhere
  | pick =>
    simp only [recvStep]
    split
    next here => exact .pick here
    · exact .elsewhere
  | compare =>
    simp only [recvStep]
    split
    next here =>
      split
      next bad => exact .fault (congrArg Receiver.target here) (.inl bad)
      · split
        next agrees => exact .found here agrees
        · exact .passed here
    · exact .elsewhere
  | next =>
    simp only [recvStep]
    split
    next here =>
      split
      next bad => exact .fault (congrArg Receiver.target here) (.inl bad)
      · exact .next here
    · exact .elsewhere
  | handle =>
    simp only [recvStep]
    split
    next here => exact .handle here
    · exact .elsewhere
  | extractFound keeps =>
    simp only [recvStep]
    split
    next here =>
      split
      next bad => exact .fault (congrArg Receiver.target here) (.inr (.inl bad))
      · exact .extractFound here keeps
    · exact .elsewhere
  | copy =>
    simp only [recvStep]
    split
    next here =>
      split
      next bad => exact .fault (congrArg Receiver.target here) (.inl bad)
      · exact .copy here
    · exact .elsewhere
  | signal =>
    simp only [recvStep]
    split
    next here =>
      split
      next bad => exact .fault (congrArg Receiver.target here) (bad.imp id .inr)
      next fine => exact .signal here (Bool.eq_false_of_not_eq_true fun bad => fine (.inl bad))
    · exact .elsewhere
  | release =>
    simp only [recvStep]
    split
    next here => exact .release here
    · exact .elsewhere
  | _ => exact .elsewhere

/-- The steps of `rwnx_recv_msg`. -/
private theorem Inv.of_received {s s' : State} (inv : Inv s) {e : Event} (enabled : Enabled s e)
    (step : Received s e s') : Inv s' := by
  cases step with
  | elsewhere => exact inv
  | fault => exact inv_crash inv
  | @pop m rest queue =>
    have idle : s.receiver = .idle := enabled.2
    have moved := inv.of_receiver (r := .popped m) (by simp [Receiver.target])
      (by simp [Receiver.cursor]) (by simp [Receiver.matched]) rfl (by rw [idle]; rfl)
    exact moved.of_sameData rfl rfl rfl fun c => SameData.refl (s.calls c)
  | pick here =>
    have list := inv.closed_list
    refine inv.of_receiver (fun c first => ?_) (fun c first => ?_) (by simp [Receiver.matched]) rfl
      (by rw [here]; rfl)
    · have member := List.mem_of_mem_head? first
      exact ⟨list.silent c member, list.known c member⟩
    · exact ⟨_, list, List.mem_of_mem_head? first⟩
  | @found m c here agrees =>
    have pointer := inv.pointer (congrArg Receiver.target here)
    refine inv.of_receiver pointer (by simp [Receiver.cursor]) ?_ rfl (by rw [here]; rfl)
    intro m' d same
    obtain ⟨rfl, rfl⟩ := Prod.mk.inj (Option.some.inj same)
    exact agrees
  | passed here =>
    have pointer := inv.pointer (congrArg Receiver.target here)
    refine inv.of_receiver pointer (fun d same => inv.cursor d ?_) (by simp [Receiver.matched]) rfl
      (by rw [here]; rfl)
    rw [here]
    exact same
  | next here =>
    -- the successor is in the set the walk does not leave
    obtain ⟨W, closed, member⟩ := inv.cursor _ (congrArg Receiver.cursor here)
    refine inv.of_receiver (fun d later => ?_) (fun d later => ?_) (by simp [Receiver.matched]) rfl
      (by rw [here]; rfl)
    · have inside := closed.coListNext member later
      exact ⟨closed.silent d inside, closed.known d inside⟩
    · exact ⟨W, closed, closed.coListNext member later⟩
  | handle here =>
    exact inv.of_receiver (by simp [Receiver.target]) (by simp [Receiver.cursor])
      (by simp [Receiver.matched]) rfl (by rw [here]; rfl)
  | @extractFound m c here keeps =>
    have left := inv.of_extract c keeps
    have off : c ∉ (s.coListExtract c keeps).tx := by
      rw [coListExtract_tx]
      exact inv.nodup.not_mem_erase
    have taken := left.of_take ((coListExtract_receiver s c keeps).trans here) off
    exact taken.of_sameData rfl rfl rfl fun d => SameData.refl _
  | copy here => exact inv.of_copy here
  | signal here => exact inv.of_signal here
  | @release m here =>
    have idle := inv.of_receiver (r := .idle) (by simp [Receiver.target]) (by simp [Receiver.cursor])
      (by simp [Receiver.matched]) rfl (by rw [here]; rfl)
    cases origin : m.origin with
    | none => exact idle
    | some d => exact idle.of_sameData rfl rfl rfl (sameData_setCall ⟨rfl, rfl, rfl, rfl, id, id⟩)

/-- One step keeps the invariant. -/
theorem inv_next {s : State} (inv : Inv s) {e : Event} (enabled : Enabled s e) : Inv (next s e) := by
  cases e with
  | confirm c param =>
    have marked : Inv (s.setCall c { s.calls c with confirmed := true }) :=
      inv.of_sameData rfl rfl rfl (sameData_setCall ⟨rfl, rfl, rfl, rfl, id, id⟩)
    exact marked.of_sameData rfl rfl rfl fun d => SameData.refl _
  | indicate id param => exact inv.of_sameData rfl rfl rfl fun d => SameData.refl (s.calls d)
  | begin | pushBack | enqueue | take | timeout | extract | finish => exact inv_sendStep inv enabled
  | pop | pick | compare | next | handle | extractFound | copy | signal | release =>
    exact inv.of_received enabled (received s _)

end Bk7251.RwMsg
