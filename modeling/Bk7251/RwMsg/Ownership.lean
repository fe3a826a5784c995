import Bk7251.RwMsg.Matching

/-!
# Whose confirmation it is

A confirmation keeps the request it was produced for as its origin, which the code cannot see. The
matching by message id finds the origin as long as requests with one id do not overlap.
-/
namespace Bk7251.RwMsg

open Lib

/-- The message the receiver holds. -/
def Receiver.message : Receiver → Option Msg
  | .idle => none
  | .popped m | .walking m _ | .passed m _ | .found m _ | .extracted m _ | .copied m _ | .finishing m =>
    some m

/-- The message the receiver holds, up to its delivery. -/
def Receiver.undelivered : Receiver → Option Msg
  | .idle | .finishing _ => none
  | .popped m | .walking m _ | .passed m _ | .found m _ | .extracted m _ | .copied m _ => some m

/-- The messages that are not freed yet. -/
def State.pending (s : State) : List Msg := s.receiver.message.toList ++ s.rx

/-- The messages that were delivered or can still be. -/
def State.uids (s : State) : List Nat :=
  s.deliveries.map (·.1.uid) ++ (s.receiver.undelivered.toList ++ s.rx).map (·.uid)

/-- The request can still be waiting, or have a confirmation on its way. -/
def Call.Open (k : Call) : Prop :=
  k.pc ≠ .unused ∧ ((∀ ret, k.pc ≠ .returned ret) ∨ (k.accepted = true ∧ k.handled = false))

/-- No request is sent while one with its confirm id is open, and no indication comes with the
confirm id of an open request. -/
def NoOverlap (s : State) : Event → Prop
  | .begin _ reqid _ _ =>
    (∀ d, (s.calls d).Open → (s.calls d).reqid ≠ reqid) ∧
      ∀ m ∈ s.pending, m.origin = none → m.id ≠ reqid
  | .indicate id _ => ∀ d, (s.calls d).Open → (s.calls d).reqid ≠ id
  | _ => True

/-- Where a call must have come for its request to be with the MAC. -/
structure Call.Sound (k : Call) : Prop where
  sent : k.accepted = true → k.pc ≠ .unused ∧ k.pc ≠ .built ∧ k.pc ≠ .linked
  settled : k.handled = true → k.confirmed = true

/-! ### Messages are delivered once -/

structure Numbered (s : State) : Prop where
  nodup : s.uids.Nodup
  below : ∀ u ∈ s.uids, u < s.nextUid

theorem numbered_init : Numbered State.init := by
  constructor <;> simp [State.uids, State.init, Receiver.undelivered]

theorem Numbered.of_sublist {s s' : State} (numbered : Numbered s) (uids : s'.uids.Sublist s.uids)
    (nextUid : s'.nextUid = s.nextUid) : Numbered s' where
  nodup := uids.nodup numbered.nodup
  below u member := by
    rw [nextUid]
    exact numbered.below u (uids.subset member)

/-- A new message gets a new number. -/
theorem Numbered.of_fwd {s : State} (numbered : Numbered s) (id : UInt16) (param : List UInt8)
    (origin : Option CallId) : Numbered (s.mrKmsgFwd id param origin) := by
  have uids : (s.mrKmsgFwd id param origin).uids = s.uids ++ [s.nextUid] := by
    simp [State.uids, State.mrKmsgFwd]
  have fresh : s.nextUid ∉ s.uids := fun member => Nat.lt_irrefl _ (numbered.below _ member)
  constructor
  · rw [uids, List.nodup_append_comm]
    exact List.nodup_cons.mpr ⟨fresh, numbered.nodup⟩
  · intro u member
    rw [uids] at member
    change u < s.nextUid + 1
    rcases List.mem_append.mp member with old | new
    · exact Nat.lt_succ_of_lt (numbered.below u old)
    · rw [List.mem_singleton.mp new]
      exact Nat.lt_succ_self _

/-- The steps of a call leave the messages alone. -/
theorem sendStep_messages (s : State) (e : Event) :
    (sendStep s e).rx = s.rx ∧ (sendStep s e).receiver = s.receiver ∧
      (sendStep s e).deliveries = s.deliveries ∧ (sendStep s e).nextUid = s.nextUid := by
  cases e with
  | pushBack c =>
    simp only [sendStep]
    split <;> exact ⟨rfl, rfl, rfl, rfl⟩
  | extract c keeps =>
    simp only [sendStep]
    split
    · exact ⟨rfl, rfl, rfl, rfl⟩
    · rw [State.coListExtract]
      split <;> exact ⟨rfl, rfl, rfl, rfl⟩
  | _ => exact ⟨rfl, rfl, rfl, rfl⟩

theorem coListExtract_rx (s : State) (c : CallId) (keeps : Bool) :
    (s.coListExtract c keeps).rx = s.rx ∧ (s.coListExtract c keeps).nextUid = s.nextUid := by
  rw [State.coListExtract]
  split <;> exact ⟨rfl, rfl⟩

theorem close_messages (s : State) (origin : Option CallId) :
    (s.close origin).rx = s.rx ∧ (s.close origin).deliveries = s.deliveries ∧
      (s.close origin).nextUid = s.nextUid := by
  cases origin <;> exact ⟨rfl, rfl, rfl⟩

/-- The receiver passes messages on or drops them. -/
theorem uids_received {s s' : State} {e : Event} (enabled : Enabled s e) (step : Received s e s') :
    s'.uids.Sublist s.uids ∧ s'.nextUid = s.nextUid := by
  cases step with
  | elsewhere => exact ⟨List.Sublist.refl _, rfl⟩
  | fault => exact ⟨List.Sublist.refl _, rfl⟩
  | pop queue =>
    have idle : s.receiver = .idle := enabled.2
    simp [State.uids, idle, queue, Receiver.undelivered]
  | pick here => simp [State.uids, here, Receiver.undelivered]
  | found here => simp [State.uids, here, Receiver.undelivered]
  | passed here => simp [State.uids, here, Receiver.undelivered]
  | next here => simp [State.uids, here, Receiver.undelivered]
  | handle here => simp [State.uids, here, Receiver.undelivered]
  | @extractFound m c here keeps =>
    refine ⟨?_, (coListExtract_rx s c keeps).2⟩
    simp only [State.uids, here, Receiver.undelivered, coListExtract_deliveries]
    -- `m` itself is kept in the receiver; the queue may lose an equal message
    exact ((List.erase_sublist.append_left _).map _).append_left _
  | copy here => simp [State.uids, here, Receiver.undelivered, State.setCall]
  | signal here => simp [State.uids, here, Receiver.undelivered, State.setCall]
  | @release m here =>
    obtain ⟨rx, deliveries, nextUid⟩ := close_messages s m.origin
    simp [State.uids, here, Receiver.undelivered, rx, deliveries, nextUid]

theorem numbered_next {s : State} (numbered : Numbered s) {e : Event} (enabled : Enabled s e) :
    Numbered (next s e) := by
  cases e with
  | confirm c param => exact Numbered.of_fwd (s := s.setCall c _) ⟨numbered.nodup, numbered.below⟩ _ _ _
  | indicate id param => exact numbered.of_fwd id param none
  | begin | pushBack | enqueue | take | timeout | extract | finish =>
    obtain ⟨rx, receiver, deliveries, nextUid⟩ := sendStep_messages s _
    refine numbered.of_sublist ?_ nextUid
    simp only [next, State.uids, rx, receiver, deliveries, List.Sublist.refl]
  | pop | pick | compare | next | handle | extractFound | copy | signal | release =>
    obtain ⟨uids, nextUid⟩ := uids_received enabled (received s _)
    exact numbered.of_sublist uids nextUid

/-! ### What a step keeps of each request -/

/-- An accepted request stays what it is. -/
structure Kept (k k' : Call) : Prop where
  accepted : k.accepted = true → k'.accepted = true ∧ k'.reqid = k.reqid
  confirmed : k.accepted = true → k.confirmed = true → k'.confirmed = true
  handled : k.accepted = true → k.handled = false → k'.handled = false
  sound : k.Sound → k'.Sound

theorem Kept.refl (k : Call) : Kept k k := ⟨fun h => ⟨h, rfl⟩, fun _ => id, fun _ => id, id⟩

/-- A step after which no request is open that was not before. -/
structure Quiet (s s' : State) : Prop where
  pending : s'.pending.Sublist s.pending
  deliveries : s'.deliveries = s.deliveries
  kept : ∀ c, Kept (s.calls c) (s'.calls c)
  opened : ∀ c, (s'.calls c).Open → (s.calls c).Open ∧ (s'.calls c).reqid = (s.calls c).reqid

theorem Quiet.refl (s : State) : Quiet s s :=
  ⟨List.Sublist.refl _, rfl, fun c => Kept.refl (s.calls c), fun _ known => ⟨known, rfl⟩⟩

theorem Quiet.crash (s : State) : Quiet s s.crash :=
  ⟨List.Sublist.refl _, rfl, fun c => Kept.refl (s.calls c), fun _ known => ⟨known, rfl⟩⟩

theorem Quiet.of_setCall {s : State} {c : CallId} {k : Call} (kept : Kept (s.calls c) k)
    (opened : k.Open → (s.calls c).Open ∧ k.reqid = (s.calls c).reqid) : Quiet s (s.setCall c k) where
  pending := List.Sublist.refl _
  deliveries := rfl
  kept := setCall_related Kept Kept.refl kept
  opened := setCall_related (fun k k' => k'.Open → k.Open ∧ k'.reqid = k.reqid)
    (fun _ known => ⟨known, rfl⟩) opened

/-- The receiver moves on with its message, or without one. -/
theorem Quiet.of_receiver (s : State) {r : Receiver}
    (message : r.message.toList.Sublist s.receiver.message.toList) :
    Quiet s { s with receiver := r } where
  pending := message.append_right s.rx
  deliveries := rfl
  kept c := Kept.refl (s.calls c)
  opened _ known := ⟨known, rfl⟩

theorem Quiet.of_extract (s : State) (c : CallId) (keeps : Bool) : Quiet s (s.coListExtract c keeps) := by
  have calls := fun d => coListExtract_calls s c d keeps
  constructor
  · rw [State.pending, coListExtract_receiver, (coListExtract_rx s c keeps).1, State.pending]
  · exact coListExtract_deliveries s c keeps
  · intro d
    obtain ⟨hdrNext, same⟩ := calls d
    rw [same]
    exact ⟨fun h => ⟨h, rfl⟩, fun _ => id, fun _ => id, fun sound => ⟨sound.sent, sound.settled⟩⟩
  · intro d known
    obtain ⟨hdrNext, same⟩ := calls d
    rw [same] at known ⊢
    exact ⟨known, rfl⟩

theorem Quiet.trans {s t u : State} (first : Quiet s t) (second : Quiet t u) : Quiet s u where
  pending := second.pending.trans first.pending
  deliveries := second.deliveries.trans first.deliveries
  kept c := by
    have early := first.kept c
    have late := second.kept c
    constructor
    · intro accepted
      obtain ⟨still, reqid⟩ := early.accepted accepted
      exact ⟨(late.accepted still).1, (late.accepted still).2.trans reqid⟩
    · exact fun accepted known =>
        late.confirmed (early.accepted accepted).1 (early.confirmed accepted known)
    · exact fun accepted known =>
        late.handled (early.accepted accepted).1 (early.handled accepted known)
    · exact fun sound => late.sound (early.sound sound)
  opened c known := by
    obtain ⟨before, reqid⟩ := second.opened c known
    obtain ⟨start, same⟩ := first.opened c before
    exact ⟨start, reqid.trans same⟩

/-- A call that goes on to `pc` with its request where it was. -/
private theorem quiet_pc {s : State} {c : CallId} {pc : SenderPc} {semaphore : Nat}
    (late : pc ≠ .unused ∧ pc ≠ .built ∧ ((s.calls c).accepted = true → pc ≠ .linked))
    (running : (s.calls c).pc ≠ .unused ∧ ∀ ret, (s.calls c).pc ≠ .returned ret) :
    Quiet s (s.setCall c { s.calls c with pc, semaphore }) := by
  refine Quiet.of_setCall ⟨fun h => ⟨h, rfl⟩, fun _ => id, fun _ => id, fun sound => ?_⟩ ?_
  · exact ⟨fun accepted => ⟨late.1, late.2.1, late.2.2 accepted⟩, sound.settled⟩
  · exact fun _ => ⟨⟨running.1, .inl running.2⟩, rfl⟩

/-- The steps of a call after its first. -/
private theorem quiet_sendStep {s : State} (sound : ∀ c, (s.calls c).Sound) {e : Event}
    (enabled : Enabled s e) (later : ∀ c reqid cfm malloc, e ≠ .begin c reqid cfm malloc) :
    Quiet s (sendStep s e) := by
  cases e with
  | begin c reqid cfm malloc => exact absurd rfl (later c reqid cfm malloc)
  | pushBack c =>
    have built : (s.calls c).pc = .built := enabled.2.1
    simp only [sendStep]
    split
    · exact Quiet.crash s
    · have silent : (s.calls c).accepted ≠ true := fun accepted => ((sound c).sent accepted).2.1 built
      have moved : Quiet s (s.setCall c { s.calls c with pc := .linked }) :=
        quiet_pc ⟨by simp, by simp, fun accepted => absurd accepted silent⟩ (by simp [built])
      exact ⟨moved.pending, moved.deliveries, moved.kept, moved.opened⟩
  | enqueue c ok =>
    have silent : (s.calls c).accepted ≠ true := fun accepted => by
      obtain ⟨_, notBuilt, notLinked⟩ := (sound c).sent accepted
      exact enabled.2.elim (fun here => notBuilt here.1) (fun here => notLinked here.1)
    have running : (s.calls c).pc ≠ .unused ∧ ∀ ret, (s.calls c).pc ≠ .returned ret := by
      rcases enabled.2 with here | here <;> simp [here.1]
    refine Quiet.of_setCall ⟨fun h => absurd h silent, fun h => absurd h silent,
      fun h => absurd h silent, fun known => ⟨fun _ => ?_, known.settled⟩⟩
      fun _ => ⟨⟨running.1, .inl running.2⟩, rfl⟩
    cases node : (s.calls c).node <;> cases ok <;> simp
  | take c =>
    have here : (s.calls c).pc = .waiting := enabled.2.1
    exact quiet_pc (by simp) (by simp [here])
  | timeout c =>
    have here : (s.calls c).pc = .waiting := enabled.2.1
    exact quiet_pc (by simp) (by simp [here])
  | extract c keeps =>
    have here : (s.calls c).pc = .timedOut := enabled.2
    simp only [sendStep]
    split
    · exact Quiet.crash s
    · have moved : Quiet s (s.setCall c { s.calls c with pc := .unlinked }) :=
        quiet_pc (by simp) (by simp [here])
      exact moved.trans (Quiet.of_extract _ c keeps)
  | finish c =>
    refine quiet_pc (by simp) ?_
    rcases enabled.2 with here | here | here <;> simp [here]
  | _ => exact Quiet.refl s

/-- The steps of the receiver up to the delivery or the handler. -/
private theorem quiet_received {s s' : State} {e : Event} (enabled : Enabled s e)
    (inner : e ≠ .signal ∧ e ≠ .release) (step : Received s e s') : Quiet s s' := by
  cases step with
  | elsewhere => exact Quiet.refl s
  | fault => exact Quiet.crash s
  | pop queue =>
    have idle : s.receiver = .idle := enabled.2
    refine ⟨?_, rfl, fun c => Kept.refl (s.calls c), fun _ known => ⟨known, rfl⟩⟩
    simp [State.pending, idle, queue, Receiver.message]
  | pick here => exact Quiet.of_receiver s (by simp [here, Receiver.message])
  | found here => exact Quiet.of_receiver s (by simp [here, Receiver.message])
  | passed here => exact Quiet.of_receiver s (by simp [here, Receiver.message])
  | next here => exact Quiet.of_receiver s (by simp [here, Receiver.message])
  | handle here => exact Quiet.of_receiver s (by simp [here, Receiver.message])
  | @extractFound m c here keeps =>
    have left := Quiet.of_extract s c keeps
    refine ⟨?_, left.deliveries, left.kept, left.opened⟩
    simp only [State.pending, here, Receiver.message]
    exact List.erase_sublist.append_left _
  | @copy m c here =>
    have filled : Quiet s
        (s.setCall c { s.calls c with cfm := Tlv.overwrite m.param (s.calls c).cfm }) :=
      Quiet.of_setCall ⟨fun h => ⟨h, rfl⟩, fun _ => id, fun _ => id,
        fun sound => ⟨sound.sent, sound.settled⟩⟩ fun known => ⟨known, rfl⟩
    exact filled.trans (Quiet.of_receiver _ (by simp [here, Receiver.message, State.setCall]))
  | signal => exact absurd rfl inner.1
  | release => exact absurd rfl inner.2

/-! ### Where a message comes from -/

/-- Every confirmation on its way is the only one of an accepted request, and has its confirm id. -/
structure Sourced (s : State) : Prop where
  sound : ∀ c, (s.calls c).Sound
  known : ∀ m ∈ s.pending, ∀ d, m.origin = some d → (s.calls d).accepted = true ∧
    (s.calls d).confirmed = true ∧ (s.calls d).handled = false ∧ m.id = (s.calls d).reqid
  single : (s.pending.filterMap Msg.origin).Nodup
  answered : ∀ m c, (m, c) ∈ s.deliveries → ∀ d, m.origin = some d →
    (s.calls d).accepted = true ∧ m.id = (s.calls d).reqid

theorem sourced_init : Sourced State.init := by
  constructor
  · exact fun c => ⟨by simp [State.init, Call.unused], by simp [State.init, Call.unused]⟩
  all_goals simp [State.init, State.pending, Receiver.message]

theorem Sourced.of_kept {s s' : State} (sourced : Sourced s) (pending : s'.pending.Sublist s.pending)
    (deliveries : s'.deliveries = s.deliveries) (kept : ∀ c, Kept (s.calls c) (s'.calls c)) :
    Sourced s' where
  sound c := (kept c).sound (sourced.sound c)
  known m member d origin := by
    obtain ⟨accepted, confirmed, handled, id⟩ := sourced.known m (pending.subset member) d origin
    obtain ⟨still, reqid⟩ := (kept d).accepted accepted
    exact ⟨still, (kept d).confirmed accepted confirmed, (kept d).handled accepted handled,
      id.trans reqid.symm⟩
  single := (pending.filterMap Msg.origin).nodup sourced.single
  answered m c member d origin := by
    rw [deliveries] at member
    obtain ⟨accepted, id⟩ := sourced.answered m c member d origin
    obtain ⟨still, reqid⟩ := (kept d).accepted accepted
    exact ⟨still, id.trans reqid.symm⟩

/-- A new message is a confirmation only if it is the first one of its request. -/
theorem Sourced.of_fwd {s : State} (sourced : Sourced s) {id : UInt16} {param : List UInt8}
    {origin : Option CallId}
    (source : ∀ d, origin = some d → (s.calls d).accepted = true ∧ (s.calls d).confirmed = true ∧
      (s.calls d).handled = false ∧ id = (s.calls d).reqid)
    (first : ∀ d, origin = some d → d ∉ s.pending.filterMap Msg.origin) :
    Sourced (s.mrKmsgFwd id param origin) := by
  have pending : (s.mrKmsgFwd id param origin).pending = s.pending ++ [⟨s.nextUid, id, param, origin⟩] := by
    simp [State.pending, State.mrKmsgFwd]
  constructor
  · exact sourced.sound
  · intro m member d asked
    rw [pending] at member
    rcases List.mem_append.mp member with old | new
    · exact sourced.known m old d asked
    · rw [List.mem_singleton.mp new] at asked ⊢
      exact source d asked
  · rw [pending, List.filterMap_append]
    cases origin with
    | none => simpa using sourced.single
    | some d =>
      rw [List.nodup_append_comm]
      exact List.nodup_cons.mpr ⟨first d rfl, sourced.single⟩
  · exact sourced.answered

/-- A message the receiver holds is delivered. -/
theorem Sourced.of_deliver {s : State} (sourced : Sourced s) {m : Msg} (held : m ∈ s.pending)
    (c : CallId) : Sourced { s with deliveries := s.deliveries ++ [(m, c)] } where
  sound := sourced.sound
  known := sourced.known
  single := sourced.single
  answered m' c' member d origin := by
    rcases List.mem_append.mp member with old | new
    · exact sourced.answered m' c' old d origin
    · obtain ⟨rfl, rfl⟩ := Prod.mk.inj (List.mem_singleton.mp new)
      obtain ⟨accepted, _, _, id⟩ := sourced.known m' held d origin
      exact ⟨accepted, id⟩

/-- The message is freed; if it was a confirmation, its request is settled. -/
theorem Sourced.of_release {s : State} (sourced : Sourced s) {m : Msg} (here : s.receiver = .finishing m) :
    Sourced { s.close m.origin with receiver := .idle } := by
  have pending : s.pending = m :: s.rx := by simp [State.pending, here, Receiver.message]
  have rest : s.rx.Sublist s.pending := by
    rw [pending]
    exact List.sublist_cons_self m s.rx
  cases origin : m.origin with
  | none => exact sourced.of_kept rest rfl fun c => Kept.refl (s.calls c)
  | some e =>
    have settled := sourced.known m (by simp [pending]) e origin
    have calls : ∀ d, ((s.close (some e)).calls d) =
        if d = e then { s.calls e with handled := true } else s.calls d := fun d => setCall_calls s e d _
    -- no other message confirms the same request
    have other : ∀ m' ∈ s.rx, ∀ d, m'.origin = some d → d ≠ e := by
      rintro m' member d source rfl
      have nodup := sourced.single
      rw [pending, List.filterMap_cons_some origin] at nodup
      exact (List.nodup_cons.mp nodup).1 (List.mem_filterMap.mpr ⟨m', member, source⟩)
    constructor
    · intro d
      change ((s.close (some e)).calls d).Sound
      rw [calls]
      split
      next same =>
        subst same
        exact ⟨(sourced.sound d).sent, fun _ => settled.2.1⟩
      · exact sourced.sound d
    · intro m' member d source
      change ((s.close (some e)).calls d).accepted = true ∧ _
      rw [calls, if_neg (other m' member d source)]
      exact sourced.known m' (rest.subset member) d source
    · exact (rest.filterMap Msg.origin).nodup sourced.single
    · intro m' c member d source
      have answered := sourced.answered m' c member d source
      change ((s.close (some e)).calls d).accepted = true ∧ m'.id = ((s.close (some e)).calls d).reqid
      rw [calls]
      split
      next same =>
        subst same
        exact answered
      · exact answered

/-- What `signal` does before the delivery is noted. -/
private theorem quiet_signal {s : State} {m : Msg} {c : CallId} (here : s.receiver = .copied m c) :
    Quiet s { s.setCall c { s.calls c with semaphore := 1 } with receiver := .finishing m } := by
  have set : Quiet s (s.setCall c { s.calls c with semaphore := 1 }) :=
    Quiet.of_setCall ⟨fun h => ⟨h, rfl⟩, fun _ => id, fun _ => id,
      fun sound => ⟨sound.sent, sound.settled⟩⟩ fun known => ⟨known, rfl⟩
  exact set.trans (Quiet.of_receiver _ (by simp [here, Receiver.message, State.setCall]))

/-- What `confirm` does before the message is sent. -/
private theorem quiet_confirm (s : State) (c : CallId) :
    Quiet s (s.setCall c { s.calls c with confirmed := true }) :=
  Quiet.of_setCall ⟨fun h => ⟨h, rfl⟩, fun _ _ => rfl, fun _ => id,
    fun sound => ⟨sound.sent, fun _ => rfl⟩⟩ fun known => ⟨known, rfl⟩

theorem sourced_next {s : State} (sourced : Sourced s) {e : Event} (enabled : Enabled s e) :
    Sourced (next s e) := by
  have quiet {s' : State} (step : Quiet s s') : Sourced s' :=
    sourced.of_kept step.pending step.deliveries step.kept
  cases e with
  | begin c reqid cfm malloc =>
    refine sourced.of_kept (List.Sublist.refl _) rfl (setCall_related Kept Kept.refl ?_)
    have silent : (s.calls c).accepted ≠ true := fun accepted =>
      ((sourced.sound c).sent accepted).1 enabled.2
    exact ⟨fun h => absurd h silent, fun h => absurd h silent, fun h => absurd h silent,
      fun _ => ⟨by simp, by simp⟩⟩
  | pushBack | enqueue | take | timeout | extract | finish =>
    exact quiet (quiet_sendStep sourced.sound enabled (by simp))
  | confirm c param =>
    have unconfirmed : (s.calls c).confirmed = false := enabled.2.2
    have marked := quiet (quiet_confirm s c)
    have self : (s.setCall c { s.calls c with confirmed := true }).calls c =
        { s.calls c with confirmed := true } := by rw [setCall_calls, if_pos rfl]
    refine marked.of_fwd ?_ ?_
    · intro d source
      rw [← Option.some.inj source, self]
      refine ⟨enabled.2.1, rfl, ?_, rfl⟩
      by_contra handled
      rw [(sourced.sound c).settled (Bool.eq_true_of_not_eq_false handled)] at unconfirmed
      exact Bool.noConfusion unconfirmed
    · -- a confirmation on its way would have marked the request already
      intro d source member
      obtain ⟨m, held, origin⟩ := List.mem_filterMap.mp member
      rw [← Option.some.inj source] at origin
      have confirmed := (sourced.known m held c origin).2.1
      rw [unconfirmed] at confirmed
      exact Bool.noConfusion confirmed
  | indicate id param => exact sourced.of_fwd (fun d source => by simp at source) (fun d source => by simp at source)
  | signal =>
    have step := received s .signal
    simp only [next]
    generalize recvStep s .signal = s' at step ⊢
    cases step with
    | elsewhere => exact sourced
    | fault => exact quiet (Quiet.crash s)
    | @signal m c here _ =>
      exact (quiet (quiet_signal here)).of_deliver (by simp [State.pending, Receiver.message]) c
  | release =>
    have step := received s .release
    simp only [next]
    generalize recvStep s .release = s' at step ⊢
    cases step with
    | elsewhere => exact sourced
    | fault => exact quiet (Quiet.crash s)
    | release here => exact sourced.of_release here
  | pop | pick | compare | next | handle | extractFound | copy =>
    exact quiet (quiet_received enabled (by simp) (received s _))

/-! ### Requests that do not overlap -/

structure Own (s : State) : Prop where
  distinct : ∀ c d, (s.calls c).Open → (s.calls d).Open → (s.calls c).reqid = (s.calls d).reqid → c = d
  foreign : ∀ m ∈ s.pending, m.origin = none → ∀ c, (s.calls c).Open → (s.calls c).reqid ≠ m.id
  own : ∀ m c, (m, c) ∈ s.deliveries → m.origin = some c

theorem own_init : Own State.init := by
  constructor <;> simp [State.init, State.pending, Receiver.message, Call.Open, Call.unused]

theorem Own.of_opened {s s' : State} (own : Own s) (pending : s'.pending.Sublist s.pending)
    (deliveries : s'.deliveries = s.deliveries)
    (opened : ∀ c, (s'.calls c).Open → (s.calls c).Open ∧ (s'.calls c).reqid = (s.calls c).reqid) :
    Own s' where
  distinct c d openC openD same := by
    rw [(opened c openC).2, (opened d openD).2] at same
    exact own.distinct c d (opened c openC).1 (opened d openD).1 same
  foreign m member origin c openC := by
    rw [(opened c openC).2]
    exact own.foreign m (pending.subset member) origin c (opened c openC).1
  own m c member := own.own m c (deliveries ▸ member)

/-- A message that confirms nothing has an id no open request waits for. -/
theorem Own.of_fwd {s : State} (own : Own s) {id : UInt16} (param : List UInt8) {origin : Option CallId}
    (apart : origin = none → ∀ c, (s.calls c).Open → (s.calls c).reqid ≠ id) :
    Own (s.mrKmsgFwd id param origin) where
  distinct := own.distinct
  foreign m member none c known := by
    have pending : (s.mrKmsgFwd id param origin).pending =
        s.pending ++ [⟨s.nextUid, id, param, origin⟩] := by simp [State.pending, State.mrKmsgFwd]
    rw [pending] at member
    rcases List.mem_append.mp member with old | new
    · exact own.foreign m old none c known
    · rw [List.mem_singleton.mp new] at none ⊢
      exact apart none c known
  own := own.own

/-- The request a confirmation was produced for is still open, so the id finds it. -/
theorem Own.origin_of_match {s : State} (own : Own s) (sourced : Sourced s) {m : Msg} {c : CallId}
    (held : m ∈ s.pending) (waits : (s.calls c).Open) (agrees : m.id = (s.calls c).reqid) :
    m.origin = some c := by
  cases origin : m.origin with
  | none => exact absurd agrees.symm (own.foreign m held origin c waits)
  | some d =>
    obtain ⟨accepted, _, handled, id⟩ := sourced.known m held d origin
    have openD : (s.calls d).Open := ⟨((sourced.sound d).sent accepted).1, .inr ⟨accepted, handled⟩⟩
    rw [own.distinct d c openD waits (id.symm.trans agrees)]

/-- A new call whose identifier is that of no open call and of no message under way. -/
theorem Own.of_begin {s : State} (own : Own s) {c : CallId} {reqid : UInt16}
    {cfm : Option (List UInt8)} {malloc : Bool} (apart : NoOverlap s (.begin c reqid cfm malloc))
    {k : Call} (new : k.reqid = reqid) : Own (s.setCall c k) := by
  have other : ∀ d, d ≠ c → (s.setCall c k).calls d = s.calls d := fun d differs => by
    rw [setCall_calls, if_neg differs]
  have self : ((s.setCall c k).calls c).reqid = reqid := by rw [setCall_calls, if_pos rfl, new]
  constructor
  · intro d d' known known' same
    by_cases first : d = c <;> by_cases second : d' = c
    · rw [first, second]
    · rw [other d' second] at known' same
      rw [first, self] at same
      exact absurd same.symm (apart.1 d' known')
    · rw [other d first] at known same
      rw [second, self] at same
      exact absurd same (apart.1 d known)
    · rw [other d first] at known same
      rw [other d' second] at known' same
      exact own.distinct d d' known known' same
  · intro m member origin d known
    by_cases first : d = c
    · rw [first, self]
      exact (apart.2 m member origin).symm
    · rw [other d first] at known ⊢
      exact own.foreign m member origin d known
  · exact own.own

theorem own_next {s : State} (own : Own s) (inv : Inv s) (sourced : Sourced s) {e : Event}
    (enabled : Enabled s e) (apart : NoOverlap s e) : Own (next s e) := by
  have quiet {s' : State} (step : Quiet s s') : Own s' :=
    own.of_opened step.pending step.deliveries step.opened
  cases e with
  | begin c reqid cfm malloc =>
    obtain ⟨k, new⟩ : ∃ k, next s (.begin c reqid cfm malloc) = s.setCall c k ∧ k.reqid = reqid :=
      ⟨_, rfl, rfl⟩
    rw [new.1]
    exact own.of_begin apart new.2
  | pushBack | enqueue | take | timeout | extract | finish =>
    exact quiet (quiet_sendStep sourced.sound enabled (by simp))
  | confirm c param => exact (quiet (quiet_confirm s c)).of_fwd param (fun none => by simp at none)
  | indicate id param => exact own.of_fwd param fun _ => apart
  | signal =>
    have step := received s .signal
    simp only [next]
    generalize recvStep s .signal = s' at step ⊢
    cases step with
    | elsewhere => exact own
    | fault => exact quiet (Quiet.crash s)
    | @signal m c here valid =>
      have moved := quiet (quiet_signal here)
      -- the node is still there, so its call has not returned and the message can be its own
      have waits : (s.calls c).Open := by
        have young := fun fresh => (inv.fresh c fresh).2.1 (by rw [here]; rfl)
        refine ⟨fun unused => young (.inl unused), .inl fun ret returned => ?_⟩
        simp [State.freed, Call.freed, returned] at valid
      have agrees := inv.matched m c (by rw [here]; rfl)
      have held : m ∈ s.pending := by simp [State.pending, here, Receiver.message]
      refine ⟨moved.distinct, moved.foreign, fun m' c' member => ?_⟩
      rcases List.mem_append.mp member with old | last
      · exact own.own m' c' old
      · obtain ⟨rfl, rfl⟩ := Prod.mk.inj (List.mem_singleton.mp last)
        exact own.origin_of_match sourced held waits agrees
  | release =>
    have step := received s .release
    simp only [next]
    generalize recvStep s .release = s' at step ⊢
    cases step with
    | elsewhere => exact own
    | fault => exact quiet (Quiet.crash s)
    | @release m here =>
      have rest : s.rx.Sublist s.pending := List.sublist_append_right _ _
      cases m.origin with
      | none => exact own.of_opened rest rfl fun d known => ⟨known, rfl⟩
      | some e =>
        refine own.of_opened rest rfl (setCall_related
          (fun k k' => k'.Open → k.Open ∧ k'.reqid = k.reqid) (fun _ known => ⟨known, rfl⟩) ?_)
        -- the request is handled now, so it is open only while its call runs
        rintro ⟨used, running | ⟨_, handled⟩⟩
        · exact ⟨⟨used, .inl running⟩, rfl⟩
        · simp at handled
  | pop | pick | compare | next | handle | extractFound | copy =>
    exact quiet (quiet_received enabled (by simp) (received s _))

/-! ### Every run -/

theorem run_facts {events : List Event} (enabled : Along next Enabled State.init events) :
    Inv (events.foldl next State.init) ∧ Numbered (events.foldl next State.init) ∧
      Sourced (events.foldl next State.init) :=
  enabled.invariant (P := fun s => Inv s ∧ Numbered s ∧ Sourced s)
    (fun _ _ ⟨inv, numbered, sourced⟩ enabled =>
      ⟨inv_next inv enabled, numbered_next numbered enabled, sourced_next sourced enabled⟩)
    ⟨inv_init, numbered_init, sourced_init⟩

theorem run_own {events : List Event} (enabled : Along next Enabled State.init events)
    (apart : Along next NoOverlap State.init events) : Own (events.foldl next State.init) := by
  suffices all : Inv (events.foldl next State.init) ∧ Sourced (events.foldl next State.init) ∧
      Own (events.foldl next State.init) from all.2.2
  exact (enabled.and apart).invariant (P := fun s => Inv s ∧ Sourced s ∧ Own s)
    (fun _ _ ⟨inv, sourced, own⟩ ⟨enabled, apart⟩ =>
      ⟨inv_next inv enabled, sourced_next sourced enabled, own_next own inv sourced enabled apart⟩)
    ⟨inv_init, sourced_init, own_init⟩

/-- Two deliveries of one message are one delivery. -/
private theorem eq_of_mem_uids {s : State} (numbered : Numbered s) {m m' : Msg} {c c' : CallId}
    (first : (m, c) ∈ s.deliveries) (second : (m', c') ∈ s.deliveries) (same : m.uid = m'.uid) :
    (m, c) = (m', c') := by
  have nodup : (s.deliveries.map (·.1.uid)).Nodup := (List.sublist_append_left _ _).nodup numbered.nodup
  exact List.inj_on_of_nodup_map nodup first second same

/-- A call that returns 0 was woken by one confirmation with its id, whose parameters are in its
buffer; a confirmation wakes one call, and only one of a request with the same confirm id. As long as
such requests do not overlap, it is the confirmation of the call's own request. -/
theorem confirmations_match (events : List Event) (enabled : Along next Enabled State.init events) :
    let s := events.foldl next State.init
    (∀ c, (s.calls c).node = true → (s.calls c).pc = .returned 0 → ∃ m, (m, c) ∈ s.deliveries ∧
      m.id = (s.calls c).reqid ∧ (s.calls c).cfm = Tlv.overwrite m.param (s.calls c).cfm₀) ∧
    (∀ m c m' c', (m, c) ∈ s.deliveries → (m', c') ∈ s.deliveries → (m.uid = m'.uid ↔ c = c')) ∧
    (∀ m c d, (m, c) ∈ s.deliveries → m.origin = some d → (s.calls d).reqid = (s.calls c).reqid) ∧
    (Along next NoOverlap State.init events → ∀ m c, (m, c) ∈ s.deliveries → m.origin = some c) := by
  intro s
  obtain ⟨inv, numbered, sourced⟩ := run_facts enabled
  refine ⟨?_, ?_, ?_, fun apart => (run_own enabled apart).own⟩
  · intro c node back
    obtain ⟨⟨m, d⟩, member, rfl⟩ := List.mem_map.mp (inv.signalled c (.inr (.inr ⟨node, back⟩)))
    exact ⟨m, member, inv.delivered m d member⟩
  · intro m c m' c' first second
    constructor
    · exact fun same => (Prod.mk.inj (eq_of_mem_uids numbered first second same)).2
    · intro same
      have pair : (m, c) = (m', c') := List.inj_on_of_nodup_map inv.once first second same
      rw [(Prod.mk.inj pair).1]
  · intro m c d member origin
    exact (sourced.answered m c member d origin).2.symm.trans (inv.delivered m c member).1

/-- A request, its confirmation, and the receiver that matches them. -/
def plainRun : List Event :=
  [.begin 0 5 (some [1, 2]) true, .pushBack 0, .enqueue 0 true, .confirm 0 [7], .pop, .pick, .compare,
    .extractFound true, .copy, .signal, .release, .take 0, .finish 0]

theorem confirmations_match_plainRun :
    Along next Enabled State.init plainRun ∧
      ∃ m, (m, 0) ∈ (plainRun.foldl next State.init).deliveries ∧ m.origin = some 0 ∧
        ((plainRun.foldl next State.init).calls 0).cfm = Tlv.overwrite m.param [1, 2] := by
  have enabled : Along next Enabled State.init plainRun := by decide +kernel
  have apart : Along next NoOverlap State.init plainRun := by
    refine ⟨⟨?_, ?_⟩, trivial, trivial, trivial, trivial, trivial, trivial, trivial, trivial, trivial,
      trivial, trivial, trivial, trivial⟩
    · exact fun d known => absurd rfl known.1
    · simp [State.pending, State.init, Receiver.message]
  obtain ⟨woken, _, _, own⟩ := confirmations_match plainRun enabled
  obtain ⟨m, member, _, buffer⟩ := woken 0 (by decide +kernel) (by decide +kernel)
  exact ⟨enabled, m, member, own apart m 0 member, buffer⟩

/-- Call 0 times out; its late confirmation arrives when call 1 waits for the same id. -/
def lateRun : List Event :=
  [.begin 0 5 (some [1, 2]) true, .pushBack 0, .enqueue 0 true, .timeout 0, .extract 0 true, .finish 0,
    .begin 1 5 (some [1, 2]) true, .pushBack 1, .enqueue 1 true, .confirm 0 [7], .pop, .pick, .compare,
    .extractFound true, .copy, .signal, .release, .take 1, .finish 1]

theorem confirmations_match_fails :
    ¬ ∀ events, Along next Enabled State.init events → ∀ c,
      ((events.foldl next State.init).calls c).node = true →
      ((events.foldl next State.init).calls c).pc = .returned 0 →
      ∃ m, (m, c) ∈ (events.foldl next State.init).deliveries ∧ m.origin = some c := by
  intro always
  obtain ⟨m, member, origin⟩ :=
    always lateRun (by decide +kernel) 1 (by decide +kernel) (by decide +kernel)
  have others : ∀ p ∈ (lateRun.foldl next State.init).deliveries, p.1.origin = some 0 := by decide +kernel
  have late := others (m, 1) member
  rw [origin] at late
  exact absurd late (by decide)

end Bk7251.RwMsg
