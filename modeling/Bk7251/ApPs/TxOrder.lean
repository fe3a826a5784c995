import Bk7251.ApPs.RwMsdu

/-!
# Order and release of a station's frames

Frames of one station reach the transmitter in the order of their submission and at most once. Frames
of a station that is awake are not stranded: its waking is still to be handled, or a trigger for it is
on its way, as long as no trigger meets a full queue.
-/
namespace Bk7251.ApPs

open Lib App

/-- The station, told apart by the kind of the interface that the frame was submitted to. -/
def MsduNode.peer (node : MsduNode) : Nat × Bool := (node.staIdx, node.apInface)

/-- Of two frames for one station, `a` was submitted before `b`. -/
def Before (a b : MsduNode) : Prop := a.peer = b.peer → a.seq < b.seq

namespace ApPsState

/-! ### Order -/

/-- What was pushed, followed by what waits for a station, is in the order of submission. -/
structure Ordered (s : ApPsState) : Prop where
  active : s.active = true
  chain : ∀ staIdx, (s.pushed ++ s.txing staIdx).Pairwise Before
  own : ∀ staIdx, ∀ node ∈ s.txing staIdx, node.peer = (staIdx, true)
  numbered : ∀ staIdx, ∀ node ∈ s.pushed ++ s.txing staIdx, node.seq < s.next
  inside : ∀ staIdx, MAX_PS_STA_NUM ≤ staIdx → s.txing staIdx = []

variable {s : ApPsState}

theorem ordered_init : init.Ordered where
  active := rfl
  chain _ := .nil
  own _ _ member := nomatch member
  numbered _ _ member := nomatch member
  inside _ _ := rfl

/-- A step that moves no frame. -/
theorem ordered_same (h : s.Ordered) {s' : ApPsState} (active : s'.active = s.active)
    (txing : s'.txing = s.txing) (pushed : s'.pushed = s.pushed) (next : s.next ≤ s'.next) :
    s'.Ordered where
  active := active.trans h.active
  chain staIdx := by
    rw [txing, pushed]
    exact h.chain staIdx
  own := by
    rw [txing]
    exact h.own
  numbered staIdx node member := by
    rw [txing, pushed] at member
    have below := h.numbered staIdx node member
    omega
  inside := by
    rw [txing]
    exact h.inside

/-- The list of one station shortened to `rest`. -/
theorem ordered_drop (h : s.Ordered) {staIdx : Nat} {rest : List MsduNode}
    (shorter : rest.Sublist (s.txing staIdx)) :
    Ordered { s with txing := Function.update s.txing staIdx rest } := by
  -- every clause of the invariant is inherited by sublists
  have sub : ∀ other, (Function.update s.txing staIdx rest other).Sublist (s.txing other) := by
    intro other
    by_cases same : other = staIdx
    · subst same
      rw [Function.update_self]
      exact shorter
    · rw [Function.update_of_ne same]
  constructor
  · exact h.active
  · intro other
    exact (h.chain other).sublist ((List.Sublist.refl _).append (sub other))
  · intro other node member
    exact h.own other node ((sub other).subset member)
  · intro other node member
    exact h.numbered other node (((List.Sublist.refl _).append (sub other)).subset member)
  · intro other outside
    have none := sub other
    rw [h.inside other outside] at none
    exact List.sublist_nil.mp none

/-- A frame put on the transmitter's list, when those that wait for its station come after it. -/
theorem ordered_push (h : s.Ordered) {node : MsduNode} (new : node.seq < s.next)
    (later : ∀ staIdx, (s.pushed ++ node :: s.txing staIdx).Pairwise Before) (descFree : Bool) :
    (s.rwmTransferNode node descFree).Ordered := by
  cases descFree with
  -- without a descriptor the frame is freed, and nothing has moved
  | false => exact h
  | true =>
    constructor
    · exact h.active
    · intro staIdx
      simpa [rwmTransferNode] using later staIdx
    · exact h.own
    · intro staIdx other member
      simp only [rwmTransferNode, if_true, List.append_assoc, List.singleton_append,
        List.mem_append, List.mem_cons] at member
      rcases member with old | rfl | waiting
      · exact h.numbered staIdx other (List.mem_append.mpr (.inl old))
      · exact new
      · exact h.numbered staIdx other (List.mem_append.mpr (.inr waiting))
    · exact h.inside

theorem ordered_update (h : s.Ordered) (staIdx : Nat) (txAvail : Bool) (request : Option Nat) :
    (s.rwMsgSendTimUpdate staIdx txAvail request).Ordered := by
  refine ordered_same h ?_ (by simp) (by simp) (by simp)
  cases request <;> rfl

/-- A new frame at the end of its station's list. -/
theorem ordered_queue (h : s.Ordered) (node : MsduNode) {staIdx : Nat} (new : node.seq < s.next)
    (last : ∀ old ∈ s.pushed ++ s.txing staIdx, old.seq < node.seq) (own : node.peer = (staIdx, true))
    (inside : staIdx < MAX_PS_STA_NUM) :
    Ordered { s with txing := Function.update s.txing staIdx (s.txing staIdx ++ [node]) } := by
  constructor
  · exact h.active
  · intro other
    by_cases same : other = staIdx
    · subst same
      simp only [Function.update_self, ← List.append_assoc]
      rw [List.pairwise_append]
      refine ⟨h.chain other, List.pairwise_singleton _ _, fun a old b member _ => ?_⟩
      rw [List.mem_singleton.mp member]
      exact last a old
    · simp only [Function.update_of_ne same]
      exact h.chain other
  · intro other
    by_cases same : other = staIdx
    · subst same
      simp only [Function.update_self]
      intro a member
      rcases List.mem_append.mp member with old | this
      · exact h.own other a old
      · rw [List.mem_singleton.mp this]
        exact own
    · simp only [Function.update_of_ne same]
      exact h.own other
  · intro other
    by_cases same : other = staIdx
    · subst same
      simp only [Function.update_self, ← List.append_assoc]
      intro a member
      rcases List.mem_append.mp member with old | this
      · exact h.numbered other a old
      · rw [List.mem_singleton.mp this]
        exact new
    · simp only [Function.update_of_ne same]
      exact h.numbered other
  · intro other outside
    have same : other ≠ staIdx := by omega
    simp only [Function.update_of_ne same]
    exact h.inside other outside

/-- A frame that need not wait finds nothing waiting for its station. -/
theorem nothing_waits (h : s.Ordered) {node : MsduNode} (direct : s.buffers node = false)
    {staIdx : Nat} (same : node.peer = (staIdx, true)) : s.txing staIdx = [] := by
  obtain ⟨rfl, ap⟩ := Prod.mk.inj same
  by_cases outside : MAX_PS_STA_NUM ≤ node.staIdx
  · exact h.inside _ outside
  · have inside := Nat.not_le.mp outside
    -- the test that let the frame through counts the frames of its station
    simp only [buffers, ap, h.active, inside, decide_true, Bool.and_true, Bool.true_and,
      rwmTxlingListNodeCount, if_neg outside, Bool.or_eq_false_iff, bne_eq_false_iff_eq,
      List.length_eq_zero_iff] at direct
    exact direct.2

theorem ordered_transfer (h : s.Ordered) (vifIdx staIdx : Nat)
    (apInface nodeAllocated descFree : Bool) (request : Option Nat) :
    (s.rwmTransfer vifIdx staIdx apInface nodeAllocated descFree request).Ordered := by
  have h₁ : Ordered { s with next := s.next + 1 } := ordered_same h rfl rfl rfl (Nat.le_succ _)
  rcases rwmTransfer_cases s vifIdx staIdx apInface nodeAllocated descFree request with
    dropped | direct | ⟨_, waits, inside, timer, queued⟩
  · rw [dropped.2]
    exact h₁
  · rw [direct.2.2]
    refine ordered_push h₁ (Nat.lt_succ_self _) (fun other => ?_) descFree
    rw [List.pairwise_append]
    refine ⟨(List.pairwise_append.mp (h.chain other)).1, ?_, ?_⟩
    · -- the frames of its own station that wait would have to be none
      refine List.pairwise_cons.mpr ⟨fun node member same => ?_,
        (List.pairwise_append.mp (h.chain other)).2.1⟩
      have none := nothing_waits h direct.2.1 (same.trans (h.own other node member))
      rw [none] at member
      cases member
    · intro a old b member
      rcases List.mem_cons.mp member with rfl | waiting
      · exact fun _ => h.numbered other a (List.mem_append.mpr (.inl old))
      · exact (List.pairwise_append.mp (h.chain other)).2.2 a old b waiting
  · rw [queued]
    have ap : apInface = true := by
      simp only [buffers, Bool.and_eq_true] at waits
      exact waits.1.1
    -- the TIM update in front of a first frame touches neither lists nor numbers
    generalize base : (if s.txing staIdx = [] then
      { s with next := s.next + 1 }.rwMsgSendTimUpdate staIdx true request
      else { s with next := s.next + 1 }) = s₂
    obtain ⟨h₂, lists, old, count⟩ : s₂.Ordered ∧ s₂.txing = s.txing ∧ s₂.pushed = s.pushed ∧
        s₂.next = s.next + 1 := by
      rw [← base]
      split
      · exact ⟨ordered_update h₁ staIdx true request, by simp, by simp, by simp⟩
      · exact ⟨h₁, rfl, rfl, rfl⟩
    rw [← lists]
    refine ordered_same (ordered_queue h₂ ⟨s.next, vifIdx, staIdx, apInface⟩ ?_ ?_ ?_ inside)
      rfl rfl rfl (Nat.le_refl _)
    · rw [count]
      exact Nat.lt_succ_self _
    · intro other member
      rw [lists, old] at member
      exact h.numbered staIdx other member
    · rw [ap]
      rfl

theorem ordered_release (h : s.Ordered) (staIdx : Nat) (descFree : Bool) (request : Option Nat) :
    (s.rwmMsduSendTxingNode staIdx descFree request).Ordered := by
  rcases rwmMsduSendTxingNode_cases s staIdx descFree request with
    ⟨_, same⟩ | ⟨inside, node, rest, queue, released⟩
  · rw [same]
    exact h
  · rw [released]
    have dropped : Ordered { s with txing := Function.update s.txing staIdx rest } :=
      ordered_drop h (by rw [queue]; exact List.sublist_cons_self node rest)
    have pushed : Ordered
        ({ s with txing := Function.update s.txing staIdx rest }.rwmTransferNode node descFree) := by
      refine ordered_push dropped ?_ (fun other => ?_) descFree
      · exact h.numbered staIdx node (by simp [queue])
      · -- the frame moves from the head of its list to the end of what was pushed
        change (s.pushed ++ node :: Function.update s.txing staIdx rest other).Pairwise Before
        by_cases same : other = staIdx
        · subst same
          rw [Function.update_self, ← queue]
          exact h.chain other
        · -- another station's list: no frame of it is for the same station as this one
          rw [Function.update_of_ne same]
          have chain := h.chain staIdx
          rw [queue] at chain
          obtain ⟨_, _, across⟩ := List.pairwise_append.mp chain
          obtain ⟨first, second, across'⟩ := List.pairwise_append.mp (h.chain other)
          rw [List.pairwise_append]
          refine ⟨first, List.pairwise_cons.mpr ⟨fun b member equal => ?_, second⟩, ?_⟩
          · have mine := h.own staIdx node (by simp [queue])
            have theirs := h.own other b member
            rw [mine, theirs] at equal
            exact absurd (Prod.mk.inj equal).1.symm same
          · intro a old b member
            rcases List.mem_cons.mp member with rfl | waiting
            · exact across a old b (by simp)
            · exact across' a old b waiting
    by_cases last : rest = []
    · simp only [last, if_true] at pushed ⊢
      exact ordered_update pushed staIdx false request
    · simp only [last, if_false]
      split
      · exact ordered_same pushed rfl rfl rfl (Nat.le_refl _)
      · exact pushed

theorem ordered_flush (h : s.Ordered) (staIdx : Nat) : (s.rwmFlushTxingList staIdx).Ordered := by
  unfold rwmFlushTxingList
  split
  · exact h
  · split
    · exact ordered_same (ordered_drop h (List.nil_sublist _)) rfl rfl rfl (Nat.le_refl _)
    · exact ordered_same h rfl rfl rfl (Nat.le_refl _)

theorem ordered_step (h : s.Ordered) (e : ApPsEvent) : (s.step e).Ordered := by
  cases e with
  | transfer vifIdx staIdx apInface nodeAllocated descFree request =>
    simp only [step]
    split
    · exact h
    · exact ordered_transfer h vifIdx staIdx apInface nodeAllocated descFree request
  | psChange staIdx psState =>
    simp only [step]
    split
    · exact h
    · exact ordered_same h rfl rfl rfl (Nat.le_refl _)
  | pop =>
    simp only [step, pop]
    split
    · exact ordered_same h rfl rfl rfl (Nat.le_refl _)
    · exact h
  -- of all messages only a trigger moves frames
  | handle descFree request =>
    simp only [step]
    unfold handle
    split
    · exact ordered_release (s := { s with core := none })
        (ordered_same h rfl rfl rfl (Nat.le_refl _)) _ descFree request
    · exact ordered_same h rfl rfl rfl (Nat.le_refl _)
    · exact h
  | psChangeInd =>
    simp only [step, rwmMsduPsChangeIndHandler]
    split
    · split
      · exact ordered_same h rfl rfl rfl (Nat.le_refl _)
      · split
        · exact ordered_same h rfl rfl rfl (Nat.le_refl _)
        · exact ordered_same h rfl rfl rfl (Nat.le_refl _)
    · exact h
  | psChangePush =>
    simp only [step, psChangePush]
    split
    · exact ordered_same h rfl rfl rfl (Nat.le_refl _)
    · exact h
  | other msg =>
    simp only [step]
    split
    · exact h
    · exact ordered_same h rfl rfl rfl (Nat.le_refl _)
  | timeout staIdx =>
    simp only [step]
    split
    · exact ordered_flush h staIdx
    · exact h
  | flush staIdx => exact ordered_flush h staIdx

theorem ordered_run (h : s.Ordered) (events : List ApPsEvent) : (events.foldl step s).Ordered := by
  induction events generalizing s with
  | nil => exact h
  | cons e events ih => exact ih (ordered_step h e)

/-! ### Release -/

/-- A trigger for the station is in the queue, or popped and not yet handled. -/
def Triggered (s : ApPsState) (staIdx : Nat) : Prop :=
  ⟨.txing, staIdx⟩ ∈ s.core.toList ++ s.ioQueue

/-- The waking of the station is still to be handled, or its handler is about to push the trigger. -/
def WakesUp (s : ApPsState) (staIdx : Nat) : Prop :=
  s.triggering = some staIdx ∨ (staIdx, .off) ∈ s.inds

/-- No frames wait for an awake station without something on its way that releases them. -/
def Released (s : ApPsState) : Prop :=
  ∀ staIdx, staIdx < MAX_PS_STA_NUM → s.psState staIdx = .off → s.txing staIdx ≠ [] →
    s.Triggered staIdx ∨ s.WakesUp staIdx

/-- A trigger that the event pushes finds room in the queue. -/
def TriggersFit (s : ApPsState) : ApPsEvent → Prop
  | .handle .. =>
    ∀ staIdx, s.core = some ⟨.txing, staIdx⟩ → staIdx < MAX_PS_STA_NUM →
      s.psState staIdx = .off → 1 < (s.txing staIdx).length → s.ioQueue.length < CORE_QITEM_COUNT
  | .psChangePush => s.triggering.isSome → s.ioQueue.length < CORE_QITEM_COUNT
  | .transfer .. | .psChange .. | .pop | .psChangeInd | .other _ | .timeout _ | .flush _ => True

theorem mem_rtosPushToQueue {q : List BusMsg} {old : BusMsg} (member : old ∈ q) (msg : BusMsg) :
    old ∈ (rtosPushToQueue q msg).1 := by
  by_cases room : q.length < CORE_QITEM_COUNT
  · rw [rtosPushToQueue_room room]
    exact List.mem_append_left _ member
  · rw [rtosPushToQueue_full room]
    exact member

/-- What is on its way for a station stays so while the queue grows and no indication is handled. -/
theorem onItsWay_mono {s' : ApPsState} {staIdx : Nat} (h : s.Triggered staIdx ∨ s.WakesUp staIdx)
    (core : s'.core = s.core) (queue : ∀ msg ∈ s.ioQueue, msg ∈ s'.ioQueue)
    (triggering : s'.triggering = s.triggering) (inds : ∀ ind ∈ s.inds, ind ∈ s'.inds) :
    s'.Triggered staIdx ∨ s'.WakesUp staIdx := by
  unfold Triggered WakesUp at *
  rw [core, triggering]
  rcases h with trigger | pushing | waits
  · rcases List.mem_append.mp trigger with popped | queued
    · exact .inl (List.mem_append_left _ popped)
    · exact .inl (List.mem_append_right _ (queue _ queued))
  · exact .inr (.inl pushing)
  · exact .inr (.inr (inds _ waits))

/-- A step that neither wakes a station nor puts a frame behind an empty list of an awake one. -/
theorem released_mono (h : s.Released) {s' : ApPsState}
    (waiting : ∀ staIdx, staIdx < MAX_PS_STA_NUM → s'.psState staIdx = .off → s'.txing staIdx ≠ [] →
      s.psState staIdx = .off ∧ s.txing staIdx ≠ [])
    (core : s'.core = s.core) (queue : ∀ msg ∈ s.ioQueue, msg ∈ s'.ioQueue)
    (triggering : s'.triggering = s.triggering) (inds : ∀ ind ∈ s.inds, ind ∈ s'.inds) :
    s'.Released := by
  intro staIdx inside awake some
  obtain ⟨wasAwake, hadSome⟩ := waiting staIdx inside awake some
  exact onItsWay_mono (h staIdx inside wasAwake hadSome) core queue triggering inds

theorem triggered_bmsgTxingSender (room : s.ioQueue.length < CORE_QITEM_COUNT) (staIdx : Nat) :
    (s.bmsgTxingSender staIdx).Triggered staIdx := by
  change _ ∈ s.core.toList ++ (rtosPushToQueue s.ioQueue ⟨.txing, staIdx⟩).1
  rw [rtosPushToQueue_room room]
  simp

/-- A trigger that finds room makes up for what its station had. -/
theorem released_bmsgTxingSender (room : s.ioQueue.length < CORE_QITEM_COUNT) {staIdx : Nat}
    (others : ∀ other, other < MAX_PS_STA_NUM → s.psState other = .off → s.txing other ≠ [] →
      other ≠ staIdx → s.Triggered other ∨ s.WakesUp other) :
    (s.bmsgTxingSender staIdx).Released := by
  intro other within awake some
  by_cases same : other = staIdx
  · subst same
    exact .inl (triggered_bmsgTxingSender room other)
  · exact onItsWay_mono (others other within awake some same) rfl
      (fun msg member => mem_rtosPushToQueue member _) rfl (fun _ member => member)

theorem mem_rwMsgSendTimUpdate (s : ApPsState) (staIdx : Nat) (txAvail : Bool)
    (request : Option Nat) : ∀ msg ∈ s.ioQueue,
      msg ∈ (s.rwMsgSendTimUpdate staIdx txAvail request).ioQueue := by
  intro msg member
  cases request with
  | none => exact member
  | some req => exact mem_rtosPushToQueue member ⟨.ioctl, req⟩

theorem released_update (h : s.Released) (staIdx : Nat) (txAvail : Bool) (request : Option Nat) :
    (s.rwMsgSendTimUpdate staIdx txAvail request).Released := by
  refine released_mono h (fun _ _ awake some => ⟨?_, ?_⟩) (by simp)
    (mem_rwMsgSendTimUpdate s staIdx txAvail request) (by simp) (by simp)
  · simpa using awake
  · simpa using some

theorem released_transfer (h : s.Released) (vifIdx staIdx : Nat)
    (apInface nodeAllocated descFree : Bool) (request : Option Nat) :
    (s.rwmTransfer vifIdx staIdx apInface nodeAllocated descFree request).Released := by
  rcases rwmTransfer_cases s vifIdx staIdx apInface nodeAllocated descFree request with
    dropped | direct | ⟨_, waits, inside, timer, queued⟩
  · rw [dropped.2]
    exact released_mono h (fun _ _ awake some => ⟨awake, some⟩) rfl (fun _ member => member) rfl
      (fun _ member => member)
  · rw [direct.2.2]
    exact released_mono h (fun _ _ awake some => ⟨by simpa using awake, by simpa using some⟩)
      (by simp) (by simp) (by simp) (by simp)
  · rw [queued]
    refine released_mono h ?_ ?_ ?_ ?_ ?_
    · intro other within awake some
      have wasAwake : s.psState other = .off := by
        split at awake
        · simpa using awake
        · exact awake
      refine ⟨wasAwake, ?_⟩
      by_cases same : other = staIdx
      · -- the frame waits although the station is awake, so it is not the first
        subst same
        simp only [buffers, staMgmtIsInPs, wasAwake, rwmTxlingListNodeCount,
          if_neg (Nat.not_le.mpr inside), Bool.and_eq_true, Bool.or_eq_true, bne_iff_ne, ne_eq,
          not_true_eq_false, decide_false, Bool.false_eq_true, false_or,
          List.length_eq_zero_iff] at waits
        exact waits.2.1
      · simpa only [Function.update_of_ne same] using some
    · split
      · simp
      · rfl
    · intro msg member
      split
      · exact mem_rwMsgSendTimUpdate { s with next := s.next + 1 } staIdx true request msg member
      · exact member
    · split
      · simp
      · rfl
    · intro ind member
      split
      · simpa using member
      · exact member

/-- The handling of a trigger: the other stations keep theirs, and this one gets a new one. -/
theorem released_release (h : s.Released) {staIdx : Nat} (popped : s.core = some ⟨.txing, staIdx⟩)
    (fits : staIdx < MAX_PS_STA_NUM → s.psState staIdx = .off → 1 < (s.txing staIdx).length →
      s.ioQueue.length < CORE_QITEM_COUNT) (descFree : Bool) (request : Option Nat) :
    ({ s with core := none }.rwmMsduSendTxingNode staIdx descFree request).Released := by
  -- the popped trigger was for this station only
  have others : ∀ other, other ≠ staIdx → s.Triggered other ∨ s.WakesUp other →
      Triggered { s with core := none } other ∨ WakesUp { s with core := none } other := by
    intro other different onItsWay
    rcases onItsWay with trigger | wakes
    · refine .inl ?_
      simp only [Triggered, popped, Option.toList_some, List.singleton_append, List.mem_cons,
        BusMsg.mk.injEq, true_and] at trigger
      exact trigger.resolve_left different
    · exact .inr wakes
  rcases rwmMsduSendTxingNode_cases { s with core := none } staIdx descFree request with
    ⟨nothing, same⟩ | ⟨inside, node, rest, queue, released⟩
  · rw [same]
    intro other within awake some
    have different : other ≠ staIdx := by
      rintro rfl
      rcases nothing with outside | empty
      · exact absurd within (Nat.not_lt.mpr outside)
      · exact some empty
    exact others other different (h other within awake some)
  · rw [released]
    -- the state after the frame has gone
    let s' := rwmTransferNode { s with core := none, txing := Function.update s.txing staIdx rest }
      node descFree
    have lists : s'.txing = Function.update s.txing staIdx rest := by simp [s']
    have modes : s'.psState = s.psState := by simp [s']
    have popped' : s'.core = none := by simp [s']
    have queued : s'.ioQueue = s.ioQueue := by simp [s']
    have pushing : s'.triggering = s.triggering := by simp [s']
    have waking : s'.inds = s.inds := by simp [s']
    have kept : ∀ other, other < MAX_PS_STA_NUM → s'.psState other = .off → s'.txing other ≠ [] →
        other ≠ staIdx → s'.Triggered other ∨ s'.WakesUp other := by
      intro other within awake some different
      rw [modes] at awake
      rw [lists, Function.update_of_ne different] at some
      refine onItsWay_mono (others other different (h other within awake some)) popped' ?_ pushing ?_
      · rw [queued]
        exact fun _ member => member
      · rw [waking]
        exact fun _ member => member
    -- nothing left: no promise to keep for this station
    by_cases last : rest = []
    · rw [if_pos last]
      refine released_update (s := s') ?_ staIdx false request
      intro other within awake some
      refine kept other within awake some ?_
      rintro rfl
      rw [lists, Function.update_self] at some
      exact some last
    · rw [if_neg last]
      -- frames are left: an awake station needs a new trigger, for which there is room
      by_cases awake : s.psState staIdx = .off
      · rw [if_pos awake]
        have room : s'.ioQueue.length < CORE_QITEM_COUNT := by
          have more : 1 < (s.txing staIdx).length := by
            rw [show s.txing staIdx = node :: rest by exact queue]
            exact Nat.succ_lt_succ (List.length_pos_of_ne_nil last)
          rw [queued]
          exact fits inside awake more
        exact released_bmsgTxingSender room kept
      · rw [if_neg awake]
        change s'.Released
        intro other within awake' some
        refine kept other within awake' some ?_
        rintro rfl
        rw [modes] at awake'
        exact awake awake'

theorem released_flush (h : s.Released) (staIdx : Nat) : (s.rwmFlushTxingList staIdx).Released := by
  unfold rwmFlushTxingList
  split
  · exact h
  · refine released_mono h ?_ rfl (fun _ member => member) rfl (fun _ member => member)
    -- lists only become empty
    intro other within awake some
    refine ⟨awake, fun empty => some ?_⟩
    simp only
    split
    · by_cases same : other = staIdx
      · rw [same, Function.update_self]
      · rw [Function.update_of_ne same]
        exact empty
    · exact empty

/-- The handling of an indication: a waking that finds frames waiting becomes a trigger. -/
theorem released_ind (h : s.Released) {staIdx : Nat} {psState : PsMode} {rest : List (Nat × PsMode)}
    (idle : s.triggering = none) (inds : s.inds = (staIdx, psState) :: rest) :
    s.rwmMsduPsChangeIndHandler.Released := by
  intro other within awake some
  unfold rwmMsduPsChangeIndHandler at awake some ⊢
  simp only [idle, inds] at awake some ⊢
  by_cases wakes : psState = .off ∧ s.rwmTxlingListNodeCount staIdx ≠ 0
  · rw [if_pos wakes] at awake some ⊢
    -- the waking that is handled turns into the trigger that is about to be pushed
    rcases h other within awake some with trigger | pushing | waits
    · exact .inl trigger
    · rw [idle] at pushing
      cases pushing
    · rw [inds] at waits
      rcases List.mem_cons.mp waits with this | later
      · obtain ⟨rfl, -⟩ := Prod.mk.inj this
        exact .inr (.inl rfl)
      · exact .inr (.inr later)
  · -- no trigger is due, so nothing but the timer can change
    have still : s.psState other = .off ∧ s.txing other ≠ [] := by
      rw [if_neg wakes] at awake some
      split at awake
      next sleeps =>
        rw [if_pos sleeps] at some
        exact ⟨awake, some⟩
      next sleeps =>
        rw [if_neg sleeps] at some
        exact ⟨awake, some⟩
    -- had it been the waking of `other`, its frames would have made a trigger due
    have same : (staIdx, psState) ≠ (other, .off) := by
      intro this
      obtain ⟨rfl, rfl⟩ := Prod.mk.inj this
      refine wakes ⟨rfl, ?_⟩
      rw [rwmTxlingListNodeCount, if_neg (Nat.not_le.mpr within)]
      exact fun none => still.2 (List.length_eq_zero_iff.mp none)
    rw [if_neg wakes]
    have onItsWay : s.Triggered other ∨
        WakesUp { s with inds := rest, triggering := none } other := by
      rcases h other within still.1 still.2 with trigger | pushing | waits
      · exact .inl trigger
      · rw [idle] at pushing
        cases pushing
      · rw [inds] at waits
        exact .inr (.inr ((List.mem_cons.mp waits).resolve_left (Ne.symm same)))
    split
    · exact onItsWay
    · exact onItsWay

theorem released_mmPsChangeInd (h : s.Released) (staIdx : Nat) (psState : PsMode) :
    (s.mmPsChangeInd staIdx psState).Released := by
  intro other within awake some
  simp only [mmPsChangeInd] at awake some
  by_cases same : other = staIdx
  · -- its own indication wakes it up
    subst same
    rw [Function.update_self] at awake
    right; right
    simp [mmPsChangeInd, awake]
  · rw [Function.update_of_ne same] at awake
    exact onItsWay_mono (h other within awake some) rfl (fun _ member => member) rfl
      (fun _ member => List.mem_append_left _ member)

/-- The trigger moves from the queue into the hands of the core thread. -/
theorem released_pop (h : s.Released) : s.pop.Released := by
  rw [pop]
  split
  next msg rest free queue =>
    intro staIdx within awake some
    apply (h staIdx within awake some).imp_left
    intro trigger
    simpa [Triggered, free, queue] using trigger
  · exact h

/-- A popped message that is no trigger leaves the triggers where they are. -/
theorem released_other (h : s.Released) {msg : BusMsg} (popped : s.core = some msg)
    (other : ∀ staIdx, msg ≠ ⟨.txing, staIdx⟩) : Released { s with core := none } := by
  intro staIdx within awake some
  apply (h staIdx within awake some).imp_left
  intro trigger
  simp only [Triggered, popped, Option.toList_some, List.singleton_append, List.mem_cons] at trigger
  exact trigger.resolve_left fun same => other staIdx same.symm

theorem released_psChangePush (h : s.Released)
    (fits : s.triggering.isSome → s.ioQueue.length < CORE_QITEM_COUNT) : s.psChangePush.Released := by
  rw [psChangePush]
  split
  next staIdx pushing =>
    have room := fits (by rw [pushing]; rfl)
    intro other within awake some
    rcases h other within awake some with trigger | pushing' | waits
    · rcases List.mem_append.mp trigger with popped | queued
      · exact .inl (List.mem_append_left _ popped)
      · exact .inl (List.mem_append_right _ (mem_rtosPushToQueue queued _))
    · -- the trigger that was still to come is in the queue now
      obtain rfl : staIdx = other := Option.some.inj (pushing.symm.trans pushing')
      exact .inl (triggered_bmsgTxingSender room staIdx)
    · exact .inr (.inr waits)
  · exact h

theorem released_step (h : s.Released) (e : ApPsEvent) (fits : s.TriggersFit e) :
    (s.step e).Released := by
  cases e with
  | transfer vifIdx staIdx apInface nodeAllocated descFree request =>
    simp only [step]
    split
    · exact h
    · exact released_transfer h vifIdx staIdx apInface nodeAllocated descFree request
  | psChange staIdx psState =>
    simp only [step]
    split
    · exact h
    · exact released_mmPsChangeInd h staIdx psState
  | pop => exact released_pop h
  | handle descFree request =>
    simp only [step]
    unfold handle
    split
    next staIdx popped => exact released_release h popped (fits staIdx popped) descFree request
    next msg other popped => exact released_other h popped other
    · exact h
  | psChangeInd =>
    cases idle : s.triggering with
    | some staIdx => simpa only [step, rwmMsduPsChangeIndHandler, idle] using h
    | none =>
      cases inds : s.inds with
      | nil => simpa only [step, rwmMsduPsChangeIndHandler, idle, inds] using h
      | cons ind rest => exact released_ind h idle inds
  | psChangePush => exact released_psChangePush h fits
  | other msg =>
    simp only [step]
    split
    · exact h
    · exact released_mono h (fun _ _ awake some => ⟨awake, some⟩) rfl
        (fun _ member => mem_rtosPushToQueue member msg) rfl (fun _ member => member)
  | timeout staIdx =>
    simp only [step]
    split
    · exact released_flush h staIdx
    · exact h
  | flush staIdx => exact released_flush h staIdx

end ApPsState

open ApPsState

/-- Frames of one station are pushed in the order of their submission and at most once, in every run.
In a run in which no trigger meets a full queue, frames that wait for an awake station have a trigger
on its way, or the waking of the station is still being handled. -/
theorem tx_ordered_released (events : List ApPsEvent) :
    ((events.foldl step .init).pushed.Pairwise Before ∧ (events.foldl step .init).pushed.Nodup) ∧
      (Along step TriggersFit .init events → (events.foldl step .init).Released) := by
  constructor
  · have order := (List.pairwise_append.mp ((ordered_run ordered_init events).chain 0)).1
    refine ⟨order, order.imp fun earlier same => ?_⟩
    subst same
    exact Nat.lt_irrefl _ (earlier rfl)
  · intro along
    refine Along.invariant (P := Released) (fun s e h fits => released_step h e fits) ?_ along
    exact fun _ _ _ some => absurd rfl some

/-- Two frames that waited: one is released, and the trigger for the other is in the queue. -/
theorem tx_ordered_released_two :
    let s := [.psChange 0 .on, .transfer 0 0 true true true (some 1),
      .transfer 0 0 true true true (some 2), .psChange 0 .off, .psChangeInd, .psChangeInd, .psChangePush,
      .pop, .handle true none, .pop, .handle true none].foldl step .init
    (s.pushed.length = 1 ∧ (s.txing 0).length = 1 ∧ s.psState 0 = .off) ∧ s.Released := by
  refine ⟨by decide +kernel, (tx_ordered_released _).2 ?_⟩
  refine ⟨trivial, trivial, trivial, trivial, trivial, trivial, ?_, trivial, ?_, trivial, ?_, trivial⟩
  · exact fun _ => by decide +kernel
  · exact fun _ _ _ _ _ => by decide +kernel
  · exact fun _ _ _ _ _ => by decide +kernel

/-- A station has just woken up: its indication waits to be handled, and there is no trigger yet. -/
theorem tx_triggered_fails :
    ¬ ∀ events : List ApPsEvent, ∀ staIdx, staIdx < MAX_PS_STA_NUM →
      (events.foldl step .init).psState staIdx = .off →
      (events.foldl step .init).txing staIdx ≠ [] → (events.foldl step .init).Triggered staIdx := by
  intro always
  have triggered := always
    [.psChange 0 .on, .transfer 0 0 true true true (some 1), .psChange 0 .off] 0 (by decide)
    (by decide) (by decide)
  revert triggered
  unfold Triggered
  decide +kernel

end Bk7251.ApPs
