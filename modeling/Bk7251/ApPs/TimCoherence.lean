import Bk7251.ApPs.RwMsdu

/-!
# The TIM bit of a station

The indication last sent for a station says whether frames wait for it. The first frame that waits and
the release of the last one send an update; a flush of waiting frames does not, nor does an update for
which there is no memory or no room in the queue.
-/
namespace Bk7251.ApPs

open Lib App

namespace ApPsState

def Coherent (s : ApPsState) : Prop :=
  ∀ staIdx, staIdx < MAX_PS_STA_NUM → (s.tim staIdx = true ↔ s.txing staIdx ≠ [])

/-- An update of the TIM can be sent: there is memory for the request and room in the queue. -/
def CanUpdate (s : ApPsState) (request : Option Nat) : Prop :=
  request.isSome ∧ s.ioQueue.length < CORE_QITEM_COUNT

/-- The event sends the update that its change of the list asks for. -/
def Updates (s : ApPsState) : ApPsEvent → Prop
  -- the first frame that waits
  | .transfer vifIdx staIdx apInface nodeAllocated _ request =>
    s.core = none → nodeAllocated = true → s.buffers ⟨s.next, vifIdx, staIdx, apInface⟩ = true →
      s.txing staIdx = [] → s.CanUpdate request
  -- the release of the last one
  | .handle _ request =>
    ∀ staIdx, s.core = some ⟨.txing, staIdx⟩ → staIdx < MAX_PS_STA_NUM →
      (s.txing staIdx).length = 1 → s.CanUpdate request
  -- frames that go without one
  | .timeout staIdx => s.timer staIdx = true → staIdx < MAX_PS_STA_NUM → s.txing staIdx = []
  | .flush staIdx => staIdx < MAX_PS_STA_NUM → s.txing staIdx = []
  | .psChange .. | .pop | .psChangeInd | .psChangePush | .other _ => True

variable {s : ApPsState}

/-- A step that touches no list and no TIM bit. -/
theorem coherent_same (h : s.Coherent) {s' : ApPsState} (txing : s'.txing = s.txing)
    (tim : s'.tim = s.tim) : s'.Coherent := by
  intro staIdx inside
  rw [txing, tim]
  exact h staIdx inside

/-- A step that touches one station: only its bit and its list decide. -/
theorem coherent_one (h : s.Coherent) {s' : ApPsState} {staIdx : Nat} (inside : staIdx < MAX_PS_STA_NUM)
    (txing : ∀ other, other ≠ staIdx → s'.txing other = s.txing other)
    (tim : ∀ other, other ≠ staIdx → s'.tim other = s.tim other) :
    s'.Coherent ↔ (s'.tim staIdx = true ↔ s'.txing staIdx ≠ []) := by
  constructor
  · exact fun coherent => coherent staIdx inside
  · intro here other within
    by_cases same : other = staIdx
    · rw [same]
      exact here
    · rw [txing other same, tim other same]
      exact h other within

/-- An update changes the bit of its station exactly when it can be sent. -/
theorem tim_update (s : ApPsState) (staIdx : Nat) (txAvail : Bool) (request : Option Nat)
    (other : Nat) :
    (s.CanUpdate request ∧ (s.rwMsgSendTimUpdate staIdx txAvail request).tim other =
        Function.update s.tim staIdx txAvail other) ∨
      ¬ s.CanUpdate request ∧ (s.rwMsgSendTimUpdate staIdx txAvail request).tim other = s.tim other := by
  cases request with
  | none => exact .inr ⟨fun can => by simp [CanUpdate] at can, rfl⟩
  | some req =>
    by_cases room : s.ioQueue.length < CORE_QITEM_COUNT
    · refine .inl ⟨⟨rfl, room⟩, ?_⟩
      simp only [rwMsgSendTimUpdate, rtosPushToQueue_room room, if_true]
    · refine .inr ⟨fun can => room can.2, ?_⟩
      simp only [rwMsgSendTimUpdate, rtosPushToQueue_full room, Bool.false_eq_true, if_false]

theorem tim_update_of_ne (s : ApPsState) {staIdx other : Nat} (different : other ≠ staIdx)
    (txAvail : Bool) (request : Option Nat) :
    (s.rwMsgSendTimUpdate staIdx txAvail request).tim other = s.tim other := by
  rcases tim_update s staIdx txAvail request other with sent | kept
  · rw [sent.2, Function.update_of_ne different]
  · exact kept.2

/-- The bit of the station itself, from its old value. -/
theorem tim_update_self (s : ApPsState) (staIdx : Nat) {txAvail : Bool} (request : Option Nat)
    (before : s.tim staIdx = !txAvail) :
    (s.rwMsgSendTimUpdate staIdx txAvail request).tim staIdx = txAvail ↔ s.CanUpdate request := by
  rcases tim_update s staIdx txAvail request staIdx with sent | kept
  · rw [sent.2, Function.update_self]
    exact iff_of_true rfl sent.1
  · rw [kept.2, before]
    exact iff_of_false (by simp) kept.1

theorem coherent_transfer (h : s.Coherent) (vifIdx staIdx : Nat)
    (apInface nodeAllocated descFree : Bool) (request : Option Nat) :
    (s.rwmTransfer vifIdx staIdx apInface nodeAllocated descFree request).Coherent ↔
      (nodeAllocated = true → s.buffers ⟨s.next, vifIdx, staIdx, apInface⟩ = true →
        s.txing staIdx = [] → s.CanUpdate request) := by
  rcases rwmTransfer_cases s vifIdx staIdx apInface nodeAllocated descFree request with
    dropped | direct | ⟨_, waits, inside, timer, queued⟩
  · rw [dropped.2]
    refine iff_of_true (coherent_same h rfl rfl) fun allocated => ?_
    rw [dropped.1] at allocated
    cases allocated
  · rw [direct.2.2]
    refine iff_of_true (coherent_same h (by simp) (by simp)) fun _ waits => ?_
    rw [direct.2.1] at waits
    cases waits
  · rw [queued]
    by_cases first : s.txing staIdx = []
    · -- the first frame: its bit was not set, so the update decides
      simp only [first, if_true]
      rw [coherent_one h inside]
      · have unset : s.tim staIdx = !true := by
          rw [Bool.not_true, Bool.eq_false_iff]
          exact fun set => (h staIdx inside).mp set first
        have set : ApPsState.tim { s with next := s.next + 1 } staIdx = !true := unset
        have decides := tim_update_self { s with next := s.next + 1 } staIdx request set
        simp only [Function.update_self, List.nil_append, ne_eq, List.cons_ne_self, not_false_eq_true,
          iff_true]
        rw [decides]
        exact ⟨fun can _ _ _ => can, fun can => can (by assumption) waits trivial⟩
      · intro other different
        exact Function.update_of_ne different ..
      · intro other different
        exact tim_update_of_ne { s with next := s.next + 1 } different true request
    · -- a later one finds the bit set already
      simp only [first, if_false]
      refine iff_of_true ?_ fun _ _ empty => absurd empty id
      rw [coherent_one h inside]
      · simp only [Function.update_self]
        exact iff_of_true ((h staIdx inside).mpr first) (by simp)
      · intro other different
        exact Function.update_of_ne different ..
      · exact fun _ _ => rfl

theorem coherent_release (h : s.Coherent) (staIdx : Nat) (descFree : Bool) (request : Option Nat) :
    (s.rwmMsduSendTxingNode staIdx descFree request).Coherent ↔
      (staIdx < MAX_PS_STA_NUM → (s.txing staIdx).length = 1 → s.CanUpdate request) := by
  rcases rwmMsduSendTxingNode_cases s staIdx descFree request with
    ⟨nothing, same⟩ | ⟨inside, node, rest, queue, released⟩
  · rw [same]
    refine iff_of_true h fun inside one => ?_
    rcases nothing with outside | empty
    · exact absurd inside (Nat.not_lt.mpr outside)
    · rw [empty] at one
      cases one
  · rw [released]
    -- the state the update starts from
    let s' := { s with txing := Function.update s.txing staIdx rest }.rwmTransferNode node descFree
    have lists : s'.txing = Function.update s.txing staIdx rest := by simp [s']
    have bits : s'.tim = s.tim := by simp [s']
    have set : s.tim staIdx = true := (h staIdx inside).mpr (by simp [queue])
    by_cases last : rest = []
    · -- the list becomes empty, so the bit has to go
      subst last
      have can : s'.CanUpdate request ↔ s.CanUpdate request := by simp [CanUpdate, s']
      have before : s'.tim staIdx = !false := by rw [bits, set, Bool.not_false]
      have decides := tim_update_self s' staIdx request before
      simp only [if_true, queue, List.length_singleton, forall_true_left]
      rw [coherent_one h inside]
      · change ((s'.rwMsgSendTimUpdate staIdx false request).tim staIdx = true ↔
          (s'.rwMsgSendTimUpdate staIdx false request).txing staIdx ≠ []) ↔ _
        rw [rwMsgSendTimUpdate_txing, lists, Function.update_self, ← can, ← decides]
        simp [inside]
      · intro other different
        simp [Function.update_of_ne different]
      · intro other different
        change (s'.rwMsgSendTimUpdate staIdx false request).tim other = s.tim other
        rw [tim_update_of_ne s' different, bits]
    · -- frames are left, and the bit stays set without an update
      have more : (s.txing staIdx).length ≠ 1 := by
        rw [queue]
        simpa using last
      refine iff_of_true ?_ fun _ one => absurd one more
      have kept : s'.Coherent := by
        rw [coherent_one h inside]
        · rw [lists, bits, Function.update_self]
          exact iff_of_true set last
        · intro other different
          rw [lists, Function.update_of_ne different]
        · intro other _
          rw [bits]
      simp only [last, if_false]
      by_cases awake : s.psState staIdx = .off
      · rw [if_pos awake]
        exact coherent_same kept rfl rfl
      · rw [if_neg awake]
        exact kept

theorem coherent_flush (h : s.Coherent) (staIdx : Nat) :
    (s.rwmFlushTxingList staIdx).Coherent ↔ (staIdx < MAX_PS_STA_NUM → s.txing staIdx = []) := by
  unfold rwmFlushTxingList
  by_cases outside : MAX_PS_STA_NUM ≤ staIdx
  · rw [if_pos outside]
    exact iff_of_true h fun inside => absurd inside (Nat.not_lt.mpr outside)
  · have inside := Nat.not_le.mp outside
    rw [if_neg outside]
    simp only [rwmTxlingListNodeCount, if_neg outside, ne_eq, List.length_eq_zero_iff, ite_not]
    by_cases empty : s.txing staIdx = []
    · simp only [empty, if_true]
      exact iff_of_true (coherent_same h rfl rfl) fun _ => trivial
    · simp only [empty, if_false]
      rw [coherent_one h inside]
      · simp only [Function.update_self]
        -- the bit stays set although nothing waits any more
        have set := (h staIdx inside).mpr empty
        exact iff_of_false (by simp [set]) (by simp [inside])
      · intro other different
        exact Function.update_of_ne different ..
      · exact fun _ _ => rfl

/-- A step keeps the bits right exactly when it sends the update it has to send. -/
theorem coherent_step (h : s.Coherent) (e : ApPsEvent) : (s.step e).Coherent ↔ s.Updates e := by
  cases e with
  | transfer vifIdx staIdx apInface nodeAllocated descFree request =>
    simp only [step, Updates]
    cases busy : s.core with
    | some msg => exact iff_of_true h fun free => nomatch free
    | none => simpa using coherent_transfer h vifIdx staIdx apInface nodeAllocated descFree request
  | psChange staIdx psState =>
    refine iff_of_true ?_ trivial
    simp only [step]
    split
    · exact h
    · exact coherent_same h rfl rfl
  | pop =>
    refine iff_of_true ?_ trivial
    simp only [step, pop]
    split
    · exact coherent_same h rfl rfl
    · exact h
  | handle descFree request =>
    simp only [step, Updates]
    unfold handle
    split
    next staIdx popped =>
      rw [coherent_release (s := { s with core := none }) (coherent_same h rfl rfl)]
      constructor
      · intro can other same
        obtain rfl : staIdx = other := by simpa using popped.symm.trans same
        exact can
      · exact fun can => can staIdx popped
    next msg other popped =>
      refine iff_of_true (coherent_same h rfl rfl) fun staIdx same => ?_
      exact absurd (Option.some.inj (popped.symm.trans same)) (other staIdx)
    next none => exact iff_of_true h fun staIdx same => nomatch none.symm.trans same
  | psChangeInd =>
    refine iff_of_true ?_ trivial
    simp only [step, rwmMsduPsChangeIndHandler]
    split
    · split
      · exact coherent_same h rfl rfl
      · split
        · exact coherent_same h rfl rfl
        · exact coherent_same h rfl rfl
    · exact h
  | psChangePush =>
    refine iff_of_true ?_ trivial
    simp only [step, psChangePush]
    split
    · exact coherent_same h rfl rfl
    · exact h
  | other msg =>
    refine iff_of_true ?_ trivial
    simp only [step]
    split
    · exact h
    · exact coherent_same h rfl rfl
  -- the timer only decides whether the list is flushed
  | timeout staIdx =>
    simp only [step, Updates]
    cases running : s.timer staIdx with
    | false => exact iff_of_true h fun running => nomatch running
    | true => simpa using coherent_flush h staIdx
  | flush staIdx => exact coherent_flush h staIdx

end ApPsState

open ApPsState

/-- The bits are right at every moment of a run exactly when every step that has to sends its update,
and no waiting frames are flushed. -/
theorem tim_coherent_iff (events : List ApPsEvent) :
    (∀ part, part <+: events → (part.foldl step .init).Coherent) ↔
      Along step Updates .init events :=
  always_iff_along (P := Coherent) (fun _ e h => coherent_step h e)
    (fun _ _ => iff_of_false Bool.false_ne_true (by simp [init])) events

/-- One frame waits for a sleeping station, and is flushed when its time is over. -/
theorem tim_coherent_fails :
    ¬ ∀ events : List ApPsEvent, (events.foldl step .init).Coherent := by
  intro always
  have coherent := always
    [.psChange 0 .on, .transfer 0 0 true true true (some 1), .timeout 0] 0 (by decide)
  revert coherent
  decide +kernel

end Bk7251.ApPs
