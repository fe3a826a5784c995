import Bk7251.App.CoreQueue
import Mathlib.Logic.Function.Basic

/-!
# Frames for sleeping stations

The transmit path of `func/rwnx_intf/rw_msdu.c` as built with `CFG_USE_AP_PS`, with `bmsg_txing_sender`
and `bmsg_txing_handler` (`app/app.c`). Frames, releases and changes of a station's state are work of
the core thread; the indications of such changes are handled by another thread, timeouts and flushes
by others again.
-/
namespace Bk7251.ApPs

open Lib App

/-- `BROADCAST_STA_IDX_MIN`, which is `CFG_STA_MAX`. -/
def MAX_PS_STA_NUM : Nat := 2

inductive PsMode where
  | off
  | on
  | onDyn
deriving DecidableEq

/-- A frame on its way. `seq` is its number among the submissions, and `apInface` tells whether its
interface was an access point's when it was submitted. -/
structure MsduNode where
  seq : Nat
  vifIdx : Nat
  staIdx : Nat
  apInface : Bool

structure ApPsState where
  /-- `g_ap_ps.active`. -/
  active : Bool
  /-- `g_ap_ps.sta_ps[sta].txing`. -/
  txing : Nat → List MsduNode
  /-- Whether `g_ap_ps.sta_ps[sta].timer` runs. -/
  timer : Nat → Bool
  /-- `sta_info_tab[sta].ps_state`. -/
  psState : Nat → PsMode
  /-- The TIM indication last sent for the station. -/
  tim : Nat → Bool
  ioQueue : List BusMsg
  /-- The message the core thread has popped. -/
  core : Option BusMsg
  /-- The `MM_PS_CHANGE_IND` messages that wait to be handled. -/
  inds : List (Nat × PsMode)
  /-- The station for which the handler of an indication is about to push a trigger. -/
  triggering : Option Nat
  /-- The frames handed to `txu_cntrl_push`, in order. -/
  pushed : List MsduNode
  /-- The number of submissions. -/
  next : Nat

namespace ApPsState

/-- After `rwm_msdu_init`. -/
def init : ApPsState :=
  ⟨true, fun _ => [], fun _ => false, fun _ => .off, fun _ => false, [], none, [], none, [], 0⟩

variable (s : ApPsState)

def rwmPushTxingList (node : MsduNode) (staIdx : Nat) : ApPsState :=
  if MAX_PS_STA_NUM ≤ staIdx then s
  else { s with txing := Function.update s.txing staIdx (s.txing staIdx ++ [node]) }

def rwmPopTxingList (staIdx : Nat) : ApPsState × Option MsduNode :=
  if MAX_PS_STA_NUM ≤ staIdx then (s, none)
  else
    match s.txing staIdx with
    | [] => (s, none)
    | node :: rest => ({ s with txing := Function.update s.txing staIdx rest }, some node)

def rwmTxlingListNodeCount (staIdx : Nat) : Nat :=
  if MAX_PS_STA_NUM ≤ staIdx then 0 else (s.txing staIdx).length

/-- The frames are freed and the timer is stopped; no TIM update is sent. -/
def rwmFlushTxingList (staIdx : Nat) : ApPsState :=
  if MAX_PS_STA_NUM ≤ staIdx then s
  else
    { s with
      txing := if s.rwmTxlingListNodeCount staIdx ≠ 0 then Function.update s.txing staIdx [] else s.txing
      timer := if s.timer staIdx then Function.update s.timer staIdx false else s.timer }

def staMgmtIsInPs (staIdx : Nat) : Bool := s.psState staIdx ≠ .off

/-- `rw_msg_send_tim_update` for a station; `request` is the memory for the message. -/
def rwMsgSendTimUpdate (staIdx : Nat) (txAvail : Bool) (request : Option Nat) : ApPsState :=
  match request with
  | none => s
  | some req =>
    let r := rtosPushToQueue s.ioQueue ⟨.ioctl, req⟩
    { s with ioQueue := r.1, tim := if r.2 then Function.update s.tim staIdx txAvail else s.tim }

/-- A failed push is only printed. -/
def bmsgTxingSender (staIdx : Nat) : ApPsState :=
  { s with ioQueue := (rtosPushToQueue s.ioQueue ⟨.txing, staIdx⟩).1 }

/-- Without a free descriptor the frame is freed. -/
def rwmTransferNode (node : MsduNode) (descFree : Bool) : ApPsState :=
  if descFree then { s with pushed := s.pushed ++ [node] } else s

/-- The frame has to wait for its station. -/
def buffers (node : MsduNode) : Bool :=
  node.apInface && s.active &&
    ((s.staMgmtIsInPs node.staIdx || s.rwmTxlingListNodeCount node.staIdx != 0) &&
      decide (node.staIdx < MAX_PS_STA_NUM))

def rwmPsTranferNode (node : MsduNode) (descFree : Bool) (request : Option Nat) : ApPsState :=
  if s.buffers node then
    let s :=
      -- only the first frame of a list announces itself and starts the timer
      if s.rwmTxlingListNodeCount node.staIdx = 0 then
        let s := s.rwMsgSendTimUpdate node.staIdx true request
        { s with timer := Function.update s.timer node.staIdx true }
      else s
    s.rwmPushTxingList node node.staIdx
  else s.rwmTransferNode node descFree

/-- `rwm_transfer`, with the indices of the interface and the station. -/
def rwmTransfer (vifIdx staIdx : Nat) (apInface nodeAllocated descFree : Bool)
    (request : Option Nat) : ApPsState :=
  let node : MsduNode := ⟨s.next, vifIdx, staIdx, apInface⟩
  let s := { s with next := s.next + 1 }
  if !nodeAllocated then s else s.rwmPsTranferNode node descFree request

def rwmMsduSendTxingNode (staIdx : Nat) (descFree : Bool) (request : Option Nat) : ApPsState :=
  match s.rwmPopTxingList staIdx with
  | (s, none) => s
  | (s, some node) =>
    let nodeLeft := s.rwmTxlingListNodeCount staIdx
    let s := s.rwmTransferNode node descFree
    -- one frame for each trigger; an awake station is triggered again for the rest
    if nodeLeft ≠ 0 ∧ s.staMgmtIsInPs staIdx = false then s.bmsgTxingSender staIdx
    -- the last frame takes the TIM bit back, whatever the station does
    else if nodeLeft = 0 then s.rwMsgSendTimUpdate staIdx false request
    else s

/-- `mm_ps_change_ind`: the state in the table, and a message for the upper layers. -/
def mmPsChangeInd (staIdx : Nat) (psState : PsMode) : ApPsState :=
  { s with psState := Function.update s.psState staIdx psState, inds := s.inds ++ [(staIdx, psState)] }

/-- `rwm_msdu_ps_change_ind_handler` up to its push. -/
def rwmMsduPsChangeIndHandler : ApPsState :=
  match s.triggering, s.inds with
  | none, (staIdx, psState) :: rest =>
    let nodeLeft := s.rwmTxlingListNodeCount staIdx
    let s := { s with inds := rest }
    -- the state in the message counts, not the table's, which may have changed since
    if psState = .off ∧ nodeLeft ≠ 0 then { s with triggering := some staIdx }
    else if psState = .on ∧ nodeLeft ≠ 0 then { s with timer := Function.update s.timer staIdx true }
    else s
  | _, _ => s

/-- The push of the handler, and the timer. -/
def psChangePush : ApPsState :=
  match s.triggering with
  | some staIdx =>
    let s := s.bmsgTxingSender staIdx
    { s with triggering := none, timer := Function.update s.timer staIdx false }
  | none => s

def pop : ApPsState :=
  match s.core, s.ioQueue with
  | none, msg :: rest => { s with ioQueue := rest, core := some msg }
  | _, _ => s

/-- `core_thread_main`; frames and changes of state, which other messages bring, have their own
events. -/
def handle (descFree : Bool) (request : Option Nat) : ApPsState :=
  match s.core with
  | some ⟨.txing, staIdx⟩ => { s with core := none }.rwmMsduSendTxingNode staIdx descFree request
  | some _ => { s with core := none }
  | none => s

end ApPsState

inductive ApPsEvent where
  | transfer (vifIdx staIdx : Nat) (apInface nodeAllocated descFree : Bool) (request : Option Nat)
  | psChange (staIdx : Nat) (psState : PsMode)
  | pop
  | handle (descFree : Bool) (request : Option Nat)
  | psChangeInd
  | psChangePush
  | other (msg : BusMsg)
  | timeout (staIdx : Nat)
  | flush (staIdx : Nat)

namespace ApPsState

def step (s : ApPsState) : ApPsEvent → ApPsState
  -- the core thread does one thing at a time
  | .transfer vifIdx staIdx apInface nodeAllocated descFree request =>
    if s.core.isSome then s
    else s.rwmTransfer vifIdx staIdx apInface nodeAllocated descFree request
  | .psChange staIdx psState => if s.core.isSome then s else s.mmPsChangeInd staIdx psState
  | .pop => s.pop
  | .handle descFree request => s.handle descFree request
  | .psChangeInd => s.rwmMsduPsChangeIndHandler
  | .psChangePush => s.psChangePush
  -- nobody else sends triggers
  | .other msg => if msg.type = .txing then s else { s with ioQueue := (rtosPushToQueue s.ioQueue msg).1 }
  -- `rwm_msdu_ap_ps_timeout`
  | .timeout staIdx => if s.timer staIdx then s.rwmFlushTxingList staIdx else s
  | .flush staIdx => s.rwmFlushTxingList staIdx

variable {s : ApPsState}

/-! ### What the parts leave alone -/

section frame

variable (s) (node : MsduNode) (staIdx : Nat) (txAvail descFree : Bool) (request : Option Nat)

@[simp] theorem rwMsgSendTimUpdate_txing :
    (s.rwMsgSendTimUpdate staIdx txAvail request).txing = s.txing := by
  cases request <;> rfl

@[simp] theorem rwMsgSendTimUpdate_psState :
    (s.rwMsgSendTimUpdate staIdx txAvail request).psState = s.psState := by
  cases request <;> rfl

@[simp] theorem rwMsgSendTimUpdate_pushed :
    (s.rwMsgSendTimUpdate staIdx txAvail request).pushed = s.pushed := by
  cases request <;> rfl

@[simp] theorem rwMsgSendTimUpdate_next :
    (s.rwMsgSendTimUpdate staIdx txAvail request).next = s.next := by
  cases request <;> rfl

@[simp] theorem rwMsgSendTimUpdate_core :
    (s.rwMsgSendTimUpdate staIdx txAvail request).core = s.core := by
  cases request <;> rfl

@[simp] theorem rwMsgSendTimUpdate_inds :
    (s.rwMsgSendTimUpdate staIdx txAvail request).inds = s.inds := by
  cases request <;> rfl

@[simp] theorem rwMsgSendTimUpdate_triggering :
    (s.rwMsgSendTimUpdate staIdx txAvail request).triggering = s.triggering := by
  cases request <;> rfl

@[simp] theorem rwmTransferNode_txing : (s.rwmTransferNode node descFree).txing = s.txing := by
  cases descFree <;> rfl

@[simp] theorem rwmTransferNode_psState : (s.rwmTransferNode node descFree).psState = s.psState := by
  cases descFree <;> rfl

@[simp] theorem rwmTransferNode_tim : (s.rwmTransferNode node descFree).tim = s.tim := by
  cases descFree <;> rfl

@[simp] theorem rwmTransferNode_ioQueue : (s.rwmTransferNode node descFree).ioQueue = s.ioQueue := by
  cases descFree <;> rfl

@[simp] theorem rwmTransferNode_next : (s.rwmTransferNode node descFree).next = s.next := by
  cases descFree <;> rfl

@[simp] theorem rwmTransferNode_core : (s.rwmTransferNode node descFree).core = s.core := by
  cases descFree <;> rfl

@[simp] theorem rwmTransferNode_inds : (s.rwmTransferNode node descFree).inds = s.inds := by
  cases descFree <;> rfl

@[simp] theorem rwmTransferNode_triggering :
    (s.rwmTransferNode node descFree).triggering = s.triggering := by
  cases descFree <;> rfl

end frame

/-- The release trigger of a station: what the handler does, by what waits. -/
theorem rwmMsduSendTxingNode_cases (s : ApPsState) (staIdx : Nat) (descFree : Bool)
    (request : Option Nat) :
    (MAX_PS_STA_NUM ≤ staIdx ∨ s.txing staIdx = []) ∧
        s.rwmMsduSendTxingNode staIdx descFree request = s ∨
      staIdx < MAX_PS_STA_NUM ∧ ∃ node rest, s.txing staIdx = node :: rest ∧
        s.rwmMsduSendTxingNode staIdx descFree request =
          let s' := { s with txing := Function.update s.txing staIdx rest }.rwmTransferNode node descFree
          if rest = [] then s'.rwMsgSendTimUpdate staIdx false request
          else if s.psState staIdx = .off then s'.bmsgTxingSender staIdx
          else s' := by
  unfold rwmMsduSendTxingNode rwmPopTxingList
  by_cases outside : MAX_PS_STA_NUM ≤ staIdx
  · exact .inl ⟨.inl outside, by rw [if_pos outside]⟩
  · rw [if_neg outside]
    cases queue : s.txing staIdx with
    | nil => exact .inl ⟨.inr rfl, rfl⟩
    | cons node rest =>
      refine .inr ⟨Nat.not_le.mp outside, node, rest, rfl, ?_⟩
      simp only [rwmTxlingListNodeCount, if_neg outside, Function.update_self, staMgmtIsInPs,
        rwmTransferNode_psState, List.length_eq_zero_iff, ne_eq, decide_not,
        Bool.not_eq_eq_eq_not, Bool.not_false, decide_eq_true_eq]
      by_cases last : rest = []
      · simp [last]
      · by_cases awake : s.psState staIdx = .off
        · simp [last, awake]
        · simp [last, awake]

/-- A submitted frame: dropped, handed on at once, or queued behind a TIM update if it is the first. -/
theorem rwmTransfer_cases (s : ApPsState) (vifIdx staIdx : Nat)
    (apInface nodeAllocated descFree : Bool) (request : Option Nat) :
    let node : MsduNode := ⟨s.next, vifIdx, staIdx, apInface⟩
    let s₁ := { s with next := s.next + 1 }
    nodeAllocated = false ∧
        s.rwmTransfer vifIdx staIdx apInface nodeAllocated descFree request = s₁ ∨
      nodeAllocated = true ∧ s.buffers node = false ∧
        s.rwmTransfer vifIdx staIdx apInface nodeAllocated descFree request =
          s₁.rwmTransferNode node descFree ∨
      nodeAllocated = true ∧ s.buffers node = true ∧ staIdx < MAX_PS_STA_NUM ∧
        ∃ timer, s.rwmTransfer vifIdx staIdx apInface nodeAllocated descFree request =
          { (if s.txing staIdx = [] then s₁.rwMsgSendTimUpdate staIdx true request else s₁) with
            timer, txing := Function.update s.txing staIdx (s.txing staIdx ++ [node]) } := by
  intro node s₁
  unfold rwmTransfer
  cases nodeAllocated with
  | false => exact .inl ⟨rfl, rfl⟩
  | true =>
    refine .inr ?_
    simp only [Bool.not_true, Bool.false_eq_true, if_false]
    unfold rwmPsTranferNode
    have same : s₁.buffers node = s.buffers node := rfl
    cases waits : s.buffers node with
    | false => exact .inl ⟨trivial, rfl, if_neg (by rw [same, waits]; exact Bool.false_ne_true)⟩
    | true =>
      have inside : staIdx < MAX_PS_STA_NUM := by
        simp only [buffers, Bool.and_eq_true, decide_eq_true_eq] at waits
        exact waits.2.2
      refine .inr ⟨trivial, rfl, inside, ?_⟩
      rw [if_pos (same.trans waits)]
      have within : ¬ MAX_PS_STA_NUM ≤ staIdx := Nat.not_le.mpr inside
      simp only [rwmPushTxingList, rwmTxlingListNodeCount, node, s₁, if_neg within,
        List.length_eq_zero_iff]
      by_cases first : s.txing staIdx = []
      · exact ⟨_, by simp only [first, if_true, rwMsgSendTimUpdate_txing]; rfl⟩
      · exact ⟨s.timer, by simp only [first, if_false]⟩

end ApPsState

end Bk7251.ApPs
