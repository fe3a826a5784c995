import Bk7251.App.CoreQueue
import Bk7251.Hostapd.FakeSocket

/-!
# Frames and their triggers

`fsocket_send` puts a frame into the list of its socket and a trigger into the queue of the core thread
(`bmsg_skt_tx_sender`, `app/app.c`); for each trigger `hapd_intf_ke_rx_handle`
(`func/hostapd_intf/hostapd_intf.c`) takes one frame out and transmits it: a management frame as a message to
the MAC, a data frame through `rwm_transfer` (`func/rwnx_intf/rw_msdu.c`, built without `CFG_USE_AP_PS`). A step
is one critical section, one queue operation or one handled message.
-/
namespace Bk7251.Hostapd

open Lib App

def PF_PACKET : Int32 := 17
def SOCK_RAW : Int32 := 3
def ETH_P_ALL : Int32 := 0x0003
def ETH_P_PAE : Int32 := 0x888E
def SK_INTF_MGMT_SOCKET_NUM : SOCKET := PF_PACKET + SOCK_RAW + ETH_P_ALL
def SK_INTF_DATA_SOCKET_NUM : SOCKET := PF_PACKET + SOCK_RAW + ETH_P_PAE

def mgmtGetSocketNum (vifIdx : UInt8) : SOCKET := SK_INTF_MGMT_SOCKET_NUM + Int32.ofNat vifIdx.toNat

def dataGetSocketNum (vifIdx : UInt8) : SOCKET := SK_INTF_DATA_SOCKET_NUM + Int32.ofNat vifIdx.toNat

inductive HostapdType where
  | mgmt
  | data
deriving DecidableEq

/-- `S_TYPE_ST`. -/
structure SType where
  type : HostapdType
  vifIndex : UInt8
deriving DecidableEq

def SType.socketNum (c : SType) : SOCKET :=
  match c.type with
  | .mgmt => mgmtGetSocketNum c.vifIndex
  | .data => dataGetSocketNum c.vifIndex

structure TxState where
  sockets : SocketEntity
  ioQueue : List BusMsg
  /-- The `S_TYPE_ST` at each address; the argument of a trigger is an address. -/
  types : List SType
  /-- The frame that was queued with each trigger. -/
  frames : List SocketMsg
  /-- The triggers of the senders between their critical section and their push. -/
  sending : List Nat
  /-- The message the core thread has popped. -/
  core : Option BusMsg
  /-- The triggers handled so far, and what each transmitted. -/
  handled : List Nat
  transmitted : List (Nat × SocketMsg)

def TxState.init : TxState := ⟨.init, [], [], [], [], none, [], []⟩

/-- What a handler finds while it transmits: memory for the payload's buffer, for a management frame's message,
for a data frame's node, and a transmit descriptor that is not in use. -/
structure Supplies where
  bufAllocated : Bool
  kmsgAllocated : Bool
  nodeAllocated : Bool
  descFree : Bool
deriving DecidableEq

def Supplies.all : Supplies := ⟨true, true, true, true⟩

inductive TxEvent where
  | fsocketInit (af type protocol : Int32) (allocated : Bool)
  | fsocketSend (c : SType) (frame : SocketMsg) (msgAllocated bufAllocated : Bool)
  | push (i : Nat)
  | other (msg : BusMsg)
  | pop
  | handle (supplies : Supplies)

namespace TxState

variable (s : TxState)

/-- `fsocket_send` up to its push, on the socket that the driver opened for `c`. -/
def fsocketSend (c : SType) (frame : SocketMsg) (msgAllocated bufAllocated : Bool) : TxState :=
  let r := s.sockets.fsocketSend c.socketNum frame msgAllocated bufAllocated
  if r.2.2 then
    { s with
      sockets := r.1
      types := s.types ++ [c]
      frames := s.frames ++ [frame]
      sending := s.sending ++ [s.types.length] }
  else s

/-- `bmsg_skt_tx_sender`; a failure is only printed. -/
def push (i : Nat) : TxState :=
  match s.sending[i]? with
  | some arg =>
    { s with ioQueue := (rtosPushToQueue s.ioQueue ⟨.sktTx, arg⟩).1, sending := s.sending.eraseIdx i }
  | none => s

def pop : TxState :=
  match s.core, s.ioQueue with
  | none, msg :: rest => { s with ioQueue := rest, core := some msg }
  | _, _ => s

/-- `rwm_transfer` and `rwm_transfer_node`: whether the frame gets to `txu_cntrl_push`. -/
def rwmTransfer (nodeAllocated descFree : Bool) : Bool := if !nodeAllocated then false else descFree

/-- `ke_mgmt_packet_rx` or `ke_l2_packet_rx` into a buffer of `payloadSize` bytes, and the
transmission, if it takes place. -/
def takeFrame (arg : Nat) (c : SType) (payloadSize : Nat) (transmits : Bool) : Option TxState :=
  (s.sockets.keSkRecv c.socketNum payloadSize).map fun r =>
    if transmits then
      { s with sockets := r.1, transmitted := s.transmitted ++ [(arg, r.2.getD [])] }
    else { s with sockets := r.1 }

/-- `hapd_intf_ke_rx_handle`. -/
def hapdIntfKeRxHandle (arg : Nat) (c : SType) (supplies : Supplies) : Option TxState :=
  let payloadSize := s.sockets.keSkRecvPeekNextPayloadSize c.socketNum
  match c.type with
  | .mgmt =>
    -- `ASSERT(payload_size)`
    if payloadSize = 0 then none
    else if !supplies.bufAllocated then some s
    else s.takeFrame arg c payloadSize supplies.kmsgAllocated
  | .data =>
    -- a data trigger without a frame is passed over
    if !supplies.bufAllocated || payloadSize = 0 then some s
    else s.takeFrame arg c payloadSize (rwmTransfer supplies.nodeAllocated supplies.descFree)

/-- The `switch` of `core_thread_main`. -/
def handle (supplies : Supplies) : Option TxState :=
  match s.core with
  | none => some s
  | some msg =>
    let s := { s with core := none }
    if msg.type = .sktTx then
      match s.types[msg.arg]? with
      | some c =>
        { s with handled := s.handled ++ [msg.arg] }.hapdIntfKeRxHandle msg.arg c supplies
      | none => some s
    else some s

def step (s : TxState) : TxEvent → Option TxState
  | .fsocketInit af type protocol allocated =>
    some { s with sockets := (s.sockets.fsocketInit af type protocol allocated).1 }
  | .fsocketSend c frame msgAllocated bufAllocated =>
    some (s.fsocketSend c frame msgAllocated bufAllocated)
  | .push i => some (s.push i)
  | .other msg =>
    -- nobody else sends triggers
    some (if msg.type = .sktTx then s else { s with ioQueue := (rtosPushToQueue s.ioQueue msg).1 })
  | .pop => some s.pop
  | .handle supplies => s.handle supplies

end TxState

/-! ### Triggers that are not handled yet -/

def triggers (msgs : List BusMsg) : List Nat :=
  msgs.filterMap fun msg => if msg.type = .sktTx then some msg.arg else none

namespace TxState

/-- Popped, in the queue, or about to be pushed. -/
def pending (s : TxState) : List Nat := triggers s.core.toList ++ triggers s.ioQueue ++ s.sending

def pendingOf (s : TxState) (c : SType) : List Nat :=
  s.pending.filter fun i => s.types[i]? == some c

/-- Frames and triggers agree, nothing is left behind once the queue is drained, and each trigger has
transmitted its frame. -/
structure Agrees (s : TxState) : Prop where
  counts : ∀ c : SType, (s.sockets.waiting c.socketNum .tx).length = (s.pendingOf c).length
  drained : triggers s.ioQueue = [] → s.sending = [] → s.core = none →
    ∀ c : SType, s.sockets.waiting c.socketNum .tx = []
  transmits : s.transmitted.map Prod.fst = s.handled
  paired : ∀ p ∈ s.transmitted, s.frames[p.1]? = some p.2

/-- The handler of such a trigger finds what it needs. -/
def supplied (c : SType) (supplies : Supplies) : Bool :=
  supplies.bufAllocated &&
    match c.type with
    | .mgmt => supplies.kmsgAllocated
    | .data => supplies.nodeAllocated && supplies.descFree

/-- The queue has room for a trigger, no earlier send on the same socket still has to push its own, and
the handler of a trigger finds what it needs. -/
def fine (s : TxState) : TxEvent → Bool
  | .push i =>
    match s.sending[i]? with
    | some arg => decide (s.ioQueue.length < CORE_QITEM_COUNT) &&
        (s.sending.take i).all fun other => s.types[other]? != s.types[arg]?
    | none => true
  | .handle supplies =>
    match s.core with
    | some msg => if msg.type = .sktTx then (s.types[msg.arg]?).all (supplied · supplies) else true
    | none => true
  | _ => true

/-! ### The invariant -/

/-- The frames waiting in a socket are those of its pending triggers, in order. -/
structure Aligned (s : TxState) : Prop where
  lengths : s.frames.length = s.types.length
  inRange : ∀ i ∈ s.pending, i < s.types.length
  aligned : ∀ c : SType, (s.sockets.waiting c.socketNum .tx).map some =
    (s.pendingOf c).map fun i => s.frames[i]?
  filled : ∀ frame ∈ s.frames, frame ≠ []
  transmits : s.transmitted.map Prod.fst = s.handled
  paired : ∀ p ∈ s.transmitted, s.frames[p.1]? = some p.2

theorem aligned_init : TxState.init.Aligned where
  lengths := rfl
  inRange _ member := nomatch member
  aligned _ := rfl
  filled _ member := nomatch member
  transmits := rfl
  paired _ member := nomatch member

theorem Aligned.agrees {s : TxState} (h : s.Aligned) : s.Agrees where
  counts c := by simpa using congrArg List.length (h.aligned c)
  drained queue sending core c := by
    have none : s.pendingOf c = [] := by
      rw [pendingOf, pending, queue, sending, core]
      rfl
    have waiting := h.aligned c
    rw [none] at waiting
    simpa using waiting
  transmits := h.transmits
  paired := h.paired

end TxState

theorem socketNum_inj {c c' : SType} (same : c.socketNum = c'.socketNum) : c = c' := by
  -- the numbers of one kind span 256 values, and the two kinds are apart
  have number : ∀ c : SType, c.socketNum.toInt =
      (match c.type with | .mgmt => 23 | .data => 34978 : Int) + c.vifIndex.toNat := by
    rintro ⟨type, vif⟩
    have small := vif.toNat_lt
    cases type with
    | mgmt =>
      have sum : SType.socketNum ⟨.mgmt, vif⟩ = Int32.ofNat (23 + vif.toNat) := by
        rw [Int32.ofNat_add]
        rfl
      rw [sum, Int32.toInt_ofNat_of_lt (by omega)]
      simp
    | data =>
      have sum : SType.socketNum ⟨.data, vif⟩ = Int32.ofNat (34978 + vif.toNat) := by
        rw [Int32.ofNat_add]
        rfl
      rw [sum, Int32.toInt_ofNat_of_lt (by omega)]
      simp
  have equal := congrArg Int32.toInt same
  rw [number, number] at equal
  obtain ⟨type, vif⟩ := c
  obtain ⟨type', vif'⟩ := c'
  have small := vif.toNat_lt
  have small' := vif'.toNat_lt
  cases type <;> cases type' <;> simp only at equal
  · rw [UInt8.toNat_inj.mp (show vif.toNat = vif'.toNat by omega)]
  · omega
  · omega
  · rw [UInt8.toNat_inj.mp (show vif.toNat = vif'.toNat by omega)]

namespace TxState

variable {s : TxState}

theorem mem_pendingOf {c : SType} {i : Nat} :
    i ∈ s.pendingOf c ↔ i ∈ s.pending ∧ s.types[i]? = some c := by
  simp [pendingOf]

theorem aligned_fsocketInit (h : s.Aligned) (af type protocol : Int32) (allocated : Bool) :
    Aligned { s with sockets := (s.sockets.fsocketInit af type protocol allocated).1 } where
  lengths := h.lengths
  inRange := h.inRange
  aligned c := by
    rw [SocketEntity.waiting_fsocketInit]
    exact h.aligned c
  filled := h.filled
  transmits := h.transmits
  paired := h.paired

/-- A step that leaves the pending triggers of every socket in their order. -/
theorem aligned_pending {s' : TxState} (h : s.Aligned) (sockets : s'.sockets = s.sockets)
    (types : s'.types = s.types) (frames : s'.frames = s.frames) (handled : s'.handled = s.handled)
    (transmitted : s'.transmitted = s.transmitted) (inRange : ∀ i ∈ s'.pending, i ∈ s.pending)
    (order : ∀ c, s'.pendingOf c = s.pendingOf c) : s'.Aligned where
  lengths := by
    rw [frames, types]
    exact h.lengths
  inRange i member := by
    rw [types]
    exact h.inRange i (inRange i member)
  aligned c := by
    rw [sockets, order, frames]
    exact h.aligned c
  filled := by
    rw [frames]
    exact h.filled
  transmits := by
    rw [transmitted, handled]
    exact h.transmits
  paired := by
    rw [transmitted, frames]
    exact h.paired

theorem aligned_pop (h : s.Aligned) : s.pop.Aligned := by
  unfold pop
  split
  next msg rest free queue =>
    -- a popped trigger was the first in the queue and is still the first of all
    have same : pending { s with ioQueue := rest, core := some msg } = s.pending := by
      simp only [pending, free, queue, triggers, Option.toList, List.filterMap_nil, List.nil_append]
      rw [← List.filterMap_append]
      rfl
    refine aligned_pending h rfl rfl rfl rfl rfl (fun i member => same ▸ member) fun c => ?_
    simp only [pendingOf, same]
  · exact h

theorem triggers_append (a b : List BusMsg) : triggers (a ++ b) = triggers a ++ triggers b :=
  List.filterMap_append

theorem aligned_other (h : s.Aligned) (msg : BusMsg) :
    Aligned (if msg.type = .sktTx then s
      else { s with ioQueue := (rtosPushToQueue s.ioQueue msg).1 }) := by
  split
  · exact h
  next other =>
    have same : triggers (rtosPushToQueue s.ioQueue msg).1 = triggers s.ioQueue := by
      by_cases room : s.ioQueue.length < CORE_QITEM_COUNT
      · rw [rtosPushToQueue_room room, triggers_append]
        simp [triggers, other]
      · rw [rtosPushToQueue_full room]
    refine aligned_pending h rfl rfl rfl rfl rfl (fun i member => ?_) fun c => ?_
    · simpa only [pending, same] using member
    · simp only [pendingOf, pending, same]

/-- A send's own trigger comes behind the others of its socket; a push in order keeps it there. -/
theorem aligned_push (h : s.Aligned) {i : Nat} (fine : s.fine (.push i) = true) :
    (s.push i).Aligned := by
  unfold push
  unfold TxState.fine at fine
  split
  next arg here =>
    simp only [here, Bool.and_eq_true, decide_eq_true_eq, List.all_eq_true] at fine
    obtain ⟨room, first⟩ := fine
    rw [rtosPushToQueue_room room]
    have split : s.sending = s.sending.take i ++ arg :: s.sending.drop (i + 1) := by
      obtain ⟨bound, rfl⟩ := List.getElem?_eq_some_iff.mp here
      rw [← List.drop_eq_getElem_cons bound, List.take_append_drop]
    have erased : s.sending.eraseIdx i = s.sending.take i ++ s.sending.drop (i + 1) :=
      List.eraseIdx_eq_take_drop_succ ..
    have queued : triggers (s.ioQueue ++ [⟨.sktTx, arg⟩]) = triggers s.ioQueue ++ [arg] :=
      triggers_append ..
    refine aligned_pending h rfl rfl rfl rfl rfl (fun j member => ?_) fun c => ?_
    · simp only [pending, queued, erased] at member
      rw [pending, split]
      simp only [List.mem_append, List.mem_cons, List.not_mem_nil, or_false] at member ⊢
      tauto
    · simp only [pendingOf, pending, queued, erased]
      conv_rhs => rw [split]
      simp only [List.filter_append, List.filter_cons, List.filter_nil, List.append_assoc]
      by_cases own : (s.types[arg]? == some c) = true
      · -- the sends before it in the list are on other sockets
        have none : (s.sending.take i).filter (fun j => s.types[j]? == some c) = [] := by
          refine List.filter_eq_nil_iff.mpr fun j member same => ?_
          have differs := first j member
          rw [eq_of_beq same, eq_of_beq own] at differs
          simp at differs
        simp only [own, if_true, none, List.nil_append, List.singleton_append]
      · simp only [Bool.not_eq_true] at own
        simp only [own, Bool.false_eq_true, if_false, List.nil_append]
  · exact h

theorem aligned_fsocketSend (h : s.Aligned) (c : SType) (frame : SocketMsg)
    (msgAllocated bufAllocated : Bool) :
    (s.fsocketSend c frame msgAllocated bufAllocated).Aligned := by
  unfold fsocketSend
  rcases s.sockets.send_cases .tx c.socketNum frame msgAllocated bufAllocated with
    refused | ⟨there, nonempty, queued⟩
  · simp only [SocketEntity.fsocketSend, refused, Bool.false_eq_true, if_false]
    exact h
  · simp only [SocketEntity.fsocketSend, queued, if_true]
    have pending_eq : pending
        { s with
          sockets := s.sockets.setMsgs c.socketNum .tx (s.sockets.waiting c.socketNum .tx ++ [frame])
          types := s.types ++ [c]
          frames := s.frames ++ [frame]
          sending := s.sending ++ [s.types.length] } = s.pending ++ [s.types.length] := by
      simp only [pending, List.append_assoc]
    refine ⟨by simp [h.lengths], ?_, ?_, ?_, h.transmits, ?_⟩
    · intro i member
      rw [pending_eq] at member
      rw [List.length_append, List.length_singleton]
      rcases List.mem_append.mp member with old | new
      · have below := h.inRange i old
        omega
      · have here := List.mem_singleton.mp new
        omega
    · intro c'
      -- the old triggers keep their types and frames
      have old : s.pending.filter (fun i => (s.types ++ [c])[i]? == some c') = s.pendingOf c' := by
        refine List.filter_congr fun i member => ?_
        rw [List.getElem?_append_left (h.inRange i member)]
      have frames : (s.pendingOf c').map (fun i => (s.frames ++ [frame])[i]?) =
          (s.pendingOf c').map fun i => s.frames[i]? := by
        refine List.map_congr_left fun i member => ?_
        rw [List.getElem?_append_left (h.lengths ▸ h.inRange i (mem_pendingOf.mp member).1)]
      rw [SocketEntity.waiting_setMsgs there, pendingOf, pending_eq, List.filter_append, old,
        List.map_append, frames, ← h.aligned c']
      -- the new frame and its trigger are the last of their socket
      by_cases own : c' = c
      · subst own
        simp [h.lengths.symm]
      · have other : ¬ (c'.socketNum = c.socketNum ∧ Direction.tx = Direction.tx) :=
          fun same => own (socketNum_inj same.1)
        rw [if_neg other]
        simp [Ne.symm own]
    · intro f member
      rcases List.mem_append.mp member with old | new
      · exact h.filled f old
      · exact List.mem_singleton.mp new ▸ nonempty
    · intro p member
      have found := h.paired p member
      rw [List.getElem?_append_left (List.getElem?_eq_some_iff.mp found).1]
      exact found

/-- The frame of the trigger, first of those that wait, is taken out whole and transmitted. -/
theorem takeFrame_first {arg : Nat} {c : SType} {frame : SocketMsg} {rest : List SocketMsg}
    (queue : s.sockets.waiting c.socketNum .tx = frame :: rest) (nonempty : frame ≠ []) :
    s.takeFrame arg c frame.length true = some { s with
      sockets := s.sockets.setMsgs c.socketNum .tx rest
      transmitted := s.transmitted ++ [(arg, frame)] } := by
  have bytes : ¬ min frame.length frame.length = 0 := by
    simpa using nonempty
  simp only [takeFrame, SocketEntity.keSkRecv, SocketEntity.recv, queue, if_neg bytes,
    List.take_length, Option.map_some, if_true, Option.getD_some]

theorem hapdIntfKeRxHandle_first {arg : Nat} {c : SType} {frame : SocketMsg} {rest : List SocketMsg}
    (queue : s.sockets.waiting c.socketNum .tx = frame :: rest) (nonempty : frame ≠ [])
    {supplies : Supplies} (enough : supplied c supplies = true) :
    s.hapdIntfKeRxHandle arg c supplies = some { s with
      sockets := s.sockets.setMsgs c.socketNum .tx rest
      transmitted := s.transmitted ++ [(arg, frame)] } := by
  have size : s.sockets.keSkRecvPeekNextPayloadSize c.socketNum = frame.length := by
    simp only [SocketEntity.keSkRecvPeekNextPayloadSize, SocketEntity.peekNextPayloadSize, queue]
  have bytes : ¬ frame.length = 0 := by simpa using nonempty
  obtain ⟨memory, rest⟩ := Bool.and_eq_true_iff.mp enough
  unfold hapdIntfKeRxHandle
  rw [size]
  cases type : c.type with
  | mgmt =>
    rw [type] at rest
    simp only [bytes, if_false, memory, Bool.not_true, Bool.false_eq_true, rest]
    exact takeFrame_first queue nonempty
  | data =>
    rw [type] at rest
    obtain ⟨node, desc⟩ := Bool.and_eq_true_iff.mp rest
    simp only [bytes, memory, Bool.not_true, decide_false, Bool.or_self, Bool.false_eq_true, if_false, rwmTransfer,
      node, desc]
    exact takeFrame_first queue nonempty

theorem pendingOf_core {arg : Nat} (c : SType) (popped : s.core = some ⟨.sktTx, arg⟩) :
    s.pendingOf c = (if s.types[arg]? == some c then [arg] else []) ++
      pendingOf { s with core := none } c := by
  simp only [pendingOf, pending, popped, triggers, Option.toList, List.filterMap_cons, if_true,
    List.filterMap_nil, List.nil_append, List.cons_append, List.filter_cons]
  split
  · rfl
  · rfl

theorem aligned_handle (h : s.Aligned) {supplies : Supplies} (fine : s.fine (.handle supplies) = true) :
    ∃ s', s.handle supplies = some s' ∧ s'.Aligned := by
  unfold handle
  unfold TxState.fine at fine
  cases popped : s.core with
  | none => exact ⟨s, rfl, h⟩
  | some msg =>
    obtain ⟨type, arg⟩ := msg
    simp only [popped] at fine ⊢
    by_cases trigger : type = .sktTx
    · subst trigger
      simp only [if_true] at fine ⊢
      have first : arg ∈ s.pending := by simp [pending, popped, triggers]
      obtain ⟨c, typed⟩ : ∃ c, s.types[arg]? = some c :=
        ⟨_, List.getElem?_eq_getElem (h.inRange arg first)⟩
      rw [typed, Option.all_some] at fine
      rw [typed]
      -- the frame of this trigger is the first one that waits
      have order : s.pendingOf c = arg :: pendingOf { s with core := none } c := by
        rw [pendingOf_core c popped, typed]
        simp
      have waiting := h.aligned c
      rw [order, List.map_cons] at waiting
      cases queue : s.sockets.waiting c.socketNum .tx with
      | nil => rw [queue] at waiting; cases waiting
      | cons frame rest =>
        rw [queue, List.map_cons, List.cons.injEq] at waiting
        obtain ⟨own, later⟩ := waiting
        have nonempty := h.filled frame (List.mem_of_getElem? own.symm)
        have there := SocketEntity.there_of_waiting queue
        refine ⟨_, hapdIntfKeRxHandle_first (s := { s with core := none, handled := _ }) queue
          nonempty fine, ⟨h.lengths, ?_, ?_, h.filled, ?_, ?_⟩⟩
        · intro i member
          refine h.inRange i ?_
          simp only [pending, popped, triggers, Option.toList, List.filterMap_nil,
            List.nil_append, List.filterMap_cons, if_true, List.cons_append, List.mem_cons]
            at member ⊢
          exact .inr member
        · intro c'
          change ((s.sockets.setMsgs c.socketNum .tx rest).waiting c'.socketNum .tx).map some =
            (pendingOf { s with core := none } c').map fun i => s.frames[i]?
          rw [SocketEntity.waiting_setMsgs there]
          by_cases same : c' = c
          · subst same
            simp only [and_self, if_true]
            exact later
          · have other : ¬ (c'.socketNum = c.socketNum ∧ Direction.tx = Direction.tx) :=
              fun equal => same (socketNum_inj equal.1)
            have left := h.aligned c'
            rw [pendingOf_core c' popped, typed] at left
            rw [if_neg other]
            simpa [Ne.symm same] using left
        · simp only [List.map_append, List.map_cons, List.map_nil, h.transmits]
        · intro p member
          rcases List.mem_append.mp member with old | new
          · exact h.paired p old
          · rw [List.mem_singleton.mp new]
            exact own.symm
    · -- any other message leaves frames and triggers alone
      simp only [if_neg trigger]
      refine ⟨_, rfl, aligned_pending h rfl rfl rfl rfl rfl (fun i member => ?_) fun c => ?_⟩
      · simpa [pending, popped, triggers, trigger] using member
      · simp [pendingOf, pending, popped, triggers, trigger]

theorem aligned_step (h : s.Aligned) {e : TxEvent} (fine : s.fine e = true) :
    ∃ s', s.step e = some s' ∧ s'.Aligned := by
  cases e with
  | fsocketInit af type protocol allocated =>
    exact ⟨_, rfl, aligned_fsocketInit h af type protocol allocated⟩
  | fsocketSend c frame msgAllocated bufAllocated =>
    exact ⟨_, rfl, aligned_fsocketSend h c frame msgAllocated bufAllocated⟩
  | push i => exact ⟨_, rfl, aligned_push h fine⟩
  | other msg => exact ⟨_, rfl, aligned_other h msg⟩
  | pop => exact ⟨_, rfl, aligned_pop h⟩
  | handle supplies => exact aligned_handle h fine

end TxState

/-- One step of a system that may have stopped in an assertion. -/
def txStep (s : Option TxState) (e : TxEvent) : Option TxState := s.bind fun s => s.step e

def Fine (s : Option TxState) (e : TxEvent) : Prop := (s.all fun s => s.fine e) = true

instance (s : Option TxState) (e : TxEvent) : Decidable (Fine s e) :=
  inferInstanceAs (Decidable (_ = _))

/-- In a run without a lost or overtaken trigger in which the handlers find what they need, frames and
triggers agree at every moment. -/
theorem triggers_agree {events : List TxEvent} (fine : Along txStep Fine (some .init) events) :
    ∃ s, events.foldl txStep (some .init) = some s ∧ s.Agrees := by
  -- a fine step does not fail the assertion
  have kept : ∀ (o : Option TxState) e, (∃ s, o = some s ∧ s.Aligned) → Fine o e →
      ∃ s, txStep o e = some s ∧ s.Aligned := by
    rintro _ e ⟨s, rfl, aligned⟩ fine
    exact TxState.aligned_step aligned fine
  obtain ⟨s, ran, aligned⟩ := Along.invariant (P := fun o => ∃ s, o = some s ∧ TxState.Aligned s)
    kept ⟨_, rfl, TxState.aligned_init⟩ fine
  exact ⟨s, ran, aligned.agrees⟩

/-- A management and a data frame of one interface, sent and transmitted. -/
theorem triggers_agree_sends :
    ∃ s, ([.fsocketInit 17 3 3 true, .fsocketInit 17 3 0x888E true,
      .fsocketSend ⟨.mgmt, 0⟩ [1] true true, .fsocketSend ⟨.data, 0⟩ [2, 3] true true, .push 1, .push 0,
      .pop, .handle .all, .pop, .handle .all] : List TxEvent).foldl txStep (some .init) =
        some s ∧ s.Agrees :=
  triggers_agree (by decide +kernel)

/-- The queue is full when the trigger comes: once everything else is handled, its frame still waits. -/
def lostTrigger : List TxEvent :=
  .fsocketInit 17 3 3 true :: List.replicate 64 (.other ⟨.rx, 0⟩) ++
    [.fsocketSend ⟨.mgmt, 0⟩ [1] true true, .push 0] ++
    (List.replicate 64 [.pop, .handle .all]).flatten

theorem triggers_agree_fails :
    ¬ ∀ events : List TxEvent, ∃ s, events.foldl txStep (some .init) = some s ∧ s.Agrees := by
  intro always
  obtain ⟨s, ran, agrees⟩ := always lostTrigger
  have outcome : (lostTrigger.foldl txStep (some .init)).map (fun s =>
      (s.sockets.waiting (SType.socketNum ⟨.mgmt, 0⟩) .tx, s.pendingOf ⟨.mgmt, 0⟩)) =
        some ([[1]], []) := by
    decide +kernel
  rw [ran, Option.map_some, Option.some.injEq, Prod.mk.injEq] at outcome
  have counts := agrees.counts ⟨.mgmt, 0⟩
  rw [outcome.1, outcome.2] at counts
  cases counts

end Bk7251.Hostapd
