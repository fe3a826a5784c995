import Mathlib.Logic.Function.Basic
import Bk7251.Lib.Machine
import Bk7251.Lib.Tlv

/-!
# Requests and confirmations

`rw_msg_send`, `mr_kmsg_fwd` and `rwnx_recv_msg` (`func/rwnx_intf`) as steps of their interleaving.
A step is one interrupt-disabled section, one queue or semaphore operation, or one access to a
request node. Every call of `rw_msg_send` has its own number; its node is known by that number.
-/
namespace Bk7251.RwMsg

open Lib

abbrev CallId := Nat

/-- How far a call of `rw_msg_send` has come. -/
inductive SenderPc where
  | unused
  | built
  | linked
  | waiting
  | woken
  | timedOut
  | unlinked
  | refused
  | returned (ret : Int)
deriving DecidableEq

structure Call where
  reqid : UInt16
  /-- There is a `cfm` buffer, hence a node in memory. -/
  node : Bool
  /-- The buffer as the caller passed it, and as it is now. -/
  cfm₀ : List UInt8
  cfm : List UInt8
  pc : SenderPc
  semaphore : Nat
  /-- `hdr.next` of a node that has left the list. -/
  hdrNext : Option CallId
  /-- The request is in the queue of the MAC; its confirmation was produced; it was dealt with. -/
  accepted : Bool
  confirmed : Bool
  handled : Bool

def Call.unused : Call := ⟨0, false, [], [], .unused, 0, none, false, false, false⟩

/-- A message from the MAC. `origin` is the request it confirms, which the code cannot see. -/
structure Msg where
  uid : Nat
  id : UInt16
  param : List UInt8
  origin : Option CallId
deriving DecidableEq

/-- Where `rwnx_recv_msg` is, with its `rx_msg` and `tx_msg`. -/
inductive Receiver where
  | idle
  | popped (m : Msg)
  | walking (m : Msg) (cursor : Option CallId)
  | passed (m : Msg) (c : CallId)
  | found (m : Msg) (c : CallId)
  | extracted (m : Msg) (c : CallId)
  | copied (m : Msg) (c : CallId)
  | finishing (m : Msg)
deriving DecidableEq

structure State where
  calls : CallId → Call
  /-- `rw_msg_tx_head` and `rw_msg_rx_head`. -/
  tx : List CallId
  rx : List Msg
  receiver : Receiver
  /-- The confirmations that set a semaphore, with the call it belongs to. -/
  deliveries : List (Msg × CallId)
  nextUid : Nat
  /-- A freed node was accessed, or an assertion failed; nothing is said about what follows. -/
  fault : Bool

def State.init : State := ⟨fun _ => .unused, [], [], .idle, [], 0, false⟩

inductive Event where
  | begin (c : CallId) (reqid : UInt16) (cfm : Option (List UInt8)) (malloc : Bool)
  | pushBack (c : CallId)
  | enqueue (c : CallId) (ok : Bool)
  | take (c : CallId)
  | timeout (c : CallId)
  | extract (c : CallId) (keeps : Bool)
  | finish (c : CallId)
  | confirm (c : CallId) (param : List UInt8)
  | indicate (id : UInt16) (param : List UInt8)
  | pop
  | pick
  | compare
  | next
  | handle
  | extractFound (keeps : Bool)
  | copy
  | signal
  | release

/-- The node's memory was given back, or never was one. -/
def Call.freed (k : Call) : Bool :=
  !k.node || match k.pc with
    | .returned _ => true
    | _ => false

/-- The node after `c` in the list. -/
def successor (c : CallId) : List CallId → Option CallId
  | [] => none
  | d :: ds => if d = c then ds.head? else successor c ds

namespace State

variable (s : State)

def freed (c : CallId) : Bool := (s.calls c).freed

def setCall (c : CallId) (k : Call) : State := { s with calls := Function.update s.calls c k }

def crash : State := { s with fault := true }

/-- `co_list_extract` goes through the nodes in front of the one it looks for. -/
def walkFaults (c : CallId) : Bool := (s.tx.takeWhile (· ≠ c)).any s.freed

/-- `co_list_next` reads `hdr.next`, also of a node that has left the list in the meantime. -/
def coListNext (c : CallId) : Option CallId :=
  if c ∈ s.tx then successor c s.tx else (s.calls c).hdrNext

/-- `co_list_extract` takes the node off if it is there. Whether it clears the node's `hdr.next` its
description leaves open. -/
def coListExtract (c : CallId) (keeps : Bool) : State :=
  if c ∈ s.tx then
    { s.setCall c { s.calls c with hdrNext := if keeps then successor c s.tx else none } with
      tx := s.tx.erase c }
  else s

/-- `co_list_push_back` writes to the last node. -/
def lastFreed : Bool := s.tx.getLast?.any s.freed

/-- `mr_kmsg_fwd`. -/
def mrKmsgFwd (id : UInt16) (param : List UInt8) (origin : Option CallId) : State :=
  { s with rx := s.rx ++ [⟨s.nextUid, id, param, origin⟩], nextUid := s.nextUid + 1 }

/-- The confirmation of a request has been dealt with. -/
def close : Option CallId → State
  | some d => s.setCall d { s.calls d with handled := true }
  | none => s

end State

/-- The steps of `rw_msg_send`, up to its return. -/
def sendStep (s : State) : Event → State
  | .begin c reqid cfm malloc =>
    -- without memory for the node the call fails at once
    s.setCall c ⟨reqid, cfm.isSome, cfm.getD [], cfm.getD [],
      if cfm.isSome ∧ ¬ malloc then .returned (-1) else .built, 0, none, false, false, false⟩
  | .pushBack c =>
    if s.lastFreed then s.crash
    else { s.setCall c { s.calls c with pc := .linked } with tx := s.tx ++ [c] }
  | .enqueue c ok =>
    -- a call without a node returns at once; one with a node waits, or gives up
    let pc : SenderPc :=
      if (s.calls c).node then if ok then .waiting else .refused
      else .returned (if ok then 0 else -1)
    s.setCall c { s.calls c with pc, accepted := ok }
  | .take c =>
    s.setCall c { s.calls c with pc := .woken, semaphore := (s.calls c).semaphore - 1 }
  | .timeout c => s.setCall c { s.calls c with pc := .timedOut }
  | .extract c keeps =>
    if s.walkFaults c then s.crash
    else (s.setCall c { s.calls c with pc := .unlinked }).coListExtract c keeps
  | .finish c =>
    -- a refused request is freed here while its node is still in the list
    s.setCall c { s.calls c with
      pc := .returned (if (s.calls c).pc = .woken then 0 else -1) }
  | _ => s

/-- The steps of `rwnx_recv_msg`. -/
def recvStep (s : State) : Event → State
  | .pop =>
    match s.rx with
    | m :: rest => { s with rx := rest, receiver := .popped m }
    | [] => s
  | .pick =>
    match s.receiver with
    | .popped m => { s with receiver := .walking m s.tx.head? }
    | _ => s
  | .compare =>
    match s.receiver with
    | .walking m (some c) =>
      if s.freed c then s.crash
      else if m.id = (s.calls c).reqid then { s with receiver := .found m c }
      else { s with receiver := .passed m c }
    | _ => s
  | .next =>
    match s.receiver with
    | .passed m c =>
      if s.freed c then s.crash
      else { s with receiver := .walking m (s.coListNext c) }
    | _ => s
  | .handle =>
    match s.receiver with
    | .walking m none => { s with receiver := .finishing m }
    | _ => s
  | .extractFound keeps =>
    match s.receiver with
    | .found m c =>
      if s.walkFaults c then s.crash
      -- the message is taken off the queue as well, from which it was popped already
      else { s.coListExtract c keeps with rx := s.rx.erase m, receiver := .extracted m c }
    | _ => s
  | .copy =>
    match s.receiver with
    | .extracted m c =>
      if s.freed c then s.crash
      else
        { s.setCall c { s.calls c with cfm := Tlv.overwrite m.param (s.calls c).cfm } with
          receiver := .copied m c }
    | _ => s
  | .signal =>
    match s.receiver with
    | .copied m c =>
      -- the semaphore counts to one; setting it twice fails the assertion
      if s.freed c ∨ (s.calls c).semaphore ≠ 0 then s.crash
      else
        { s.setCall c { s.calls c with semaphore := 1 } with
          receiver := .finishing m
          deliveries := s.deliveries ++ [(m, c)] }
    | _ => s
  | .release =>
    match s.receiver with
    | .finishing m => { s.close m.origin with receiver := .idle }
    | _ => s
  | _ => s

def next (s : State) (e : Event) : State :=
  match e with
  | .begin .. | .pushBack _ | .enqueue .. | .take _ | .timeout _ | .extract .. | .finish _ =>
    sendStep s e
  | .confirm c param =>
    (s.setCall c { s.calls c with confirmed := true }).mrKmsgFwd (s.calls c).reqid param (some c)
  | .indicate id param => s.mrKmsgFwd id param none
  | _ => recvStep s e

/-- When an event can happen. A wait ends in time when the semaphore is set, and else with the
timeout; the MAC confirms a request it has been given, once. -/
def Enabled (s : State) (e : Event) : Prop :=
  s.fault = false ∧
    match e with
    | .begin c _ _ _ => (s.calls c).pc = .unused
    | .pushBack c => (s.calls c).pc = .built ∧ (s.calls c).node = true
    | .enqueue c _ =>
      ((s.calls c).pc = .built ∧ (s.calls c).node = false) ∨
        ((s.calls c).pc = .linked ∧ (s.calls c).node = true)
    | .take c => (s.calls c).pc = .waiting ∧ 0 < (s.calls c).semaphore
    | .timeout c => (s.calls c).pc = .waiting ∧ (s.calls c).semaphore = 0
    | .extract c _ => (s.calls c).pc = .timedOut
    | .finish c =>
      (s.calls c).pc = .woken ∨ (s.calls c).pc = .unlinked ∨ (s.calls c).pc = .refused
    | .confirm c _ => (s.calls c).accepted = true ∧ (s.calls c).confirmed = false
    | .pop => s.receiver = .idle
    | _ => True

instance (s : State) (e : Event) : Decidable (Enabled s e) := by
  unfold Enabled
  cases e <;> infer_instance

end Bk7251.RwMsg
