import Bk7251.Hostapd.FakeSocket
import Mathlib.Data.List.Forall2

/-!
# Each direction of each socket is a queue

A log is kept beside the calls. What one direction of one socket delivered since it was opened, followed
by what waits there, is what was sent into it since then, in order; other sockets have no part in it.
-/
namespace Bk7251.Hostapd

open Lib

inductive SocketCall where
  | fsocketInit (af type protocol : Int32) (allocated : Bool)
  | keSkSend (sk : SOCKET) (buf : SocketMsg) (msgAllocated bufAllocated : Bool)
  | keSkRecv (sk : SOCKET) (len : Nat)
  | fsocketSend (sk : SOCKET) (buf : SocketMsg) (msgAllocated bufAllocated : Bool)
  | fsocketRecv (sk : SOCKET) (len : Nat)
  | fsocketClose (sk : SOCKET)

/-- What happened in a call. -/
inductive SocketLog where
  | opened (sk : SOCKET)
  | sent (sk : SOCKET) (d : Direction) (msg : SocketMsg)
  | delivered (sk : SOCKET) (d : Direction) (len : Nat) (data : SocketMsg)
  | closed (sk : SOCKET)

def SocketEntity.step (s : SocketEntity) : SocketCall → Option (SocketEntity × List SocketLog)
  | .fsocketInit af type protocol allocated =>
    let r := s.fsocketInit af type protocol allocated
    some (r.1, if r.2.2 then [.opened r.2.1] else [])
  | .keSkSend sk buf msgAllocated bufAllocated =>
    let r := s.keSkSend sk buf msgAllocated bufAllocated
    some (r.1, if r.2.2 then [.sent sk .rx buf] else [])
  | .keSkRecv sk len =>
    (s.keSkRecv sk len).map fun r => (r.1, r.2.toList.map (.delivered sk .tx len))
  | .fsocketSend sk buf msgAllocated bufAllocated =>
    let r := s.fsocketSend sk buf msgAllocated bufAllocated
    some (r.1, if r.2.2 then [.sent sk .tx buf] else [])
  | .fsocketRecv sk len =>
    (s.fsocketRecv sk len).map fun r => (r.1, r.2.toList.map (.delivered sk .rx len))
  | .fsocketClose sk => some (s.fsocketClose sk, [.closed sk])

/-- The sockets and the log after the calls. -/
def SocketEntity.run (s : SocketEntity) (log : List SocketLog) :
    List SocketCall → Option (SocketEntity × List SocketLog)
  | [] => some (s, log)
  | call :: calls => (s.step call).bind fun r => r.1.run (log ++ r.2) calls

/-! ### One direction of one socket -/

/-- What was sent since the socket was opened, and what was delivered, with the buffer sizes. -/
structure History where
  sent : List SocketMsg
  got : List (Nat × SocketMsg)

variable (sk : SOCKET) (d : Direction)

def History.after (h : History) : SocketLog → History
  | .opened sk' => if sk' = sk then ⟨[], []⟩ else h
  | .closed sk' => if sk' = sk then ⟨[], []⟩ else h
  | .sent sk' d' msg => if sk' = sk ∧ d' = d then { h with sent := h.sent ++ [msg] } else h
  | .delivered sk' d' len data =>
    if sk' = sk ∧ d' = d then { h with got := h.got ++ [(len, data)] } else h

def history (log : List SocketLog) : History := log.foldl (History.after sk d) ⟨[], []⟩

/-- The messages delivered, each whole or cut to its buffer, and then those waiting are the messages
sent. -/
def InOrder (h : History) (waiting : List SocketMsg) : Prop :=
  ∃ ms, h.sent = ms ++ waiting ∧ List.Forall₂ (fun msg g => g.2 = msg.take g.1) ms h.got

variable {sk d} {s : SocketEntity} {h : History}

theorem inOrder_empty : InOrder ⟨[], []⟩ [] := ⟨[], rfl, .nil⟩

/-- A send in direction `d'` of `sk'`, as seen from `d` of `sk`. -/
theorem inOrder_send (order : InOrder h (s.waiting sk d)) (d' : Direction) (sk' : SOCKET)
    (buf : SocketMsg) (msgAllocated bufAllocated : Bool) :
    InOrder
      ((if (s.send d' sk' buf msgAllocated bufAllocated).2.2 then [SocketLog.sent sk' d' buf]
        else []).foldl (History.after sk d) h)
      ((s.send d' sk' buf msgAllocated bufAllocated).1.waiting sk d) := by
  rcases s.send_cases d' sk' buf msgAllocated bufAllocated with refused | ⟨there, _, queued⟩
  · rw [refused]
    exact order
  · rw [queued]
    simp only [if_true, List.foldl_cons, List.foldl_nil, History.after]
    rw [SocketEntity.waiting_setMsgs there]
    -- the other direction and the other sockets see neither the message nor its log
    by_cases here : sk = sk' ∧ d = d'
    · obtain ⟨rfl, rfl⟩ := here
      obtain ⟨ms, sent, got⟩ := order
      simp only [and_self, if_true]
      exact ⟨ms, by rw [sent, List.append_assoc], got⟩
    · rw [if_neg here, if_neg (fun same => here ⟨same.1.symm, same.2.symm⟩)]
      exact order

theorem inOrder_recv (order : InOrder h (s.waiting sk d)) (d' : Direction) (sk' : SOCKET) (len : Nat)
    {r : SocketEntity × Option SocketMsg} (received : s.recv d' sk' len = some r) :
    InOrder ((r.2.toList.map (SocketLog.delivered sk' d' len)).foldl (History.after sk d) h)
      (r.1.waiting sk d) := by
  unfold SocketEntity.recv at received
  split at received
  · obtain rfl := Option.some.inj received
    exact order
  next msg rest queue =>
    split at received
    · cases received
    · obtain rfl := Option.some.inj received
      simp only [Option.toList_some, List.map_cons, List.map_nil, List.foldl_cons, List.foldl_nil,
        History.after]
      rw [SocketEntity.waiting_setMsgs (SocketEntity.there_of_waiting queue)]
      by_cases here : sk = sk' ∧ d = d'
      · obtain ⟨rfl, rfl⟩ := here
        obtain ⟨ms, sent, got⟩ := order
        rw [queue] at sent
        simp only [and_self, if_true]
        -- the oldest waiting message becomes the last delivered one
        refine ⟨ms ++ [msg], by rw [sent, List.append_assoc]; rfl, ?_⟩
        exact List.rel_append got (.cons rfl .nil)
      · rw [if_neg here, if_neg (fun same => here ⟨same.1.symm, same.2.symm⟩)]
        exact order

/-- A socket that was made new had no messages under its number. -/
theorem waiting_opened {af type protocol : Int32} {allocated : Bool}
    (made : (s.fsocketInit af type protocol allocated).2.2 = true) (d : Direction) :
    s.waiting (s.fsocketInit af type protocol allocated).2.1 d = [] := by
  unfold SocketEntity.fsocketInit at made ⊢
  simp only at made ⊢
  split at made
  · cases made
  next missing =>
    split at made
    next memory =>
      simp only [memory, if_true, SocketEntity.waiting, missing]
    · cases made

theorem inOrder_init (order : InOrder h (s.waiting sk d)) (af type protocol : Int32)
    (allocated : Bool) :
    InOrder
      ((if (s.fsocketInit af type protocol allocated).2.2 then
          [SocketLog.opened (s.fsocketInit af type protocol allocated).2.1] else []).foldl
        (History.after sk d) h)
      ((s.fsocketInit af type protocol allocated).1.waiting sk d) := by
  rw [SocketEntity.waiting_fsocketInit]
  -- only an element that is made starts a new history
  by_cases made : (s.fsocketInit af type protocol allocated).2.2 = true
  · rw [if_pos made]
    simp only [List.foldl_cons, List.foldl_nil, History.after]
    by_cases here : (s.fsocketInit af type protocol allocated).2.1 = sk
    · rw [if_pos here, ← here, waiting_opened made]
      exact inOrder_empty
    · rw [if_neg here]
      exact order
  · rw [if_neg made]
    exact order

theorem inOrder_close (order : InOrder h (s.waiting sk d)) (sk' : SOCKET) :
    InOrder (History.after sk d h (.closed sk')) ((s.fsocketClose sk').waiting sk d) := by
  rw [SocketEntity.waiting_fsocketClose, History.after]
  by_cases here : sk = sk'
  · rw [if_pos here, if_pos here.symm]
    exact inOrder_empty
  · rw [if_neg here, if_neg (Ne.symm here)]
    exact order

theorem inOrder_step (order : InOrder h (s.waiting sk d)) {call : SocketCall}
    {r : SocketEntity × List SocketLog} (stepped : s.step call = some r) :
    InOrder (r.2.foldl (History.after sk d) h) (r.1.waiting sk d) := by
  cases call with
  | fsocketInit af type protocol allocated =>
    obtain rfl := Option.some.inj stepped
    exact inOrder_init order af type protocol allocated
  | keSkSend sk' buf msgAllocated bufAllocated =>
    obtain rfl := Option.some.inj stepped
    exact inOrder_send order .rx sk' buf msgAllocated bufAllocated
  | fsocketSend sk' buf msgAllocated bufAllocated =>
    obtain rfl := Option.some.inj stepped
    exact inOrder_send order .tx sk' buf msgAllocated bufAllocated
  | keSkRecv sk' len =>
    obtain ⟨r', received, rfl⟩ := Option.map_eq_some_iff.mp stepped
    exact inOrder_recv order .tx sk' len received
  | fsocketRecv sk' len =>
    obtain ⟨r', received, rfl⟩ := Option.map_eq_some_iff.mp stepped
    exact inOrder_recv order .rx sk' len received
  | fsocketClose sk' =>
    obtain rfl := Option.some.inj stepped
    exact inOrder_close order sk'

theorem inOrder_run {log : List SocketLog} (order : InOrder (history sk d log) (s.waiting sk d))
    {calls : List SocketCall} {s' : SocketEntity} {log' : List SocketLog}
    (ran : s.run log calls = some (s', log')) :
    InOrder (history sk d log') (s'.waiting sk d) := by
  -- by induction on the calls; the log grows at its end
  induction calls generalizing s log with
  | nil =>
    obtain ⟨rfl, rfl⟩ := Prod.mk.inj (Option.some.inj ran)
    exact order
  | cons call calls ih =>
    obtain ⟨r, stepped, rest⟩ := Option.bind_eq_some_iff.mp ran
    refine ih ?_ rest
    rw [history, List.foldl_append]
    exact inOrder_step order stepped

/-- A socket's element carries the number that the triple adds up to. -/
theorem fsocketInit_element (s : SocketEntity) (af type protocol : Int32) :
    (s.fsocketInit af type protocol true).2.1 = af + type + protocol ∧
      ∃ e, (s.fsocketInit af type protocol true).1.skGetSkElement (af + type + protocol) = some e ∧
        e.sk = af + type + protocol := by
  unfold SocketEntity.fsocketInit
  simp only [if_true]
  split
  next e there => exact ⟨rfl, e, there, SocketEntity.sk_of_element there⟩
  · exact ⟨rfl, _, by rw [SocketEntity.skGetSkElement_cons, if_pos rfl], rfl⟩

/-- The oldest waiting message is delivered, and it alone. -/
theorem recv_oldest {msg : SocketMsg} {rest : List SocketMsg} (queue : s.waiting sk d = msg :: rest)
    {len : Nat} (some_bytes : 0 < min msg.length len) :
    ∃ s', s.recv d sk len = some (s', some (msg.take len)) ∧ s'.waiting sk d = rest := by
  refine ⟨s.setMsgs sk d rest, ?_, ?_⟩
  · unfold SocketEntity.recv
    rw [queue]
    exact if_neg (Nat.pos_iff_ne_zero.mp some_bytes)
  · rw [SocketEntity.waiting_setMsgs (SocketEntity.there_of_waiting queue), if_pos ⟨rfl, rfl⟩]

/-- After any calls: sockets of different numbers are different ones, each direction of a socket has
delivered what was sent into it, in order and cut to the buffers, up to what still waits there, and a
receive delivers the oldest message that waits. -/
theorem fake_sockets_isolated (calls : List SocketCall) {s : SocketEntity} {log : List SocketLog}
    (ran : SocketEntity.init.run [] calls = some (s, log)) :
    (∀ af type protocol, (s.fsocketInit af type protocol true).2.1 = af + type + protocol ∧
      ∃ e, (s.fsocketInit af type protocol true).1.skGetSkElement (af + type + protocol) = some e ∧
        e.sk = af + type + protocol) ∧
    ∀ sk d, InOrder (history sk d log) (s.waiting sk d) ∧
      ∀ msg rest len, s.waiting sk d = msg :: rest → 0 < min msg.length len →
        ∃ s', s.recv d sk len = some (s', some (msg.take len)) ∧ s'.waiting sk d = rest :=
  ⟨fsocketInit_element s, fun _ _ =>
    ⟨inOrder_run (show InOrder (history _ _ []) (SocketEntity.init.waiting _ _) from inOrder_empty) ran,
      fun _ _ _ queue some_bytes => recv_oldest queue some_bytes⟩⟩

/-- Two sockets, a frame each way on one of them, a truncated receive and a close. -/
def exchange : List SocketCall :=
  [.fsocketInit 17 3 3 true, .fsocketInit 2 1 0 true, .fsocketSend 23 [1, 2, 3] true true,
    .keSkSend 23 [4] true true, .keSkRecv 23 2, .fsocketRecv 23 512, .fsocketClose 3]

theorem fake_sockets_isolated_exchange :
    ∃ s log, SocketEntity.init.run [] exchange = some (s, log) ∧
      ∀ sk d, InOrder (history sk d log) (s.waiting sk d) := by
  obtain ⟨⟨s, log⟩, ran⟩ := Option.isSome_iff_exists.mp
    (show (SocketEntity.init.run [] exchange).isSome = true by decide +kernel)
  exact ⟨s, log, ran, fun sk d => ((fake_sockets_isolated exchange ran).2 sk d).1⟩

/-- The number is a sum, so triples with one sum share a socket. -/
theorem fake_sockets_isolated_fails :
    ¬ ∀ af type protocol af' type' protocol' : Int32,
      (af, type, protocol) ≠ (af', type', protocol') →
        let first := SocketEntity.init.fsocketInit af type protocol true
        let second := first.1.fsocketInit af' type' protocol' true
        second.2.1 ≠ first.2.1 := by
  intro distinct
  exact distinct 17 3 3 17 2 4 (by decide) (by decide +kernel)

end Bk7251.Hostapd
