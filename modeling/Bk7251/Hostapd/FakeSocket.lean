import Bk7251.Lib.Machine

/-!
# Fake sockets

The message lists between the supplicant and the core (`func/hostapd-2.5/bk_patch/fake_socket.c`). A
failed assertion stops the system with interrupts disabled; such a step has no result. Calls are
atomic: each reads and changes the lists of one element in critical sections.
-/
namespace Bk7251.Hostapd

open Lib

abbrev SOCKET := Int32

abbrev SocketMsg := List UInt8

/-- `sk_tx_msg` leads from the supplicant to the core, `sk_rx_msg` the other way. -/
inductive Direction where
  | tx
  | rx
deriving DecidableEq

structure BkSocket where
  sk : SOCKET
  msgs : Direction → List SocketMsg

/-- `socket_entity.sk_head`; no number is there twice. -/
structure SocketEntity where
  skHead : List BkSocket
  distinct : (skHead.map (·.sk)).Nodup

namespace SocketEntity

def init : SocketEntity := ⟨[], List.nodup_nil⟩

def skGetSkElement (s : SocketEntity) (sk : SOCKET) : Option BkSocket := s.skHead.find? (·.sk == sk)

/-- The messages waiting in one direction of a socket, none if there is no such socket. -/
def waiting (s : SocketEntity) (sk : SOCKET) (d : Direction) : List SocketMsg :=
  match s.skGetSkElement sk with
  | some element => element.msgs d
  | none => []

/-- A list of the element `sk` changed behind its pointer. -/
def setMsgs (s : SocketEntity) (sk : SOCKET) (d : Direction) (msgs : List SocketMsg) : SocketEntity where
  skHead := s.skHead.map fun e =>
    if e.sk = sk then { e with msgs := fun d' => if d' = d then msgs else e.msgs d' } else e
  distinct := by
    rw [List.map_map]
    have same : (fun e : BkSocket => e.sk) ∘ (fun e => if e.sk = sk then
        { e with msgs := fun d' => if d' = d then msgs else e.msgs d' } else e) = fun e => e.sk := by
      funext e
      by_cases here : e.sk = sk
      · simp [here]
      · simp [here]
    rw [same]
    exact s.distinct

/-- The socket's number, 0 without memory, and whether an element was made. -/
def fsocketInit (s : SocketEntity) (af type protocol : Int32) (allocated : Bool) :
    SocketEntity × SOCKET × Bool :=
  let sk := af + type + protocol
  match there : s.skGetSkElement sk with
  | some _ => (s, sk, false)
  | none =>
    if allocated then
      (⟨⟨sk, fun _ => []⟩ :: s.skHead, by
        refine List.nodup_cons.mpr ⟨fun member => ?_, s.distinct⟩
        obtain ⟨e, inside, same⟩ := List.mem_map.mp member
        have other := List.find?_eq_none.mp there e inside
        simp [same] at other⟩, sk, true)
    else (s, 0, false)

/-- The body that both sends share: the return value, and whether the message was queued. -/
def send (s : SocketEntity) (d : Direction) (sk : SOCKET) (buf : SocketMsg)
    (msgAllocated bufAllocated : Bool) : SocketEntity × Nat × Bool :=
  if (s.skGetSkElement sk).isNone then (s, 0, false)
  else if !msgAllocated then (s, 0, false)
  -- `os_malloc(0)` has no memory either
  else if !bufAllocated || buf.isEmpty then (s, 0, false)
  else (s.setMsgs sk d (s.waiting sk d ++ [buf]), buf.length, true)

/-- The body that both receives share: the bytes copied into a buffer of `len` bytes, if any. -/
def recv (s : SocketEntity) (d : Direction) (sk : SOCKET) (len : Nat) :
    Option (SocketEntity × Option SocketMsg) :=
  match s.waiting sk d with
  | [] => some (s, none)
  | msg :: rest =>
    -- `ASSERT(count)`
    if min msg.length len = 0 then none
    -- a buffer that is too small cuts the message, and the rest of it is freed
    else some (s.setMsgs sk d rest, some (msg.take len))

def peekNextPayloadSize (s : SocketEntity) (d : Direction) (sk : SOCKET) : Nat :=
  match s.waiting sk d with
  | [] => 0
  | msg :: _ => msg.length

def keSkSend (s : SocketEntity) (sk : SOCKET) (buf : SocketMsg) (msgAllocated bufAllocated : Bool) :
    SocketEntity × Nat × Bool := s.send .rx sk buf msgAllocated bufAllocated

def keSkRecv (s : SocketEntity) (sk : SOCKET) (len : Nat) : Option (SocketEntity × Option SocketMsg) :=
  s.recv .tx sk len

/-- The last component tells whether `bmsg_skt_tx_sender` is called. -/
def fsocketSend (s : SocketEntity) (sk : SOCKET) (buf : SocketMsg) (msgAllocated bufAllocated : Bool) :
    SocketEntity × Nat × Bool := s.send .tx sk buf msgAllocated bufAllocated

def fsocketRecv (s : SocketEntity) (sk : SOCKET) (len : Nat) :
    Option (SocketEntity × Option SocketMsg) := s.recv .rx sk len

def keSkRecvPeekNextPayloadSize (s : SocketEntity) (sk : SOCKET) : Nat := s.peekNextPayloadSize .tx sk

/-- `fsocket_close`: the element goes, with the messages that wait in it. -/
def fsocketClose (s : SocketEntity) (sk : SOCKET) : SocketEntity where
  skHead := s.skHead.filter (·.sk != sk)
  distinct := s.distinct.sublist ((List.filter_sublist).map _)

/-! ### What each call leaves waiting -/

variable {s : SocketEntity} {sk sk' : SOCKET} {d d' : Direction}

theorem skGetSkElement_setMsgs (msgs : List SocketMsg) :
    (s.setMsgs sk d msgs).skGetSkElement sk' =
      (s.skGetSkElement sk').map fun e =>
        if e.sk = sk then { e with msgs := fun d' => if d' = d then msgs else e.msgs d' } else e := by
  rw [skGetSkElement, setMsgs, List.find?_map]
  have same : (fun e : BkSocket => e.sk == sk') ∘ (fun e => if e.sk = sk then
      { e with msgs := fun d' => if d' = d then msgs else e.msgs d' } else e) =
        fun e => e.sk == sk' := by
    funext e
    by_cases here : e.sk = sk
    · simp [here]
    · simp [here]
  rw [same]
  rfl

theorem sk_of_element {e : BkSocket} (found : s.skGetSkElement sk = some e) : e.sk = sk := by
  simpa using List.find?_some found

theorem waiting_setMsgs (there : (s.skGetSkElement sk).isSome) (msgs : List SocketMsg) :
    (s.setMsgs sk d msgs).waiting sk' d' =
      if sk' = sk ∧ d' = d then msgs else s.waiting sk' d' := by
  rw [waiting, waiting, skGetSkElement_setMsgs]
  cases found : s.skGetSkElement sk' with
  | none =>
    have other : ¬ (sk' = sk ∧ d' = d) := by
      rintro ⟨rfl, _⟩
      simp [found] at there
    rw [if_neg other]
    rfl
  | some e =>
    -- no number is there twice, so the element found is the one that was changed or another
    obtain rfl := sk_of_element found
    simp only [Option.map_some]
    by_cases here : e.sk = sk
    · by_cases way : d' = d
      · simp [here, way]
      · simp [here, way]
    · simp [here]

theorem skGetSkElement_cons (e : BkSocket) (l : List BkSocket)
    (distinct : ((e :: l).map (·.sk)).Nodup) :
    skGetSkElement ⟨e :: l, distinct⟩ sk' = if e.sk = sk' then some e else l.find? (·.sk == sk') := by
  rw [skGetSkElement, List.find?_cons]
  by_cases here : e.sk = sk'
  · simp [here]
  · rw [if_neg here, beq_eq_false_iff_ne.mpr here]

theorem waiting_fsocketInit (s : SocketEntity) (af type protocol : Int32) (allocated : Bool)
    (sk' : SOCKET) (d' : Direction) :
    (s.fsocketInit af type protocol allocated).1.waiting sk' d' = s.waiting sk' d' := by
  unfold fsocketInit
  simp only
  split
  · rfl
  next missing =>
    cases allocated with
    | false => rfl
    | true =>
      simp only [if_true, waiting, skGetSkElement_cons]
      by_cases here : af + type + protocol = sk'
      · rw [if_pos here, ← here, missing]
      · rw [if_neg here]
        rfl

theorem skGetSkElement_fsocketClose :
    (s.fsocketClose sk).skGetSkElement sk' = if sk' = sk then none else s.skGetSkElement sk' := by
  simp only [skGetSkElement, fsocketClose, List.find?_filter]
  by_cases here : sk' = sk
  · rw [if_pos here]
    refine List.find?_eq_none.mpr fun e _ => ?_
    by_cases there : e.sk = sk
    · simp [there]
    · simp [here, there]
  · rw [if_neg here]
    congr 1
    funext e
    by_cases there : e.sk = sk'
    · simp [there, here]
    · simp [there]

theorem waiting_fsocketClose :
    (s.fsocketClose sk).waiting sk' d' = if sk' = sk then [] else s.waiting sk' d' := by
  rw [waiting, skGetSkElement_fsocketClose]
  by_cases here : sk' = sk
  · rw [if_pos here, if_pos here]
  · rw [if_neg here, if_neg here]
    rfl

/-- A send that queues its message puts it at the end; another one changes nothing. -/
theorem send_cases (s : SocketEntity) (d : Direction) (sk : SOCKET) (buf : SocketMsg)
    (msgAllocated bufAllocated : Bool) :
    s.send d sk buf msgAllocated bufAllocated = (s, 0, false) ∨
      (s.skGetSkElement sk).isSome ∧ buf ≠ [] ∧ s.send d sk buf msgAllocated bufAllocated =
        (s.setMsgs sk d (s.waiting sk d ++ [buf]), buf.length, true) := by
  unfold send
  by_cases missing : (s.skGetSkElement sk).isNone = true
  · exact .inl (if_pos missing)
  · rw [if_neg missing]
    by_cases noMsg : (!msgAllocated) = true
    · exact .inl (if_pos noMsg)
    · rw [if_neg noMsg]
      by_cases noBuf : (!bufAllocated || buf.isEmpty) = true
      · exact .inl (if_pos noBuf)
      · refine .inr ⟨?_, ?_, if_neg noBuf⟩
        · simpa [Option.isSome_iff_ne_none] using missing
        · rintro rfl
          simp at noBuf

theorem there_of_waiting {msg : SocketMsg} {rest : List SocketMsg}
    (queue : s.waiting sk d = msg :: rest) : (s.skGetSkElement sk).isSome := by
  unfold waiting at queue
  cases found : s.skGetSkElement sk with
  | none => simp [found] at queue
  | some e => rfl

end SocketEntity

end Bk7251.Hostapd
