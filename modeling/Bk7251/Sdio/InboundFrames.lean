import Mathlib.Data.List.Perm.Basic
import Mathlib.Data.List.Nodup
import Mathlib.Data.List.Range
import Bk7251.Lib.Machine

/-!
# Frames from the host and their nodes

`func/sdio_intf/sdio_intf.c`. `sdio_emb_rxed_evt` takes the received frames one by one, and a
confirmation pops the head of `inbound_list` whatever it confirms. Both run in the event loop; here
confirmations may also come between two rounds of the loop. The parameter `blk512` is the build option
`FOR_SDIO_BLK_512`.
-/
namespace Bk7251.SdioIntf

open Lib

def MVMS_DAT : UInt16 := 0
def MVMS_CMD : UInt16 := 1

/-- A received frame: the number under which its node is known here, and the type in its header. -/
structure Frame where
  node : Nat
  type : UInt16

/-- `rxed` waits in the driver, and `i` is the counter of the run of `sdio_emb_rxed_evt` under way.
`flight` are the frames pushed and not confirmed. The other lists are what happened so far: nodes
obtained and released, data frames confirmed and refused, and commands handled. -/
structure Inbound where
  next : Nat
  rxed : List Frame
  i : Option Nat
  inboundList : List Nat
  flight : List Nat
  obtained : List Nat
  released : List Nat
  confirmed : List Nat
  refused : List Nat
  commands : List Nat

def sdioIntfInit : Inbound := ⟨0, [], none, [], [], [], [], [], [], []⟩

/-- It releases the node at the head, whichever that is. -/
def inboundCfm (s : Inbound) : Inbound :=
  match s.inboundList with
  | [] => s
  | node :: rest => { s with inboundList := rest, released := s.released ++ [node] }

/-- The case of a frame in the loop; `free` says whether `tx_txdesc_prepare` finds a free descriptor.
Without one the function is left. -/
def handleFrame (s : Inbound) (i : Nat) (frame : Frame) (free : Bool) : Inbound :=
  if frame.type = MVMS_DAT then
    let s := { s with inboundList := s.inboundList ++ [frame.node] }
    if free then { s with flight := s.flight ++ [frame.node], i := some (i + 1) }
    else inboundCfm { s with refused := s.refused ++ [frame.node], i := none }
  else if frame.type = MVMS_CMD then
    { s with
      commands := s.commands ++ [frame.node]
      released := s.released ++ [frame.node]
      i := some i }
  else { s with i := some i }

/-- One round: a node is obtained, the count is looked at, and the frame is handled. -/
def rxedRound (blk512 : Bool) (s : Inbound) (i : Nat) (free : Bool) : Inbound :=
  match s.rxed with
  | [] => { s with i := none }
  | frame :: rest =>
    let s := { s with rxed := rest, obtained := s.obtained ++ [frame.node] }
    if blk512 ∧ i > 10 then { s with i := none } else handleFrame s i frame free

/-- A frame from the host, a run of `sdio_emb_rxed_evt` and its rounds, or the confirmation of the
oldest frame in flight. -/
inductive Event
  | receive (type : UInt16)
  | rxedEvt
  | round (free : Bool)
  | confirm

def step (blk512 : Bool) (s : Inbound) : Event → Inbound
  | .receive type => { s with next := s.next + 1, rxed := s.rxed ++ [⟨s.next, type⟩] }
  | .rxedEvt => if s.i = none then { s with i := some 0 } else s
  | .round free =>
    match s.i with
    | some i => rxedRound blk512 s i free
    | none => s
  | .confirm =>
    match s.flight with
    | node :: rest => inboundCfm { s with flight := rest, confirmed := s.confirmed ++ [node] }
    | [] => s

/-! ### Ownership -/

/-- Each node obtained was released once or is in `inbound_list`; what was released is the commands and
the data frames confirmed or refused; and `inbound_list` is what is in flight, in order. -/
structure Owned (s : Inbound) : Prop where
  fresh : (s.obtained ++ s.rxed.map Frame.node).Perm (List.range s.next)
  once : s.obtained.Perm (s.released ++ s.inboundList)
  due : s.released.Perm (s.confirmed ++ s.refused ++ s.commands)
  order : s.inboundList = s.flight

/-- The round loses no node: the loop is not about to stop, the frame is data or a command, and data
finds a descriptor unless nothing is in flight. -/
def Kept (blk512 : Bool) (s : Inbound) : Event → Prop
  | .round free =>
    match s.i, s.rxed with
    | some i, frame :: _ =>
      ¬ (blk512 = true ∧ i > 10) ∧
        ((frame.type = MVMS_DAT ∧ (free = true ∨ s.flight = [])) ∨ frame.type = MVMS_CMD)
    | _, _ => True
  | _ => True

instance (blk512 : Bool) (s : Inbound) (e : Event) : Decidable (Kept blk512 s e) := by
  unfold Kept
  split
  · split <;> infer_instance
  · infer_instance

namespace Owned

variable {s : Inbound}

theorem nodup (owned : Owned s) : (s.obtained ++ s.rxed.map Frame.node).Nodup :=
  owned.fresh.nodup_iff.mpr List.nodup_range

theorem receive (owned : Owned s) (blk512 : Bool) (type : UInt16) :
    Owned (step blk512 s (.receive type)) := by
  refine ⟨?_, owned.once, owned.due, owned.order⟩
  simp only [step, List.map_append, List.map_cons, List.map_nil, List.range_succ, ← List.append_assoc]
  exact owned.fresh.append_right _

theorem confirm (owned : Owned s) (blk512 : Bool) : Owned (step blk512 s .confirm) := by
  obtain ⟨fresh, once, due, order⟩ := owned
  simp only [step]
  split
  · next node rest flight =>
    simp only [inboundCfm, order, flight]
    refine ⟨fresh, ?_, ?_, rfl⟩
    · rw [order, flight] at once
      simpa only [List.append_assoc, List.singleton_append] using once
    · refine (due.append_right [node]).trans (List.perm_iff_count.mpr fun a => ?_)
      simp only [List.count_append]
      omega
  · exact ⟨fresh, once, due, order⟩

/-- A node that is obtained and neither queued nor released is lost. -/
theorem not_dropped (owned : Owned s) {t : Inbound} {node : Nat}
    (obtained : t.obtained = s.obtained ++ [node]) (released : t.released = s.released)
    (inboundList : t.inboundList = s.inboundList) : ¬ Owned t := by
  intro after
  -- one node more on the left of `once`, none on the right
  have before := owned.once.length_eq
  have now := after.once.length_eq
  rw [obtained, released, inboundList] at now
  simp only [List.length_append, List.length_cons, List.length_nil] at before now
  omega

variable {frame : Frame} {rest : List Frame}

/-- The frame taken is none of those obtained before. -/
theorem taken_new (owned : Owned s) (rxed : s.rxed = frame :: rest) : frame.node ∉ s.obtained := by
  have nodup := owned.nodup
  rw [rxed, List.map_cons] at nodup
  exact fun member => (List.nodup_append.mp nodup).2.2 _ member _ List.mem_cons_self rfl

theorem fresh_taken (owned : Owned s) (rxed : s.rxed = frame :: rest) :
    ((s.obtained ++ [frame.node]) ++ rest.map Frame.node).Perm (List.range s.next) := by
  have fresh := owned.fresh
  rw [rxed] at fresh
  simpa only [List.append_assoc, List.singleton_append, List.map_cons] using fresh

theorem data_pushed (owned : Owned s) (rxed : s.rxed = frame :: rest) (i : Nat)
    (data : frame.type = MVMS_DAT) :
    Owned (handleFrame { s with rxed := rest, obtained := s.obtained ++ [frame.node] } i frame true) := by
  simp only [handleFrame, data, if_true]
  refine ⟨owned.fresh_taken rxed, ?_, owned.due, ?_⟩
  · rw [← List.append_assoc]
    exact owned.once.append_right _
  · exact congrArg (· ++ [frame.node]) owned.order

/-- A refused frame releases itself exactly when nothing else waits for its confirmation. -/
theorem data_refused_iff (owned : Owned s) (rxed : s.rxed = frame :: rest) (i : Nat)
    (data : frame.type = MVMS_DAT) :
    Owned (handleFrame { s with rxed := rest, obtained := s.obtained ++ [frame.node] } i frame false) ↔
      s.flight = [] := by
  have order := owned.order
  cases flight : s.flight with
  | nil =>
    rw [flight] at order
    refine iff_of_true ?_ rfl
    simp only [handleFrame, data, if_true, Bool.false_eq_true, if_false, inboundCfm, order,
      List.nil_append]
    refine ⟨owned.fresh_taken rxed, ?_, ?_, rfl⟩
    · have once := owned.once
      rw [order, List.append_nil] at once
      rw [List.append_nil]
      exact once.append_right _
    · refine (owned.due.append_right [frame.node]).trans (List.perm_iff_count.mpr fun a => ?_)
      simp only [List.count_append]
      omega
  | cons oldest others =>
    rw [flight] at order
    refine iff_of_false (fun after => ?_) (List.cons_ne_nil _ _)
    -- the oldest frame in flight was released, and it is not the one refused
    have queued : oldest ∈ s.obtained := by
      refine owned.once.mem_iff.mpr (List.mem_append_right _ ?_)
      rw [order]
      exact List.mem_cons_self
    have distinct : oldest ≠ frame.node := fun same => owned.taken_new rxed (same ▸ queued)
    have due := after.due
    simp only [handleFrame, data, if_true, Bool.false_eq_true, if_false, inboundCfm, order,
      List.cons_append] at due
    have counted := List.perm_iff_count.mp due oldest
    have before := List.perm_iff_count.mp owned.due oldest
    simp only [List.count_append, List.count_cons_self, List.count_nil,
      List.count_cons_of_ne (Ne.symm distinct)] at counted before
    omega

theorem command_handled (owned : Owned s) (rxed : s.rxed = frame :: rest) (i : Nat) (free : Bool)
    (command : frame.type = MVMS_CMD) :
    Owned (handleFrame { s with rxed := rest, obtained := s.obtained ++ [frame.node] } i frame free) := by
  have other : ¬ MVMS_CMD = MVMS_DAT := by decide
  simp only [handleFrame, command, other, if_true, if_false]
  refine ⟨owned.fresh_taken rxed, ?_, ?_, owned.order⟩
  · refine (owned.once.append_right [frame.node]).trans (List.perm_iff_count.mpr fun a => ?_)
    simp only [List.count_append]
    omega
  · rw [← List.append_assoc]
    exact owned.due.append_right _

/-- One case per way out of the round. -/
theorem round_iff (owned : Owned s) (blk512 free : Bool) :
    Owned (step blk512 s (.round free)) ↔ Kept blk512 s (.round free) := by
  cases running : s.i with
  | none =>
    simp only [step, Kept, running]
    exact iff_of_true owned trivial
  | some i =>
    have entered : step blk512 s (.round free) = rxedRound blk512 s i free := by
      simp only [step, running]
    rw [entered]
    cases rxed : s.rxed with
    | nil =>
      simp only [Kept, running, rxed, rxedRound]
      refine iff_of_true ⟨?_, owned.once, owned.due, owned.order⟩ trivial
      exact rxed ▸ owned.fresh
    | cons frame rest =>
      simp only [Kept, running, rxed, rxedRound]
      rw [← running]
      by_cases stop : blk512 = true ∧ i > 10
      · rw [if_pos stop]
        exact iff_of_false (owned.not_dropped rfl rfl rfl) (fun kept => kept.1 stop)
      · rw [if_neg stop]
        by_cases data : frame.type = MVMS_DAT
        · have noCommand : ¬ MVMS_DAT = MVMS_CMD := by decide
          cases free with
          | true =>
            exact iff_of_true (owned.data_pushed rxed i data) ⟨stop, .inl ⟨data, .inl rfl⟩⟩
          | false =>
            rw [owned.data_refused_iff rxed i data]
            simp only [stop, data, noCommand, not_false_eq_true, true_and, or_false,
              Bool.false_eq_true, false_or]
        · by_cases command : frame.type = MVMS_CMD
          · exact iff_of_true (owned.command_handled rxed i free command) ⟨stop, .inr command⟩
          · refine iff_of_false ?_ (fun kept => ?_)
            · simp only [handleFrame, data, command, if_false]
              exact owned.not_dropped rfl rfl rfl
            · exact kept.2.elim (fun taken => data taken.1) command

theorem step_iff (owned : Owned s) (blk512 : Bool) (e : Event) :
    Owned (step blk512 s e) ↔ Kept blk512 s e := by
  cases e with
  | receive type => exact iff_of_true (owned.receive blk512 type) trivial
  | rxedEvt =>
    refine iff_of_true ?_ trivial
    simp only [step]
    split
    · exact ⟨owned.fresh, owned.once, owned.due, owned.order⟩
    · exact owned
  | round free => exact owned.round_iff blk512 free
  | confirm => exact iff_of_true (owned.confirm blk512) trivial

theorem start : Owned sdioIntfInit := ⟨List.Perm.nil, List.Perm.nil, List.Perm.nil, rfl⟩

end Owned

end Bk7251.SdioIntf
