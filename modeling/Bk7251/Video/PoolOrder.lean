import Mathlib.Data.List.Range
import Mathlib.Data.List.Perm.Basic
import Bk7251.Video.VideoTransfer

/-!
# No packet is lost, repeated or overtaken

Every element is in the free list, in the ready list, or between the two in the hand of the handler
that has just popped it. The ready list holds the packets received and not yet done with, in order,
and its head is the one on offer.
-/
namespace Bk7251.Video

open Lib

/-- The elements that a handler has popped and not yet pushed. -/
def Tvideo.moving (s : Tvideo) : List Nat :=
  (match s.rx with
    | .pushReady elem _ => [elem]
    | _ => []) ++
  match s.poll with
    | .pushFree elem => [elem]
    | _ => []

/-- A whole packet fits its buffer. -/
structure Fits (s : Tvideo) : Prop where
  node : s.pool.pktHeaderSize.toNat + s.nodeLen.toNat ≤ TVIDEO_RXNODE_SIZE
  header : ∀ addPktHeader, s.pool.addPktHeader = some addPktHeader →
    ∀ param, (addPktHeader param).length ≤ s.pool.pktHeaderSize.toNat

/-- What `send_func` was given is the packet as it was queued. -/
def Handed (fits : Prop) (packet : Packet) (offer : Offer) : Prop :=
  offer.elem = packet.elem ∧ offer.bufLen = packet.bufLen ∧ (fits → offer.bytes = packet.bytes)

/-- Each offer is of the first packet that no offer before it was enough for. -/
def InOrder (fits : Prop) (received : List Packet) (offers : List Offer) : Prop :=
  ∀ i offer, offers[i]? = some offer →
    ∃ packet, received[(offers.take i).countP Offer.sent]? = some packet ∧ Handed fits packet offer

namespace InOrder

variable {fits : Prop} {received : List Packet} {offers : List Offer}

theorem receive (order : InOrder fits received offers) (packet : Packet) :
    InOrder fits (received ++ [packet]) offers := by
  intro i offer made
  obtain ⟨p, found, handed⟩ := order i offer made
  refine ⟨p, ?_, handed⟩
  rw [List.getElem?_append_left (List.getElem?_eq_some_iff.mp found).1]
  exact found

theorem offer (order : InOrder fits received offers) {packet : Packet} {offer : Offer}
    (next : received[offers.countP Offer.sent]? = some packet) (handed : Handed fits packet offer) :
    InOrder fits received (offers ++ [offer]) := by
  intro i o made
  by_cases last : i = offers.length
  · subst last
    rw [List.getElem?_concat_length, Option.some.injEq] at made
    subst made
    rw [List.take_left' rfl]
    exact ⟨packet, next, handed⟩
  · have inside : i < offers.length := by
      have bound := (List.getElem?_eq_some_iff.mp made).1
      rw [List.length_append, List.length_singleton] at bound
      omega
    rw [List.getElem?_append_left inside] at made
    rw [List.take_append_of_le_length (Nat.le_of_lt inside)]
    exact order i o made

end InOrder

/-- The ready list: the packets from number `gone` on. -/
structure Waiting (s : Tvideo) (gone : Nat) : Prop where
  le : gone ≤ s.received.length
  ready : s.pool.ready = (s.received.drop gone).map Packet.elem
  kept : ∀ packet ∈ s.received.drop gone, s.pool.bufLen packet.elem = packet.bufLen ∧
    (Fits s → packet.bufLen.toNat ≤ TVIDEO_RXNODE_SIZE ∧ s.pool.packet packet.elem = packet.bytes)

/-- What `tvideo_rx_handler` knows of the element it is at. -/
def RxAt (s : Tvideo) : Prop :=
  match s.rx with
  | .fill _ elem => s.pool.free.head? = some elem
  | .popFree elem _ => s.pool.free.head? = some elem ∧
      (Fits s → (s.pool.bufLen elem).toNat ≤ TVIDEO_RXNODE_SIZE)
  | .pushReady elem _ => Fits s → (s.pool.bufLen elem).toNat ≤ TVIDEO_RXNODE_SIZE
  | _ => True

/-- What `tvideo_poll_handler` knows, with `gone` packets taken off the ready list. -/
def PollAt (s : Tvideo) (gone : Nat) : Prop :=
  match s.poll with
  | .send elem => s.pool.ready.head? = some elem ∧ s.pool.sendFunc = true ∧
      s.offers.countP Offer.sent = gone
  | .popReady elem => s.pool.ready.head? = some elem ∧
      (s.pool.sendFunc = true → s.offers.countP Offer.sent = gone + 1)
  | _ => s.pool.sendFunc = true → s.offers.countP Offer.sent = gone

structure Inv (s : Tvideo) : Prop where
  conserved : (s.pool.free ++ s.pool.ready ++ s.moving).Perm (List.range POOL_ELEMS)
  rx : RxAt s
  waiting : ∃ gone, Waiting s gone ∧ PollAt s gone
  order : InOrder (Fits s) s.received s.offers

variable {s s' : Tvideo} {gone : Nat}

theorem Fits.of_same (fits : Fits s') (size : s'.pool.pktHeaderSize = s.pool.pktHeaderSize)
    (header : s'.pool.addPktHeader = s.pool.addPktHeader) (node : s'.nodeLen = s.nodeLen) : Fits s :=
  ⟨by rw [← size, ← node]; exact fits.node, by rw [← size, ← header]; exact fits.header⟩

theorem InOrder.weaken {fits fits' : Prop} {received : List Packet} {offers : List Offer}
    (order : InOrder fits received offers) (weaker : fits' → fits) : InOrder fits' received offers := by
  intro i offer made
  obtain ⟨p, found, elem, len, bytes⟩ := order i offer made
  exact ⟨p, found, elem, len, fun h => bytes (weaker h)⟩

/-- The packets that wait stay as they are when their elements do. -/
theorem Waiting.frame (waiting : Waiting s gone) (received : s'.received = s.received)
    (ready : s'.pool.ready = s.pool.ready) (weaker : Fits s' → Fits s)
    (bufLen : ∀ elem ∈ s.pool.ready, s'.pool.bufLen elem = s.pool.bufLen elem)
    (bytes : ∀ elem ∈ s.pool.ready, Fits s → (s.pool.bufLen elem).toNat ≤ TVIDEO_RXNODE_SIZE →
      s'.pool.packet elem = s.pool.packet elem) : Waiting s' gone := by
  refine ⟨by rw [received]; exact waiting.le, by rw [received, ready]; exact waiting.ready, ?_⟩
  rw [received]
  intro packet member
  have listed : packet.elem ∈ s.pool.ready := by
    rw [waiting.ready]
    exact List.mem_map_of_mem member
  obtain ⟨len, more⟩ := waiting.kept packet member
  refine ⟨(bufLen _ listed).trans len, fun fits => ?_⟩
  obtain ⟨short, same⟩ := more (weaker fits)
  exact ⟨short, (bytes _ listed (weaker fits) (by rw [len]; exact short)).trans same⟩

/-- The head of the ready list is the first packet not yet done with. -/
theorem Waiting.head (waiting : Waiting s gone) {elem : Nat} (head : s.pool.ready.head? = some elem) :
    ∃ packet, s.received[gone]? = some packet ∧ packet.elem = elem ∧
      s.pool.bufLen elem = packet.bufLen ∧ (Fits s → s.pool.packet elem = packet.bytes) := by
  rw [waiting.ready, List.head?_map, List.head?_drop] at head
  obtain ⟨packet, found, rfl⟩ := Option.map_eq_some_iff.mp head
  have member : packet ∈ s.received.drop gone := by
    apply List.mem_of_getElem? (i := 0)
    rw [List.getElem?_drop]
    exact found
  obtain ⟨len, more⟩ := waiting.kept packet member
  exact ⟨packet, found, rfl, len, fun fits => (more fits).2⟩

/-- The video thread only adds to the free list. -/
theorem RxAt.frame (known : RxAt s) (rx : s'.rx = s.rx)
    (free : ∀ elem, s.pool.free.head? = some elem → s'.pool.free.head? = some elem)
    (bufLen : s'.pool.bufLen = s.pool.bufLen) (weaker : Fits s' → Fits s) : RxAt s' := by
  unfold RxAt at known ⊢
  rw [rx, bufLen]
  split at known
  · exact free _ known
  · exact ⟨free _ known.1, fun fits => known.2 (weaker fits)⟩
  · exact fun fits => known (weaker fits)
  · trivial

theorem toNat_fillLen (fits : Fits s) (node : NodeFull) :
    ((hdrParam s node).ptklen + s.pool.pktHeaderSize.toUInt32).toNat ≤ TVIDEO_RXNODE_SIZE ∧
      (hdrParam s node).ptklen.toNat ≤ s.nodeLen.toNat := by
  have room := fits.node
  have cut : (hdrParam s node).ptklen.toNat ≤ s.nodeLen.toNat := by
    simp only [hdrParam, NodeFull.len]
    split
    · exact Nat.le_refl _
    · next small => exact UInt32.le_iff_toNat_le.mp (UInt32.not_lt.mp small)
  refine ⟨?_, cut⟩
  rw [TVIDEO_RXNODE_SIZE] at room ⊢
  rw [UInt32.toNat_add, UInt16.toNat_toUInt32]
  omega

/-- Filling one element leaves what the others hold. -/
theorem packet_fillElem (fits : Fits s) {node : NodeFull} {elem e : Nat} (apart : e ≠ elem)
    (short : (s.pool.bufLen e).toNat ≤ TVIDEO_RXNODE_SIZE) :
    (fillElem s.pool elem node (hdrParam s node)).packet e = s.pool.packet e := by
  have room := fits.node
  have cut := (toNat_fillLen fits node).2
  have len : (fillElem s.pool elem node (hdrParam s node)).bufLen e = s.pool.bufLen e :=
    Function.update_of_ne apart _ _
  rw [TvideoPool.packet, TvideoPool.packet, len]
  simp only [fillElem]
  rw [TVIDEO_RXNODE_SIZE] at room short
  rw [Mem.read_write_disjoint _ _ _ _ _ (by
    rw [Mem.length_read, bufStart, bufStart, TVIDEO_RXNODE_SIZE]
    omega)]
  cases callback : s.pool.addPktHeader with
  | none => rw [Mem.write_nil]
  | some addPktHeader =>
    have header := fits.header _ callback (hdrParam s node)
    dsimp only
    exact Mem.read_write_disjoint _ _ _ _ _ (by
      rw [bufStart, bufStart, TVIDEO_RXNODE_SIZE]
      omega)

/-! ### Every step keeps the invariant -/

/-- No step changes how packets are cut. -/
theorem fits_stepRx : Fits (stepRx s) ↔ Fits s := by
  cases pc : s.rx <;> simp only [stepRx, pc] <;> (repeat' split) <;>
    exact ⟨fun fits => fits.of_same rfl rfl rfl, fun fits => fits.of_same rfl rfl rfl⟩

theorem fits_stepPoll (sendLen : UInt32) : Fits (stepPoll s sendLen) ↔ Fits s := by
  cases pc : s.poll <;> simp only [stepPoll, pc] <;> (repeat' split) <;>
    exact ⟨fun fits => fits.of_same rfl rfl rfl, fun fits => fits.of_same rfl rfl rfl⟩

/-- A step that touches no list and no element. -/
theorem Inv.of_same (inv : Inv s) (free : s'.pool.free = s.pool.free) (ready : s'.pool.ready = s.pool.ready)
    (moving : s'.moving = s.moving) (weaker : Fits s' → Fits s) (rx : RxAt s')
    (bufLen : s'.pool.bufLen = s.pool.bufLen) (pool : s'.pool.pool = s.pool.pool)
    (received : s'.received = s.received) (offers : s'.offers = s.offers)
    (poll : ∀ gone, PollAt s gone → PollAt s' gone) : Inv s' := by
  obtain ⟨gone, waiting, known⟩ := inv.waiting
  refine ⟨?_, rx, ⟨gone, ?_, poll gone known⟩, ?_⟩
  · rw [free, ready, moving]
    exact inv.conserved
  · refine waiting.frame received ready weaker (fun _ _ => by rw [bufLen]) (fun _ _ _ _ => ?_)
    rw [TvideoPool.packet, TvideoPool.packet, bufLen, pool]
  · rw [received, offers]
    exact inv.order.weaken weaker

/-- The interrupt goes on to its next step. -/
theorem Inv.of_rx (inv : Inv s) {rx : Rx} (moving : Tvideo.moving { s with rx } = s.moving)
    (moved : RxAt { s with rx }) : Inv { s with rx } :=
  inv.of_same rfl rfl moving (fun fits => fits.of_same rfl rfl rfl) moved rfl rfl rfl rfl (fun _ => id)

/-- The video thread goes on to its next step. -/
theorem Inv.of_poll (inv : Inv s) {poll : Poll} (moving : Tvideo.moving { s with poll } = s.moving)
    (moved : ∀ gone, PollAt s gone → PollAt { s with poll } gone) : Inv { s with poll } := by
  have weaker (fits : Fits { s with poll }) : Fits s := fits.of_same rfl rfl rfl
  exact inv.of_same rfl rfl moving weaker (inv.rx.frame rfl (fun _ => id) rfl weaker) rfl rfl rfl rfl moved

theorem Waiting.push (waiting : Waiting s gone) {elem : Nat} {param : HdrParam} {rx : Rx}
    (known : Fits s → (s.pool.bufLen elem).toNat ≤ TVIDEO_RXNODE_SIZE) :
    Waiting
      { s with
        pool := { s.pool with ready := s.pool.ready ++ [elem] }
        rx
        received := s.received ++ [⟨elem, param, s.pool.bufLen elem, s.pool.packet elem⟩] } gone := by
  have le := waiting.le
  refine ⟨?_, ?_, ?_⟩
  · simp only [List.length_append]
    omega
  · simp only [List.drop_append_of_le_length le, List.map_append, waiting.ready]
    rfl
  · simp only [List.drop_append_of_le_length le]
    intro packet member
    rcases List.mem_append.mp member with old | new
    · obtain ⟨len, more⟩ := waiting.kept packet old
      exact ⟨len, fun fits => more (fits.of_same rfl rfl rfl)⟩
    · obtain rfl := List.mem_singleton.mp new
      exact ⟨rfl, fun fits => ⟨known (fits.of_same rfl rfl rfl), rfl⟩⟩

/-- The head of the ready list is done with. -/
theorem Waiting.pop (waiting : Waiting s gone) {elem : Nat} {poll : Poll}
    (head : s.pool.ready.head? = some elem) :
    Waiting { s with pool := { s.pool with ready := s.pool.ready.tail }, poll } (gone + 1) := by
  obtain ⟨packet, found, -, -, -⟩ := waiting.head head
  have inside : gone < s.received.length := (List.getElem?_eq_some_iff.mp found).1
  have rest : s.received.drop gone = packet :: s.received.drop (gone + 1) := by
    rw [List.drop_eq_getElem_cons inside, (List.getElem?_eq_some_iff.mp found).2]
  have listed : s.pool.ready.tail = (s.received.drop (gone + 1)).map Packet.elem := by
    rw [waiting.ready, rest, List.map_cons, List.tail_cons]
  refine ⟨inside, listed, fun p member => ?_⟩
  obtain ⟨len, more⟩ := waiting.kept p (by rw [rest]; exact List.mem_cons_of_mem _ member)
  exact ⟨len, fun fits => more (fits.of_same rfl rfl rfl)⟩

theorem inv_stepRx (inv : Inv s) : Inv (stepRx s) := by
  have weaker : Fits (stepRx s) → Fits s := fits_stepRx.mp
  have ⟨conserved, known, ⟨gone, waiting, poll⟩, order⟩ := inv
  cases pc : s.rx with
  | idle => simpa only [stepRx, pc] using inv
  | pick node =>
    simp only [stepRx, pc]
    split
    · exact inv.of_rx (by simp only [Tvideo.moving, pc]) trivial
    · cases head : s.pool.free.head? with
      | some elem => exact inv.of_rx (by simp only [Tvideo.moving, pc]) head
      | none => exact inv.of_rx (by simp only [Tvideo.moving, pc]) trivial
  | fill node elem =>
    simp only [RxAt, Tvideo.moving, pc] at known conserved
    simp only [stepRx, pc] at weaker ⊢
    -- the element filled is free, so no packet waits in it
    have apart : elem ∉ s.pool.ready := by
      have distinct := (conserved.nodup_iff.mpr List.nodup_range).sublist (List.sublist_append_left _ _)
      have free := List.mem_of_head? known
      exact fun ready => (List.nodup_append.mp distinct).2.2 elem free elem ready rfl
    refine ⟨conserved, ⟨known, fun fits => ?_⟩, ⟨gone, ?_, poll⟩, order.weaken weaker⟩
    · simp only [fillElem, Function.update_self]
      exact (toNat_fillLen (weaker fits) node).1
    · refine waiting.frame rfl rfl weaker (fun e ready => ?_) (fun e ready fits len => ?_)
      · exact Function.update_of_ne (fun same : e = elem => apart (same ▸ ready)) _ _
      · exact packet_fillElem fits (fun same : e = elem => apart (same ▸ ready)) len
  | popFree elem param =>
    simp only [RxAt, Tvideo.moving, pc] at known conserved
    simp only [stepRx, pc] at weaker ⊢
    obtain ⟨head, short⟩ := known
    refine ⟨?_, fun fits => short (weaker fits), ⟨gone, ?_, poll⟩, order.weaken weaker⟩
    · refine List.Perm.trans ?_ conserved
      obtain ⟨tail, free⟩ := List.head?_eq_some_iff.mp head
      simp only [Tvideo.moving, free, List.tail_cons]
      refine List.perm_iff_count.mpr fun a => ?_
      simp only [List.count_append, List.count_cons, List.count_nil]
      omega
    · exact waiting.frame rfl rfl weaker (fun _ _ => rfl) (fun _ _ _ _ => rfl)
  | pushReady elem param =>
    simp only [RxAt, Tvideo.moving, pc] at known conserved
    simp only [stepRx, pc] at weaker ⊢
    refine ⟨?_, trivial, ⟨gone, waiting.push known, ?_⟩, (order.weaken weaker).receive _⟩
    · refine List.Perm.trans ?_ conserved
      refine List.perm_iff_count.mpr fun a => ?_
      simp only [Tvideo.moving, List.count_append, List.count_cons, List.count_nil]
      omega
    · -- the head of a list stays when something is pushed behind it
      have head {e : Nat} (head : s.pool.ready.head? = some e) :
          (s.pool.ready ++ [elem]).head? = some e := by
        rw [List.head?_append, head]
        rfl
      cases at_poll : s.poll <;> simp only [PollAt, at_poll] at poll ⊢
      case send => exact ⟨head poll.1, poll.2⟩
      case popReady => exact ⟨head poll.1, poll.2⟩
      all_goals exact poll

theorem inv_stepPoll (inv : Inv s) (sendLen : UInt32) : Inv (stepPoll s sendLen) := by
  have weaker : Fits (stepPoll s sendLen) → Fits s := (fits_stepPoll sendLen).mp
  have ⟨conserved, rx, ⟨gone, waiting, known⟩, order⟩ := inv
  cases pc : s.poll with
  | idle => simpa only [stepPoll, pc] using inv
  | pick =>
    simp only [stepPoll, pc]
    cases head : s.pool.ready.head? with
    | none =>
      refine inv.of_poll (by simp only [Tvideo.moving, pc]) fun gone known => ?_
      simpa only [PollAt, pc] using known
    | some elem =>
      by_cases func : s.pool.sendFunc = true
      · simp only [func, if_true]
        refine inv.of_poll (by simp only [Tvideo.moving, pc]) fun gone known => ?_
        simp only [PollAt, pc] at known
        exact ⟨head, func, known func⟩
      · simp only [func, Bool.false_eq_true, if_false]
        refine inv.of_poll (by simp only [Tvideo.moving, pc]) fun gone known => ?_
        exact ⟨head, fun yes => absurd yes func⟩
  | send elem =>
    simp only [PollAt, Tvideo.moving, pc] at known conserved
    simp only [stepPoll, pc] at weaker ⊢
    obtain ⟨head, func, count⟩ := known
    obtain ⟨packet, found, rfl, len, bytes⟩ := waiting.head head
    let offer : Offer := ⟨packet.elem, s.pool.bufLen packet.elem, s.pool.packet packet.elem, sendLen⟩
    have handed : Handed (Fits s) packet offer := ⟨rfl, len, bytes⟩
    have made := order.offer (by rw [count]; exact found) handed
    -- an offer that is not sent whole leaves the packet at the head
    by_cases whole : sendLen = s.pool.bufLen packet.elem
    · rw [if_neg (not_not_intro whole)] at weaker ⊢
      refine ⟨conserved, rx.frame rfl (fun _ => id) rfl weaker, ⟨gone, ?_, head, fun _ => ?_⟩,
        made.weaken weaker⟩
      · exact waiting.frame rfl rfl weaker (fun _ _ => rfl) (fun _ _ _ _ => rfl)
      · simp only [List.countP_append, count, List.countP_singleton, Offer.sent, whole, beq_self_eq_true,
          if_true]
    · rw [if_pos whole] at weaker ⊢
      refine ⟨conserved, rx.frame rfl (fun _ => id) rfl weaker, ⟨gone, ?_, fun _ => ?_⟩,
        made.weaken weaker⟩
      · exact waiting.frame rfl rfl weaker (fun _ _ => rfl) (fun _ _ _ _ => rfl)
      · simp only [List.countP_append, count, List.countP_singleton, Offer.sent, beq_iff_eq, whole,
          if_false, Nat.add_zero]
  | popReady elem =>
    simp only [PollAt, Tvideo.moving, pc] at known conserved
    simp only [stepPoll, pc] at weaker ⊢
    obtain ⟨head, count⟩ := known
    refine ⟨?_, rx.frame rfl (fun _ => id) rfl weaker, ⟨gone + 1, waiting.pop head, count⟩,
      order.weaken weaker⟩
    obtain ⟨tail, ready⟩ := List.head?_eq_some_iff.mp head
    refine List.Perm.trans ?_ conserved
    refine List.perm_iff_count.mpr fun a => ?_
    simp only [Tvideo.moving, ready, List.tail_cons, List.count_append, List.count_cons, List.count_nil]
    omega
  | pushFree elem =>
    simp only [PollAt, Tvideo.moving, pc] at known conserved
    simp only [stepPoll, pc] at weaker ⊢
    refine ⟨?_, ?_, ⟨gone, ?_, known⟩, order.weaken weaker⟩
    · refine List.Perm.trans ?_ conserved
      refine List.perm_iff_count.mpr fun a => ?_
      simp only [Tvideo.moving, List.count_append, List.count_cons, List.count_nil]
      omega
    · refine rx.frame rfl (fun e head => ?_) rfl weaker
      rw [List.head?_append, head]
      rfl
    · exact waiting.frame rfl rfl weaker (fun _ _ => rfl) (fun _ _ _ _ => rfl)

theorem inv_step (inv : Inv s) (e : Event) : Inv (step s e) := by
  cases e with
  | callRx node =>
    cases pc : s.rx with
    | idle =>
      simp only [step, pc]
      exact inv.of_rx (by simp only [Tvideo.moving, pc]) trivial
    | _ => simpa only [step, pc] using inv
  | rx => exact inv_stepRx inv
  | endFrame =>
    have weaker (fits : Fits (tvideoEndFrameHandler s)) : Fits s := fits.of_same rfl rfl rfl
    exact inv.of_same rfl rfl rfl weaker (inv.rx.frame rfl (fun _ => id) rfl weaker) rfl rfl rfl rfl
      (fun _ => id)
  | callPoll =>
    cases pc : s.poll with
    | idle =>
      simp only [step, pc]
      refine inv.of_poll (by simp only [Tvideo.moving, pc]) fun gone known => ?_
      simpa only [PollAt, pc] using known
    | _ => simpa only [step, pc] using inv
  | poll sendLen => exact inv_stepPoll inv sendLen

theorem inv_start (setup : Setup) : Inv (start setup) := by
  refine ⟨?_, trivial, ⟨0, ⟨Nat.le_refl _, rfl, fun p member => ?_⟩, fun _ => rfl⟩, fun i o made => ?_⟩
  · simp only [start, tvideoPoolInit, Tvideo.moving, List.append_nil]
    exact List.Perm.refl _
  · exact absurd member (by simp [start])
  · exact absurd made (by simp [start])

theorem inv_run (setup : Setup) (events : List Event) : Inv (events.foldl step (start setup)) := by
  have initial := inv_start setup
  generalize start setup = s at initial ⊢
  induction events generalizing s with
  | nil => exact initial
  | cons e events ih => exact ih _ (inv_step initial e)

theorem fits_step (fits : Fits s) (e : Event) : Fits (step s e) := by
  cases e with
  | rx => exact fits_stepRx.mpr fits
  | poll sendLen => exact (fits_stepPoll sendLen).mpr fits
  | endFrame => exact fits.of_same rfl rfl rfl
  | callRx node =>
    simp only [step]
    split
    · exact fits.of_same rfl rfl rfl
    · exact fits
  | callPoll =>
    simp only [step]
    split
    · exact fits.of_same rfl rfl rfl
    · exact fits

theorem fits_run (fits : Fits s) (events : List Event) : Fits (events.foldl step s) := by
  induction events generalizing s with
  | nil => exact fits
  | cons e events ih => exact ih (fits_step fits e)

/-- Whatever the order of the steps: every element is in the free list, in the ready list, or has just
been popped from one of them by the handler that is about to push it to the other; and each call of
`send_func` is for the first packet received that has not been sent whole yet, as it was queued. -/
theorem pool_conserved (setup : Setup) (events : List Event) :
    let s := events.foldl step (start setup)
    (s.pool.free ++ s.pool.ready ++ s.moving).Perm (List.range POOL_ELEMS) ∧
      InOrder (Fits (start setup)) s.received s.offers := by
  have inv := inv_run setup events
  exact ⟨inv.conserved, inv.order.weaken fun fits => fits_run fits events⟩

/-- One packet, sent whole, but the element is not back yet. -/
def betweenLists : List Event :=
  [.callRx ⟨fun _ => 0, 4, 0, 0⟩, .rx, .rx, .rx, .rx, .callPoll, .poll 0, .poll 4, .poll 0]

/-- While the video thread moves an element, it is in neither list. -/
theorem pool_elem_in_neither_list :
    ¬ ∀ (setup : Setup) (events : List Event), ∀ elem < POOL_ELEMS,
      (elem ∈ (events.foldl step (start setup)).pool.free ↔
        elem ∉ (events.foldl step (start setup)).pool.ready) := by
  intro always
  exact absurd (always ⟨TVIDEO_SND_UDP, true, 0, none⟩ betweenLists 0 (by decide)) (by decide)

end Bk7251.Video
