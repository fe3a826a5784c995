import Bk7251.Sdio.NodeConservation

/-!
# The frames under way

A node on `rxing_list` or `txing_list` keeps its buffer until its frame is complete, whatever the calls of
the device do meanwhile.
-/
namespace Bk7251.Sdio

open Lib

/-! ### Nodes that keep their buffers -/

def blockSize (s : SdioS) (node : Nat) : Option UInt32 := (owner s node).bind s.heap.get?

/-- The node and its block are as before. -/
structure Same (s s' : SdioS) (node : Nat) : Prop where
  snode : s'.snode node = s.snode node
  block : blockSize s' node = blockSize s node

theorem Same.refl (s : SdioS) (node : Nat) : Same s s node := ⟨rfl, rfl⟩

theorem Same.trans {s s' s'' : SdioS} {node : Nat} (first : Same s s' node) (second : Same s' s'' node) :
    Same s s'' node := ⟨second.snode.trans first.snode, second.block.trans first.block⟩

theorem same_of_eq {s s' : SdioS} (same : (s'.heap, s'.snode) = (s.heap, s.snode)) (node : Nat) :
    Same s s' node := by
  obtain ⟨heap, snode⟩ := Prod.mk.inj same
  constructor
  · rw [snode]
  · rw [blockSize, blockSize, owner, owner, heap, snode]

/-- A buffer as the driver has allocated it, with the node's address behind the reserved head. -/
def Fresh (s : SdioS) (node : Nat) : Prop :=
  ∃ block size, (s.snode node).origAddr = some block ∧
    (s.snode node).addr = some ⟨block, CFG_MSDU_RESV_HEAD_LEN⟩ ∧ blockSize s node = some size ∧
    size.toNat = CFG_MSDU_RESV_HEAD_LEN.toNat + (s.snode node).length.toNat + 24

theorem Fresh.congr {s s' : SdioS} {node : Nat} (fresh : Fresh s node) (same : Same s s' node) :
    Fresh s' node := by
  obtain ⟨block, size, owns, addr, sized, total⟩ := fresh
  refine ⟨block, size, ?_, ?_, ?_, ?_⟩
  · rw [same.snode, owns]
  · rw [same.snode, addr]
  · rw [same.block, sized]
  · rw [same.snode, total]

/-- Nothing but the free nodes and the heap changes, and the nodes in use keep what they have. -/
structure Moved (s s' : SdioS) (hand : List Nat) : Prop where
  fields : s' = { s with heap := s'.heap, snode := s'.snode, freeNodes := s'.freeNodes }
  same : ∀ node ∈ used s ++ hand, Same s s' node

section

variable {s : SdioS} {hand : List Nat} {node : Nat}

theorem Inv.not_free (inv : Inv s hand) (member : node ∈ used s ++ hand) : node ∉ s.freeNodes :=
  fun free => (List.nodup_append.mp inv.nodup).2.2 node free node member rfl

theorem Inv.sized (inv : Inv s hand) (member : node ∈ used s ++ hand) :
    ∃ block size, owner s node = some block ∧ s.heap.get? block = some size := by
  obtain ⟨block, owns, live⟩ := inv.owns.live node member
  obtain ⟨size, sized⟩ := Option.isSome_iff_exists.mp live
  exact ⟨block, size, owns, sized⟩

theorem Inv.not_held (inv : Inv s hand) (member : node ∈ s.rxingList ++ s.txingList) : node ∉ s.held := by
  intro held
  have distinct := (List.nodup_append.mp (List.nodup_append.mp inv.nodup).2.1).1
  apply (List.nodup_append.mp distinct).2.2 node _ node held rfl
  rcases List.mem_append.mp member with rxing | txing
  · simp [rxing]
  · simp [txing]

theorem moved_alloc (inv : Inv s hand) (malloc : Bool) (size : UInt32) :
    Moved s (sdioAllocValidNode s malloc size).1 hand := by
  obtain made | ⟨first, rest, free, made⟩ | ⟨first, rest, total, free, made⟩ :=
    Inv.alloc_cases s malloc size
  · rw [made]
    exact ⟨rfl, fun node _ => Same.refl s node⟩
  · rw [made]
    exact ⟨rfl, fun node _ => ⟨rfl, rfl⟩⟩
  · rw [made]
    refine ⟨rfl, ?_⟩
    intro node member
    -- the node that is handed out was free
    have other : node ≠ first := by
      rintro rfl
      exact inv.not_free member (by rw [free]; exact List.mem_cons_self)
    obtain ⟨block, held, owns, sized⟩ := inv.sized member
    have kept : ∀ x, Function.update s.snode first x node = s.snode node := fun x =>
      Function.update_of_ne other _ _
    constructor
    · exact kept _
    · rw [owner] at owns
      simp only [blockSize, owner, kept, owns, Option.bind_some, sized]
      exact Heap.get?_alloc_of_live total sized

/-- A node with a new buffer. -/
theorem fresh_alloc {malloc : Bool} {size : UInt32} {s' : SdioS} (small : size.toNat ≤ 65535)
    (made : sdioAllocValidNode s malloc size = (s', some node)) :
    Fresh s' node ∧ (s'.snode node).length = size := by
  unfold sdioAllocValidNode at made
  split at made
  · cases made
  · split at made
    · cases made
    · split at made
      · cases made
        refine ⟨⟨s.heap.next, CFG_MSDU_RESV_HEAD_LEN + size + CFG_MSDU_RESV_TAIL_LEN + MALLOC_MAGIC_LEN,
          ?_, ?_, ?_, ?_⟩, ?_⟩
        · simp only [Function.update_self]
        · simp only [Function.update_self]
        · simp only [blockSize, owner, Function.update_self, Option.bind_some]
          exact Heap.get?_alloc_self _ _
        · simp only [Function.update_self]
          -- the tail and the magic word are the 24 bytes behind the frame
          simp only [CFG_MSDU_RESV_HEAD_LEN, CFG_MSDU_RESV_TAIL_LEN, MALLOC_MAGIC_LEN, UInt32.toNat_add,
            UInt32.reduceToNat]
          omega
        · simp only [Function.update_self]
      · cases made

/-- Whether there is a node with a buffer. -/
theorem alloc_some_iff (s : SdioS) (malloc : Bool) (size : UInt32) :
    (sdioAllocValidNode s malloc size).2.isSome ↔ malloc = true ∧ s.freeNodes ≠ [] ∧ size ≠ 0 := by
  unfold sdioAllocValidNode
  split
  next zero => simp [zero]
  next more =>
    cases s.freeNodes with
    | nil => simp
    | cons node rest => cases malloc <;> simp [more]

theorem moved_free (inv : Inv s (node :: hand)) :
    ∃ s', sdioFreeValidNode s node = .ok s' ∧ Inv s' hand ∧ Moved s s' hand ∧
      s'.freeNodes = s.freeNodes ++ [node] := by
  have kept := inv.free
  obtain ⟨block, size, owns, sized⟩ := inv.sized (List.mem_append_right _ List.mem_cons_self)
  obtain ⟨heap, freed, others⟩ := Heap.free_of_live sized
  have released : osFree s.heap (s.snode node).origAddr = .ok heap := by
    have at_block : (s.snode node).origAddr = some block := owns
    simp only [at_block, osFree, freed]
  simp only [sdioFreeValidNode, released] at kept ⊢
  refine ⟨_, rfl, kept, ⟨rfl, ?_⟩, rfl⟩
  intro other member
  -- the node that is given back is not used a second time
  have distinct : other ≠ node := by
    rintro rfl
    have whole := (List.nodup_append.mp inv.nodup).2.1
    have front : (other :: (used s ++ hand)).Nodup := (List.perm_middle.nodup_iff).mp whole
    exact (List.nodup_cons.mp front).1 member
  have inside : other ∈ used s ++ node :: hand := by
    rcases List.mem_append.mp member with first | second
    · exact List.mem_append_left _ first
    · exact List.mem_append_right _ (List.mem_cons_of_mem _ second)
  obtain ⟨block', size', owns', sized'⟩ := inv.sized inside
  -- and no other node has its block
  have apart : block' ≠ block := by
    rintro rfl
    exact distinct (inv.owns.apart other inside node (List.mem_append_right _ List.mem_cons_self)
      (owns'.trans owns.symm))
  have stays : Function.update s.snode node ⟨none, none, 0⟩ other = s.snode other :=
    Function.update_of_ne distinct _ _
  constructor
  · exact stays
  · rw [owner] at owns'
    simp only [blockSize, owner, stays, owns', Option.bind_some]
    exact others block' apart

end

/-! ### The lists under way -/

/-- At most one frame is under way in each direction; the one that comes in has the buffer it was allocated
for, the one that goes out has an address, and without it the count of its bytes is 0. -/
structure Ready (blk512 : Bool) (s : SdioS) : Prop where
  inv : Inv s []
  rxing : ∀ node ∈ s.rxingList, Fresh s node
  rxOne : s.rxingList.length ≤ 1
  txing : ∀ node ∈ s.txingList, (s.snode node).addr.isSome
  txOne : s.txingList.length ≤ 1
  tcLen : blk512 = true → s.txingList = [] → s.tcLen = 0

/-- Nothing that `Ready` is about changes. -/
structure Frame (s s' : SdioS) : Prop where
  rxing : s'.rxingList = s.rxingList
  txing : s'.txingList = s.txingList
  tcLen : s'.tcLen = s.tcLen
  same : ∀ node ∈ s.rxingList ++ s.txingList, Same s s' node

namespace Frame

variable {s s' s'' : SdioS} {hand : List Nat}

theorem of_eq (same : (s'.heap, s'.snode, s'.rxingList, s'.txingList, s'.tcLen) =
    (s.heap, s.snode, s.rxingList, s.txingList, s.tcLen)) : Frame s s' := by
  simp only [Prod.mk.injEq] at same
  obtain ⟨heap, snode, rxing, txing, tcLen⟩ := same
  exact ⟨rxing, txing, tcLen, fun node _ => same_of_eq (by rw [heap, snode]) node⟩

theorem trans (first : Frame s s') (second : Frame s' s'') : Frame s s'' where
  rxing := second.rxing.trans first.rxing
  txing := second.txing.trans first.txing
  tcLen := second.tcLen.trans first.tcLen
  same node member := by
    apply (first.same node member).trans
    apply second.same
    rw [first.rxing, first.txing]
    exact member

theorem of_moved (moved : Moved s s' hand) : Frame s s' where
  rxing := by rw [moved.fields]
  txing := by rw [moved.fields]
  tcLen := by rw [moved.fields]
  same node member := by
    apply moved.same
    rcases List.mem_append.mp member with rxing | txing
    · simp [used, rxing]
    · simp [used, txing]

theorem ready {blk512 : Bool} (frame : Frame s s') (ready : Ready blk512 s) (inv : Inv s' []) :
    Ready blk512 s' where
  inv := inv
  rxing node member := by
    rw [frame.rxing] at member
    exact (ready.rxing node member).congr (frame.same node (List.mem_append_left _ member))
  rxOne := by
    rw [frame.rxing]
    exact ready.rxOne
  txing node member := by
    rw [frame.txing] at member
    rw [(frame.same node (List.mem_append_right _ member)).snode]
    exact ready.txing node member
  txOne := by
    rw [frame.txing]
    exact ready.txOne
  tcLen build idle := by
    rw [frame.tcLen]
    exact ready.tcLen build (frame.txing.symm.trans idle)

end Frame

/-! ### The device calls -/

section

variable {s : SdioS} {hand : List Nat}

theorem frame_readNode {node : Nat} (inv : Inv s (node :: hand)) :
    Holds (fun p => Frame s p.1) (readNode s node) := by
  obtain ⟨s', freed, -, moved, -⟩ := moved_free inv
  simp only [readNode, freed]
  exact (Frame.of_moved moved).trans (Frame.of_eq rfl)

theorem frame_sdioRead (inv : Inv s hand) (userBuf : Bool) (count opFlag : UInt32) :
    Holds (fun p => Frame s p.1) (sdioRead s userBuf count opFlag) := by
  have busy := inv.busy
  have start : Frame s (Bk7251.Sdio.busy s) := Frame.of_eq rfl
  -- a node that is read is on neither of the two lists any more
  have popped : ∀ {s' : SdioS} {node : Nat}, Frame s s' → Inv s' (node :: hand) →
      Holds (fun p => Frame s p.1) (readNode s' node) := by
    intro s' node frame inv'
    have read := frame_readNode inv'
    cases result : readNode s' node with
    | ok p =>
      rw [result] at read
      exact frame.trans read
    | error stop =>
      rw [result] at read
      exact read
  unfold sdioRead
  simp only
  split
  · split
    · exact start
    · split
      · next node rest list => exact popped (Frame.of_eq rfl) (busy.popTx list)
      · exact Frame.of_eq rfl
  · split
    · split
      · exact start
      · split
        · next node rest list => exact popped (Frame.of_eq rfl) (busy.popRx list)
        · exact Frame.of_eq rfl
    · split
      · split
        · exact Frame.of_eq rfl
        · exact Frame.of_eq rfl
      · exact Frame.of_eq rfl

theorem frame_sdioWrite (inv : Inv s hand) (malloc : Bool) (userBuf : Option Nat)
    (count opFlag : UInt32) : Frame s (sdioWrite s malloc userBuf count opFlag).1 := by
  have start : Frame s (Bk7251.Sdio.busy s) := Frame.of_eq rfl
  have taken := start.trans (Frame.of_moved (moved_alloc inv.busy malloc count))
  unfold sdioWrite
  simp only
  generalize sdioAllocValidNode (Bk7251.Sdio.busy s) malloc count = p at taken
  obtain ⟨s', node⟩ := p
  split
  · split
    · exact start
    · cases node with
      | none => exact taken.trans (Frame.of_eq rfl)
      | some node => exact taken.trans (Frame.of_eq rfl)
  · split
    · split
      · split
        · exact start
        · exact Frame.of_eq rfl
      · exact start
    · split
      · split
        · exact start
        · cases node with
          | none => exact taken.trans (Frame.of_eq rfl)
          | some node => exact taken.trans (Frame.of_eq rfl)
      · exact Frame.of_eq rfl

theorem frame_sdioCtrl (inv : Inv s hand) (malloc : Bool) (cmd : Ctrl)
    (own : ∀ node, cmd = .pushFreeNode node → node ∈ s.held) :
    Holds (fun p => Frame s p.1) (sdioCtrl s malloc cmd) := by
  have busy := inv.busy
  cases cmd with
  | pushFreeNode node =>
    obtain ⟨s', freed, -, moved, -⟩ := moved_free (busy.giveBack (own node rfl))
    simp only [sdioCtrl, freed]
    have start : Frame s { Bk7251.Sdio.busy s with held := (Bk7251.Sdio.busy s).held.erase node } :=
      Frame.of_eq rfl
    exact (start.trans (Frame.of_moved moved)).trans (Frame.of_eq rfl)
  | getFreeNode size =>
    have start : Frame s (Bk7251.Sdio.busy s) := Frame.of_eq rfl
    exact (start.trans (Frame.of_moved (moved_alloc busy malloc size))).trans (Frame.of_eq rfl)
  | _ => exact Frame.of_eq rfl

end

/-! ### Completions -/

section

variable {blk512 : Bool} {s : SdioS}

theorem rest_nil {node : Nat} {rest list : List Nat} (one : list.length ≤ 1) (cons : list = node :: rest) :
    rest = [] := by
  rw [cons, List.length_cons] at one
  exact List.length_eq_zero_iff.mp (by omega)

/-- Nodes may leave their lists. -/
theorem Ready.of_lists {s' : SdioS} (ready : Ready blk512 s) (inv : Inv s' [])
    (rxing : s'.rxingList = s.rxingList ∨ s'.rxingList = [])
    (txing : s'.txingList = s.txingList ∨ s'.txingList = [])
    (same : ∀ node ∈ s'.rxingList ++ s'.txingList, Same s s' node)
    (tcLen : blk512 = true → s'.txingList = [] → s'.tcLen = 0) : Ready blk512 s' where
  inv := inv
  rxing node member := by
    have kept := same node (List.mem_append_left _ member)
    rcases rxing with stays | empty
    · exact (ready.rxing node (stays ▸ member)).congr kept
    · rw [empty] at member
      cases member
  rxOne := by
    rcases rxing with stays | empty
    · rw [stays]
      exact ready.rxOne
    · rw [empty]
      exact Nat.zero_le _
  txing node member := by
    rw [(same node (List.mem_append_right _ member)).snode]
    rcases txing with stays | empty
    · exact ready.txing node (stays ▸ member)
    · rw [empty] at member
      cases member
  txOne := by
    rcases txing with stays | empty
    · rw [stays]
      exact ready.txOne
    · rw [empty]
      exact Nat.zero_le _
  tcLen := tcLen

theorem Ready.congr {s' : SdioS} (ready : Ready blk512 s)
    (lists : (s'.heap, s'.snode, Inv.lists s') = (s.heap, s.snode, Inv.lists s))
    (tcLen : s'.tcLen = s.tcLen) : Ready blk512 s' := by
  have inv := ready.inv.congr lists
  simp only [Inv.lists, Prod.mk.injEq, List.cons.injEq, and_true] at lists
  obtain ⟨heap, snode, -, -, -, txing, rxing, -⟩ := lists
  exact (Frame.of_eq (by rw [heap, snode, rxing, txing, tcLen])).ready ready inv

theorem ready_sdioTxCb (ready : Ready blk512 s) : Holds (Ready blk512) (sdioTxCb blk512 s) := by
  unfold sdioTxCb
  split
  next none =>
    apply Holds.after_assert
    intro _
    exact ready.congr rfl rfl
  next node rest list =>
    obtain rfl := rest_nil ready.txOne list
    obtain ⟨popped, state⟩ : ∃ popped, popped = { s with
        txingList := []
        tHdlLen := s.tHdlLen + s.txTransactionLen
        tcLen := if blk512 then s.tcLen + s.txTransactionLen else s.tcLen } := ⟨_, rfl⟩
    have inv : Inv popped [node] := by
      rw [state]
      exact (ready.inv.popTxing list).congr rfl
    rw [← state, txDone]
    split
    next done =>
      obtain ⟨s', freed, inv', moved, -⟩ := moved_free inv
      have frame := Frame.of_moved moved
      simp only [freed]
      apply Holds.after_assert
      intro _
      have rxing : s'.rxingList = s.rxingList := by rw [frame.rxing, state]
      have txing : s'.txingList = [] := by rw [frame.txing, state]
      have same : ∀ node ∈ s'.rxingList ++ s'.txingList, Same s s' node := by
        intro other member
        rw [frame.rxing, frame.txing] at member
        exact (same_of_eq (by rw [state]) other).trans (frame.same other member)
      -- the count is cleared in the build that has it
      cases blk512 with
      | true =>
        have cleared : Ready true { s' with tcLen := 0 } :=
          ready.of_lists (inv'.congr rfl) (.inl rxing) (.inr txing)
            (fun other member => (same other member).trans ⟨rfl, rfl⟩) fun _ _ => rfl
        exact cleared
      | false => exact ready.of_lists inv' (.inl rxing) (.inr txing) same fun build => by cases build
    next more =>
      -- the frame is not complete, and its node is the one under way again
      have kept := inv.pushTxing
      rw [state] at kept ⊢
      refine ⟨kept, ready.rxing, ready.rxOne, ?_, Nat.le_refl _, ?_⟩
      · intro other member
        obtain rfl := List.mem_singleton.mp member
        exact ready.txing other (by rw [list]; exact List.mem_cons_self)
      · intro _ empty
        cases empty

theorem ready_sdioRxCb (ready : Ready blk512 s) (hdr : FrameHdr) :
    Holds (Ready blk512) (sdioRxCb blk512 s hdr) := by
  unfold sdioRxCb
  split
  next none =>
    apply Holds.after_assert
    intro _
    exact ready.congr rfl rfl
  next node rest list =>
    obtain rfl := rest_nil ready.rxOne list
    have fresh := ready.rxing node (by rw [list]; exact List.mem_cons_self)
    -- the node has left its list, and the rest of the state is of no account
    have away : ∀ popped : SdioS, Inv popped [node] → popped.rxingList = [] →
        popped.txingList = s.txingList → popped.tcLen = s.tcLen →
        (popped.heap, popped.snode) = (s.heap, s.snode) →
        Holds (Ready blk512) (rxDone popped node) ∧
        Holds (Ready blk512) (sdioFreeValidNode popped node) ∧
        Ready blk512 { popped with rxingList := popped.rxingList ++ [node] } := by
      intro popped inv rxing txing tcLen same
      refine ⟨?_, ?_, ?_⟩
      · apply Holds.after_assert
        intro _
        apply ready.of_lists inv.pushRx (.inr rxing) (.inl txing)
        · intro other _
          exact (same_of_eq same other).trans ⟨rfl, rfl⟩
        · intro build idle
          exact tcLen.trans (ready.tcLen build (txing.symm.trans idle))
      · obtain ⟨s', freed, inv', moved, -⟩ := moved_free inv
        have frame := Frame.of_moved moved
        rw [freed]
        apply ready.of_lists inv' (.inr (frame.rxing.trans rxing)) (.inl (frame.txing.trans txing))
        · intro other member
          rw [frame.rxing, frame.txing] at member
          exact (same_of_eq same other).trans (frame.same other member)
        · intro build idle
          rw [frame.tcLen, tcLen]
          exact ready.tcLen build (txing.symm.trans (frame.txing.symm.trans idle))
      · apply ready.of_lists inv.pushRxing (.inl ?_) (.inl txing)
        · intro other _
          exact (same_of_eq same other).trans ⟨rfl, rfl⟩
        · intro build idle
          exact tcLen.trans (ready.tcLen build (txing.symm.trans idle))
        · rw [rxing, list, List.nil_append]
    have popped := ready.inv.popRxing list
    simp only
    split
    · obtain ⟨done, released, pushed⟩ := away { s with
        rxingList := []
        rHdlLen := s.rHdlLen + s.rxTransactionLen
        rcLen := s.rcLen + s.rxTransactionLen
        rxSeq := hdr.seq } (popped.congr rfl) rfl rfl rfl rfl
      unfold rxBlock
      split
      · split
        · exact released.bind fun s' freed => freed.congr rfl rfl
        · exact done.bind fun s' queued => queued.congr rfl rfl
      · exact pushed
    · exact (away { s with rxingList := [], rHdlLen := s.rHdlLen + s.rxTransactionLen }
        (popped.congr rfl) rfl rfl rfl rfl).1

end

end Bk7251.Sdio
