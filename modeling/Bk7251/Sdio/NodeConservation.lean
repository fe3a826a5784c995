import Mathlib.Data.List.Range
import Bk7251.Sdio.Sdio

/-!
# Every node is in one place, with its buffer

A node is in one of the five lists or with a caller. The nodes outside the free list hold a live buffer
each, and every buffer was released at most once.
-/
namespace Bk7251.Sdio

open Lib

/-! ### What holds of a result unless an assertion stops it -/

def Holds {α : Type} (P : α → Prop) : Except Stop α → Prop
  | .ok a => P a
  | .error stop => stop = .assert

namespace Holds

variable {α β : Type} {P : α → Prop} {Q : β → Prop}

theorem bind {m : Except Stop α} {f : α → Except Stop β} (first : Holds P m)
    (next : ∀ a, P a → Holds Q (f a)) : Holds Q (m >>= f) := by
  cases m with
  | ok a => exact next a first
  | error stop => exact first

theorem after_assert {condition : Bool} {f : Unit → Except Stop β}
    (next : condition = true → Holds Q (f ())) : Holds Q (assert condition >>= f) := by
  cases condition with
  | true => exact next rfl
  | false => rfl

end Holds

/-! ### The places of the nodes -/

/-- The nodes that are not free. -/
def used (s : SdioS) : List Nat := s.txDat ++ s.rxDat ++ s.txingList ++ s.rxingList ++ s.held

def owner (s : SdioS) (node : Nat) : Option Nat := (s.snode node).origAddr

/-- The invariant while an operation has taken the nodes `hand` out of their lists. -/
structure Inv (s : SdioS) (hand : List Nat) : Prop where
  places : (s.freeNodes ++ (used s ++ hand)).Perm (List.range CELL_COUNT)
  owns : Heap.Owns s.heap (owner s) (used s ++ hand) s.freeNodes
  tx : s.txIn = s.txOut ++ s.txDat
  rx : s.rxIn = s.rxOut ++ s.rxDat

namespace Inv

variable {s s' : SdioS} {hand hand' : List Nat} {node : Nat}

theorem nodup (inv : Inv s hand) : (s.freeNodes ++ (used s ++ hand)).Nodup :=
  inv.places.nodup_iff.mpr List.nodup_range

/-- Nodes that only change lists take their buffers along. -/
theorem move (inv : Inv s hand) (free : s'.freeNodes = s.freeNodes) (heap : s'.heap = s.heap)
    (snode : ∀ n, (s'.snode n).origAddr = (s.snode n).origAddr)
    (moved : (used s' ++ hand').Perm (used s ++ hand)) (tx : s'.txIn = s'.txOut ++ s'.txDat)
    (rx : s'.rxIn = s'.rxOut ++ s'.rxDat) : Inv s' hand' where
  places := by
    rw [free]
    exact (moved.append_left _).trans inv.places
  owns := by
    have same : owner s' = owner s := funext snode
    rw [heap, free, same]
    exact inv.owns.perm moved (List.Perm.refl _)
  tx := tx
  rx := rx

/-- The fields that the invariant is about, apart from the heap and the nodes. -/
def lists (s : SdioS) : List (List Nat) :=
  [s.freeNodes, s.txDat, s.rxDat, s.txingList, s.rxingList, s.held, s.txIn, s.txOut, s.rxIn, s.rxOut]

/-- A change of other fields. -/
theorem congr (inv : Inv s hand) (same : (s'.heap, s'.snode, lists s') = (s.heap, s.snode, lists s)) :
    Inv s' hand := by
  simp only [lists, Prod.mk.injEq, List.cons.injEq, and_true] at same
  obtain ⟨heap, snode, free, txDat, rxDat, txing, rxing, held, txIn, txOut, rxIn, rxOut⟩ := same
  refine inv.move free heap (fun n => by rw [snode]) ?_ ?_ ?_
  · rw [used, used, txDat, rxDat, txing, rxing, held]
  · rw [txIn, txOut, txDat]
    exact inv.tx
  · rw [rxIn, rxOut, rxDat]
    exact inv.rx

theorem owner_update (s : SdioS) (node : Nat) (x : SdioNode) :
    (fun n => (Function.update s.snode node x n).origAddr) =
      Function.update (owner s) node x.origAddr := by
  funext n
  simp only [Function.update_apply, owner]
  split <;> rfl

/-- Nothing to hand out, no memory for a buffer, or a node with a new buffer. -/
theorem alloc_cases (s : SdioS) (malloc : Bool) (size : UInt32) :
    sdioAllocValidNode s malloc size = (s, none) ∨
    (∃ node rest, s.freeNodes = node :: rest ∧
      sdioAllocValidNode s malloc size = ({ s with freeNodes := rest ++ [node] }, none)) ∨
    ∃ node rest total, s.freeNodes = node :: rest ∧
      sdioAllocValidNode s malloc size =
        ({ s with
            freeNodes := rest
            heap := s.heap.alloc total
            snode := Function.update s.snode node
              ⟨some s.heap.next, some ⟨s.heap.next, CFG_MSDU_RESV_HEAD_LEN⟩, size⟩ }, some node) := by
  unfold sdioAllocValidNode
  split
  · exact .inl rfl
  · cases free : s.freeNodes with
    | nil => exact .inl rfl
    | cons node rest =>
      cases malloc with
      | true => exact .inr (.inr ⟨node, rest, _, rfl, rfl⟩)
      | false => exact .inr (.inl ⟨node, rest, rfl, rfl⟩)

theorem alloc (inv : Inv s hand) (malloc : Bool) (size : UInt32) :
    Inv (sdioAllocValidNode s malloc size).1 ((sdioAllocValidNode s malloc size).2.toList ++ hand) := by
  obtain made | ⟨node, rest, free, made⟩ | ⟨node, rest, total, free, made⟩ := alloc_cases s malloc size
  · rw [made]
    exact inv
  · rw [made]
    -- without memory the node goes behind the other free ones
    have rotated : (rest ++ [node]).Perm s.freeNodes := by
      rw [free]
      exact List.perm_append_singleton node rest
    exact ⟨(rotated.append_right _).trans inv.places, inv.owns.perm (List.Perm.refl _) rotated, inv.tx,
      inv.rx⟩
  · rw [made]
    have distinct := inv.nodup
    have owns := inv.owns
    rw [free] at owns distinct
    rw [List.cons_append, List.nodup_cons, List.mem_append, not_or] at distinct
    have taken := owns.alloc distinct.1.2 distinct.1.1 total
    refine ⟨?_, ?_, inv.tx, inv.rx⟩
    · refine List.Perm.trans ?_ inv.places
      rw [free]
      refine List.perm_iff_count.mpr fun a => ?_
      simp only [used, Option.toList_some, List.count_append, List.count_cons, List.count_nil]
      omega
    · have same := owner_update s node
        ⟨some s.heap.next, some ⟨s.heap.next, CFG_MSDU_RESV_HEAD_LEN⟩, size⟩
      rw [← same] at taken
      exact taken.perm List.perm_middle (List.Perm.refl _)

/-- A node in hand gives its buffer back and is free. -/
theorem free (inv : Inv s (node :: hand)) :
    Holds (fun s' => Inv s' hand) (sdioFreeValidNode s node) := by
  have distinct := inv.nodup
  -- the node is nowhere else, so its owner field is the only one for the block
  have once : node ∉ used s ++ hand := by
    have to_front : (used s ++ node :: hand).Perm (node :: (used s ++ hand)) := List.perm_middle
    have middle := to_front.append_left s.freeNodes
    have inner := (List.nodup_append.mp (middle.nodup_iff.mp distinct)).2.1
    exact (List.nodup_cons.mp inner).1
  obtain ⟨block, heap, holds, freed, owns⟩ :=
    (inv.owns.perm List.perm_middle.symm (List.Perm.refl _)).free once
  have released : osFree s.heap (s.snode node).origAddr = .ok heap := by
    have at_block : (s.snode node).origAddr = some block := holds
    simp only [at_block, osFree, freed]
  simp only [sdioFreeValidNode, released]
  refine ⟨?_, ?_, inv.tx, inv.rx⟩
  · refine List.Perm.trans ?_ inv.places
    refine List.perm_iff_count.mpr fun a => ?_
    simp only [used, List.count_append, List.count_cons, List.count_nil]
    omega
  · have same := owner_update s node ⟨none, none, 0⟩
    rw [← same] at owns
    exact owns.perm (List.Perm.refl _) (List.perm_append_singleton node s.freeNodes)

/-! ### Pushes and pops -/

/-- Nodes that only change lists, counted. -/
theorem relist (inv : Inv s hand) {txDat rxDat txingList rxingList held txIn txOut rxIn rxOut : List Nat}
    (same : ∀ a, txDat.count a + rxDat.count a + txingList.count a + rxingList.count a + held.count a +
        hand'.count a =
      s.txDat.count a + s.rxDat.count a + s.txingList.count a + s.rxingList.count a + s.held.count a +
        hand.count a)
    (tx : txIn = txOut ++ txDat) (rx : rxIn = rxOut ++ rxDat) :
    Inv { s with txDat, rxDat, txingList, rxingList, held, txIn, txOut, rxIn, rxOut } hand' := by
  refine inv.move rfl rfl (fun _ => rfl) (List.perm_iff_count.mpr fun a => ?_) tx rx
  simp only [used, List.count_append]
  exact same a

theorem pushTx (inv : Inv s (node :: hand)) :
    Inv { s with txDat := s.txDat ++ [node], txIn := s.txIn ++ [node] } hand := by
  refine inv.relist (fun a => ?_) ?_ inv.rx
  · simp only [List.count_append, List.count_cons, List.count_nil]
    omega
  · rw [inv.tx, List.append_assoc]

theorem pushRx (inv : Inv s (node :: hand)) :
    Inv { s with rxDat := s.rxDat ++ [node], rxIn := s.rxIn ++ [node] } hand := by
  refine inv.relist (fun a => ?_) inv.tx ?_
  · simp only [List.count_append, List.count_cons, List.count_nil]
    omega
  · rw [inv.rx, List.append_assoc]

theorem pushTxing (inv : Inv s (node :: hand)) :
    Inv { s with txingList := s.txingList ++ [node] } hand := by
  refine inv.relist (fun a => ?_) inv.tx inv.rx
  simp only [List.count_append, List.count_cons, List.count_nil]
  omega

theorem pushRxing (inv : Inv s (node :: hand)) :
    Inv { s with rxingList := s.rxingList ++ [node] } hand := by
  refine inv.relist (fun a => ?_) inv.tx inv.rx
  simp only [List.count_append, List.count_cons, List.count_nil]
  omega

theorem hold (inv : Inv s (node :: hand)) : Inv { s with held := s.held ++ [node] } hand := by
  refine inv.relist (fun a => ?_) inv.tx inv.rx
  simp only [List.count_append, List.count_cons, List.count_nil]
  omega

theorem popTx (inv : Inv s hand) {rest : List Nat} (list : s.txDat = node :: rest) :
    Inv { s with txDat := rest, txOut := s.txOut ++ [node] } (node :: hand) := by
  refine inv.relist (fun a => ?_) ?_ inv.rx
  · simp only [list, List.count_cons]
    omega
  · rw [inv.tx, list, List.append_assoc, List.singleton_append]

theorem popRx (inv : Inv s hand) {rest : List Nat} (list : s.rxDat = node :: rest) :
    Inv { s with rxDat := rest, rxOut := s.rxOut ++ [node] } (node :: hand) := by
  refine inv.relist (fun a => ?_) inv.tx ?_
  · simp only [list, List.count_cons]
    omega
  · rw [inv.rx, list, List.append_assoc, List.singleton_append]

theorem popTxing (inv : Inv s hand) {rest : List Nat} (list : s.txingList = node :: rest) :
    Inv { s with txingList := rest } (node :: hand) := by
  refine inv.relist (fun a => ?_) inv.tx inv.rx
  simp only [list, List.count_cons]
  omega

theorem popRxing (inv : Inv s hand) {rest : List Nat} (list : s.rxingList = node :: rest) :
    Inv { s with rxingList := rest } (node :: hand) := by
  refine inv.relist (fun a => ?_) inv.tx inv.rx
  simp only [list, List.count_cons]
  omega

theorem giveBack (inv : Inv s hand) (member : node ∈ s.held) :
    Inv { s with held := s.held.erase node } (node :: hand) := by
  refine inv.relist (fun a => ?_) inv.tx inv.rx
  have split := (List.perm_cons_erase member).count_eq a
  rw [List.count_cons] at split
  simp only [List.count_cons]
  omega

end Inv

/-! ### Host commands and completions -/

section

variable {s : SdioS} {hand : List Nat}

theorem holds_sdmaDmaStart (inv : Inv s hand) (addr : Option Addr) (off len : UInt32) :
    Holds (fun s' => Inv s' hand) (sdmaDmaStart s addr off len) :=
  .after_assert fun _ => .after_assert fun _ => inv.congr rfl

theorem inv_rxingNode (inv : Inv s hand) (blk512 malloc : Bool) (cmd : SdioDcmd) :
    Inv (rxingNode blk512 s malloc cmd).1 ((rxingNode blk512 s malloc cmd).2.toList ++ hand) := by
  unfold rxingNode
  split
  · next node rest list => exact inv.popRxing list
  · exact inv.alloc _ _

theorem holds_replaceNode {node : Option Nat} (inv : Inv s (node.toList ++ hand)) (malloc : Bool)
    (cmd : SdioDcmd) :
    Holds (fun p => Inv p.1 (p.2.toList ++ hand)) (replaceNode s malloc cmd node) := by
  cases node with
  | none => exact inv
  | some node =>
    refine Holds.bind inv.free fun s inv => ?_
    exact (inv.alloc malloc (mSize cmd.totalSize)).congr rfl

theorem holds_wrNode (inv : Inv s hand) (blk512 malloc : Bool) (cmd : SdioDcmd) :
    Holds (fun p => Inv p.1 (p.2.toList ++ hand)) (wrNode blk512 s malloc cmd) := by
  have node := inv_rxingNode inv blk512 malloc cmd
  simp only [wrNode]
  split
  · exact holds_replaceNode node malloc cmd
  · exact node

theorem inv_wrMarks (inv : Inv s hand) (blk512 : Bool) (cmd : SdioDcmd) :
    Inv (wrMarks blk512 s cmd) hand := by
  simp only [wrMarks]
  repeat' split
  all_goals exact inv.congr rfl

theorem holds_wrStart {node : Option Nat} (inv : Inv s (node.toList ++ hand)) (blk512 : Bool)
    (cmd : SdioDcmd) : Holds (fun s' => Inv s' hand) (wrStart blk512 s cmd node) := by
  cases node with
  | none => exact Inv.congr inv rfl
  | some node =>
    have taken : Inv s (node :: hand) := inv
    exact holds_sdmaDmaStart (by exact taken.pushRxing.congr rfl) _ _ _

theorem holds_wrDtcm (inv : Inv s hand) (blk512 malloc : Bool) (cmd : SdioDcmd) :
    Holds (fun s' => Inv s' hand) (wrDtcm blk512 s malloc cmd) := by
  have lengths : Inv (wrLengths blk512 s cmd) hand := by
    unfold wrLengths
    split <;> exact inv.congr rfl
  refine Holds.after_assert fun _ => ?_
  refine Holds.bind (holds_wrNode lengths blk512 malloc cmd) fun p node => ?_
  exact holds_wrStart (inv_wrMarks node blk512 cmd) blk512 cmd

theorem inv_txingNode (inv : Inv s hand) : Inv (txingNode s).1 ((txingNode s).2.toList ++ hand) := by
  unfold txingNode
  split
  · next node rest list => exact inv.popTxing list
  · split
    · next node rest list => exact inv.popTx list
    · exact inv

theorem holds_rdStart {node : Option Nat} (inv : Inv s (node.toList ++ hand)) (blk512 first : Bool) :
    Holds (fun s' => Inv s' hand) (rdStart blk512 s first node) := by
  cases node with
  | none => exact Inv.congr inv rfl
  | some node =>
    have taken : Inv s (node :: hand) := inv
    refine Holds.after_assert fun _ => ?_
    refine holds_sdmaDmaStart ?_ _ _ _
    split <;> exact taken.pushTxing.congr rfl

theorem holds_rdDtcm (inv : Inv s hand) (blk512 : Bool) (cmd : SdioDcmd) :
    Holds (fun s' => Inv s' hand) (rdDtcm blk512 s cmd) := by
  refine Holds.after_assert fun _ => Holds.after_assert fun _ => ?_
  exact holds_rdStart (inv_txingNode (by exact inv.congr rfl)) _ _

theorem holds_txDone {node : Nat} (inv : Inv s (node :: hand)) (blk512 : Bool) :
    Holds (fun s' => Inv s' hand) (txDone blk512 s node) := by
  unfold txDone
  split
  · refine Holds.bind inv.free fun s' freed => Holds.after_assert fun _ => ?_
    split <;> exact freed.congr rfl
  · exact inv.pushTxing

theorem holds_sdioTxCb (inv : Inv s hand) (blk512 : Bool) :
    Holds (fun s' => Inv s' hand) (sdioTxCb blk512 s) := by
  unfold sdioTxCb
  split
  · exact Holds.after_assert fun _ => inv.congr rfl
  · next node rest list => exact holds_txDone (by exact (inv.popTxing list).congr rfl) blk512

theorem holds_rxDone {node : Nat} (inv : Inv s (node :: hand)) :
    Holds (fun s' => Inv s' hand) (rxDone s node) :=
  .after_assert fun _ => inv.pushRx

theorem holds_rxBlock {node : Nat} (inv : Inv s (node :: hand)) (hdr : FrameHdr) :
    Holds (fun s' => Inv s' hand) (rxBlock s node hdr) := by
  unfold rxBlock
  split
  · split
    · exact Holds.bind inv.free fun s' freed => freed.congr rfl
    · exact Holds.bind (holds_rxDone inv) fun s' done => done.congr rfl
  · exact inv.pushRxing

theorem holds_sdioRxCb (inv : Inv s hand) (blk512 : Bool) (hdr : FrameHdr) :
    Holds (fun s' => Inv s' hand) (sdioRxCb blk512 s hdr) := by
  unfold sdioRxCb
  split
  · exact Holds.after_assert fun _ => inv.congr rfl
  · next node rest list =>
    have popped := inv.popRxing list
    simp only
    split
    · exact holds_rxBlock (by exact popped.congr rfl) hdr
    · exact holds_rxDone (by exact popped.congr rfl)

/-! ### The device calls -/

theorem Inv.busy (inv : Inv s hand) : Inv (busy s) hand := inv.congr rfl

theorem Inv.idle (inv : Inv s hand) : Inv (idle s) hand := inv.congr rfl

theorem holds_readNode {node : Nat} (inv : Inv s (node :: hand)) :
    Holds (fun p => Inv p.1 hand) (readNode s node) :=
  Holds.bind inv.free fun _ freed => freed.idle

theorem holds_sdioRead (inv : Inv s hand) (userBuf : Bool) (count opFlag : UInt32) :
    Holds (fun p => Inv p.1 hand) (sdioRead s userBuf count opFlag) := by
  have busy := inv.busy
  unfold sdioRead
  simp only
  split
  · split
    · exact busy
    · split
      · next node rest list => exact holds_readNode (busy.popTx list)
      · exact busy.idle
  · split
    · split
      · exact busy
      · split
        · next node rest list => exact holds_readNode (busy.popRx list)
        · exact busy.idle
    · split
      · split
        · next node rest list => exact (busy.popRx list).hold.idle
        · exact busy.idle
      · exact busy.idle

/-- A caller's own node goes to the transmit queue. -/
theorem inv_sdioWrite (inv : Inv s hand) (malloc : Bool) (userBuf : Option Nat) (count opFlag : UInt32)
    (own : opFlag = S2H_WR_SPECIAL → ∀ node ∈ userBuf, node ∈ s.held) :
    Inv (sdioWrite s malloc userBuf count opFlag).1 hand := by
  have busy := inv.busy
  have node := busy.alloc malloc count
  unfold sdioWrite
  simp only
  split
  · split
    · exact busy
    · split
      · next s' n made =>
        rw [made] at node
        exact (Inv.pushTx node).congr rfl
      · next s' made =>
        rw [made] at node
        exact Inv.idle node
  · split
    · next special =>
      split
      · next n =>
        split
        · exact busy
        · have given := busy.giveBack (own special n rfl)
          exact given.pushTx.congr rfl
      · exact busy
    · split
      · split
        · exact busy
        · split
          · next s' n made =>
            rw [made] at node
            exact (Inv.pushRx node).congr rfl
          · next s' made =>
            rw [made] at node
            exact Inv.idle node
      · exact busy.idle

theorem holds_sdioCtrl (inv : Inv s hand) (malloc : Bool) (cmd : Ctrl)
    (own : ∀ node, cmd = .pushFreeNode node → node ∈ s.held) :
    Holds (fun p => Inv p.1 hand) (sdioCtrl s malloc cmd) := by
  have busy := inv.busy
  cases cmd with
  | pushFreeNode node =>
    exact Holds.bind (busy.giveBack (own node rfl)).free fun _ freed => freed.idle
  | getFreeNode size =>
    have made := busy.alloc malloc size
    simp only [sdioCtrl]
    generalize sdioAllocValidNode (Bk7251.Sdio.busy s) malloc size = p at made ⊢
    obtain ⟨s', node⟩ := p
    cases node with
    | none => exact (Inv.idle made).congr (by simp [Inv.lists, Bk7251.Sdio.idle])
    | some node => exact (Inv.hold made).idle
  | _ => exact busy.congr rfl

/-! ### Runs -/

theorem Holds.map_fst {β : Type} {P : SdioS → Prop} {m : Except Stop (SdioS × β)}
    (first : Holds (fun p => P p.1) m) : Holds P (m.map Prod.fst) := by
  cases m with
  | ok p => exact first
  | error stop => exact first

theorem holds_step (inv : Inv s []) (blk512 : Bool) (e : Event) :
    Holds (fun s' => Inv s' []) (step blk512 s e) := by
  unfold step
  split
  · next own =>
    cases e with
    | wrDtcm malloc cmd => exact holds_wrDtcm inv blk512 malloc cmd
    | rdDtcm cmd => exact holds_rdDtcm inv blk512 cmd
    | txCb => exact holds_sdioTxCb inv blk512
    | rxCb hdr => exact holds_sdioRxCb inv blk512 hdr
    | read userBuf count opFlag => exact (holds_sdioRead inv userBuf count opFlag).map_fst
    | write malloc userBuf count opFlag =>
      -- the node passed in is one of the caller's own
      refine inv_sdioWrite inv malloc userBuf count opFlag fun special node member => own node ?_
      rw [Event.node?, if_pos special]
      exact member
    | ctrl malloc cmd =>
      refine (holds_sdioCtrl inv malloc cmd fun node push => own node ?_).map_fst
      rw [push]
      exact rfl
    | edit node addr length =>
      -- the caller does not touch the pointer that the buffer is freed by
      have pointer (n : Nat) : (Function.update s.snode node { s.snode node with addr, length } n).origAddr =
          (s.snode n).origAddr := by
        rw [Function.update_apply]
        split
        · next same => rw [same]
        · rfl
      exact inv.move rfl rfl pointer (List.Perm.refl _) inv.tx inv.rx
  · exact inv

theorem inv_sdioInit : Inv sdioInit [] := by
  refine ⟨?_, Heap.Owns.start _, rfl, rfl⟩
  simp only [sdioInit, used, List.append_nil]
  exact List.Perm.refl _

theorem holds_run (blk512 : Bool) (events : List Event) :
    Holds (fun s => Inv s []) (run blk512 events) := by
  have initial := inv_sdioInit
  rw [run]
  generalize sdioInit = s at initial ⊢
  induction events generalizing s with
  | nil => exact initial
  | cons e events ih => exact Holds.bind (holds_step initial blk512 e) fun s inv => ih _ inv

end

/-- Every node is in one of the lists or with a caller; those that are not free have a live buffer each,
the free ones none, and every other buffer was released; both data queues are first in, first out. -/
structure Conserved (s : SdioS) : Prop where
  places : (s.freeNodes ++ s.txDat ++ s.rxDat ++ s.txingList ++ s.rxingList ++ s.held).Perm
    (List.range CELL_COUNT)
  free : ∀ node ∈ s.freeNodes, (s.snode node).origAddr = none
  live : ∀ node ∈ used s, ∃ block, (s.snode node).origAddr = some block ∧ (s.heap.get? block).isSome
  own : ∀ node ∈ used s, ∀ other ∈ used s,
    (s.snode node).origAddr = (s.snode other).origAddr → node = other
  released : ∀ block, block < s.heap.next →
    (∃ node ∈ used s, (s.snode node).origAddr = some block) ∨ s.heap.cell block = .freed
  txOrder : s.txIn = s.txOut ++ s.txDat
  rxOrder : s.rxIn = s.rxOut ++ s.rxDat

theorem Inv.conserved {s : SdioS} (inv : Inv s []) : Conserved s := by
  have owns := inv.owns
  have places := inv.places
  rw [List.append_nil] at owns places
  refine ⟨?_, owns.idle, owns.live, owns.apart, fun block below => ?_, inv.tx, inv.rx⟩
  · simpa only [used, List.append_assoc] using places
  · by_cases gone : s.heap.get? block = none
    · exact .inr (owns.released block below gone)
    · exact .inl (owns.held block (Option.isSome_iff_ne_none.mpr gone))

/-- Whatever the host commands, completions and calls, in either build: unless an assertion has stopped
the firmware, nodes and buffers are conserved, and no buffer is ever released twice. -/
theorem sdio_nodes_conserved (blk512 : Bool) (events : List Event) :
    (∀ s, run blk512 events = .ok s → Conserved s) ∧ run blk512 events ≠ .error .badFree := by
  have held := holds_run blk512 events
  constructor
  · intro s reached
    rw [reached] at held
    exact Inv.conserved held
  · intro stopped
    rw [stopped] at held
    exact absurd held (by simp [Holds])

/-- A frame of eight bytes is queued, sent and released. -/
example : (run false [.write true (some 0) 8 S2H_WR_SYNC, .rdDtcm ⟨8, 0, 0, 0⟩, .txCb]).toOption.map
    (fun s => (s.freeNodes.length, s.txOut, s.heap.next)) = some (64, [0], 1) := rfl

end Bk7251.Sdio
