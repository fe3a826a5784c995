import Bk7251.Sdio.Commands
import Bk7251.Sdio.Underway

/-!
# The transfers that a command starts

What `OPC_WR_DTCM` and `OPC_RD_DTCM` hand to the DMA: the node, and the range of its buffer.
-/
namespace Bk7251.Sdio

open Lib

section

variable {blk512 : Bool} {s : SdioS}

/-! ### Commands to write -/

theorem mSize_le (totalSize : UInt16) : (mSize totalSize).toNat ≤ 65535 ∧ mSize totalSize ≠ 0 := by
  unfold mSize
  split
  · decide
  split
  · decide
  split <;> decide

/-- The buffer for a new frame. -/
def newSize (blk512 : Bool) (cmd : SdioDcmd) : UInt32 :=
  if blk512 then mSize cmd.totalSize else cmd.dataLen.toUInt32

theorem newSize_le (blk512 : Bool) (cmd : SdioDcmd) : (newSize blk512 cmd).toNat ≤ 65535 := by
  unfold newSize
  split
  · exact (mSize_le _).1
  · rw [UInt16.toNat_toUInt32]
    exact Nat.le_of_lt_succ cmd.dataLen.toNat_lt

/-- What `wrNode` hands on: no node, or one with the buffer that `rxRoom` says. -/
structure Taken (blk512 : Bool) (s : SdioS) (malloc : Bool) (cmd : SdioDcmd) (s' : SdioS)
    (found : Option Nat) : Prop where
  inv : Inv s' found.toList
  rxing : s'.rxingList = []
  txing : s'.txingList = s.txingList
  counts : (s'.tcLen, s'.rxLen, s'.rHdlLen, s'.dma) = (s.tcLen, s.rxLen, s.rHdlLen, s.dma)
  same : ∀ node ∈ s.txingList, Same s s' node
  none : found = none → rxRoom blk512 s malloc cmd = none
  some : ∀ node, found = some node → rxRoom blk512 s malloc cmd = some (s'.snode node).length ∧ Fresh s' node

theorem Taken.stays {malloc : Bool} {cmd : SdioDcmd} {s' : SdioS} {found : Option Nat}
    (taken : Taken blk512 s malloc cmd s' found) :
    s'.tcLen = s.tcLen ∧ s'.rxLen = s.rxLen ∧ s'.rHdlLen = s.rHdlLen ∧ s'.dma = s.dma := by
  have counts := taken.counts
  simpa only [Prod.mk.injEq] using counts

/-- The allocation of a node in a state that a step has led to which moves nodes only. -/
theorem taken_of_alloc {u : SdioS} {size : UInt32} (malloc : Bool) (cmd : SdioDcmd) (inv : Inv u [])
    (rxing : u.rxingList = []) (txing : u.txingList = s.txingList)
    (counts : (u.tcLen, u.rxLen, u.rHdlLen, u.dma) = (s.tcLen, s.rxLen, s.rHdlLen, s.dma))
    (same : ∀ node ∈ s.txingList, Same s u node) (small : size.toNat ≤ 65535)
    (room : rxRoom blk512 s malloc cmd = if malloc ∧ u.freeNodes ≠ [] ∧ size ≠ 0 then some size else none) :
    Taken blk512 s malloc cmd (sdioAllocValidNode u malloc size).1 (sdioAllocValidNode u malloc size).2 := by
  have inv' := inv.alloc malloc size
  have moved := moved_alloc inv malloc size
  have found := alloc_some_iff u malloc size
  obtain ⟨p, made⟩ : ∃ p, p = sdioAllocValidNode u malloc size := ⟨_, rfl⟩
  rw [← made] at inv' moved found ⊢
  constructor
  · rwa [List.append_nil] at inv'
  · rw [moved.fields, rxing]
  · rw [moved.fields, txing]
  · rw [moved.fields, counts]
  · intro node member
    apply (same node member).trans
    apply moved.same
    simp [used, txing, member]
  · intro nothing
    rw [room, if_neg]
    rw [← found, nothing]
    exact Bool.noConfusion
  · intro node at_node
    have fresh := fresh_alloc small (made.symm.trans (Prod.ext rfl at_node))
    rw [at_node] at found
    rw [room, if_pos (found.mp rfl), fresh.2]
    exact ⟨rfl, fresh.1⟩

theorem taken_alloc (ready : Ready blk512 s) (malloc : Bool) (cmd : SdioDcmd) (empty : s.rxingList = []) :
    Taken blk512 s malloc cmd (sdioAllocValidNode s malloc (newSize blk512 cmd)).1
      (sdioAllocValidNode s malloc (newSize blk512 cmd)).2 := by
  have room : rxRoom blk512 s malloc cmd =
      if malloc ∧ s.freeNodes ≠ [] ∧ newSize blk512 cmd ≠ 0 then some (newSize blk512 cmd) else none := by
    rw [rxRoom, empty]
    rfl
  exact taken_of_alloc malloc cmd ready.inv empty rfl rfl (fun node _ => Same.refl s node)
    (newSize_le blk512 cmd) room

/-- The frame under way is given up for another one, whose node can be the one that was just freed. -/
theorem taken_replace (ready : Ready blk512 s) (malloc : Bool) (cmd : SdioDcmd) {node : Nat}
    (list : s.rxingList = [node]) (other : blk512 = true ∧ s.rxSeq ≠ cmd.seq) :
    ∃ s' found, replaceNode { s with rxingList := [] } malloc cmd (some node) = .ok (s', found) ∧
      Taken blk512 s malloc cmd s' found := by
  obtain ⟨freed, released, inv, moved, free⟩ := moved_free (ready.inv.popRxing list)
  have nonempty : freed.freeNodes ≠ [] := by
    rw [free]
    simp
  have room : rxRoom blk512 s malloc cmd =
      if malloc ∧ freed.freeNodes ≠ [] ∧ mSize cmd.totalSize ≠ 0 then some (mSize cmd.totalSize)
      else none := by
    have always : (malloc = true ∧ freed.freeNodes ≠ [] ∧ mSize cmd.totalSize ≠ 0) ↔ malloc = true :=
      ⟨fun all => all.1, fun memory => ⟨memory, nonempty, (mSize_le _).2⟩⟩
    rw [rxRoom, list]
    simp only [always]
    rw [if_pos other]
  have same : ∀ other ∈ s.txingList, Same s freed other := by
    intro other member
    have kept := moved.same other (by simp [used, member])
    exact ⟨kept.snode, kept.block⟩
  have taken : Taken blk512 s malloc cmd (sdioAllocValidNode freed malloc (mSize cmd.totalSize)).1
      (sdioAllocValidNode freed malloc (mSize cmd.totalSize)).2 := by
    apply taken_of_alloc malloc cmd inv _ _ _ same (mSize_le cmd.totalSize).1 room
    · rw [moved.fields]
    · rw [moved.fields]
    · rw [moved.fields]
  have result : replaceNode { s with rxingList := [] } malloc cmd (some node) =
      .ok ({ (sdioAllocValidNode freed malloc (mSize cmd.totalSize)).1 with rxSeq := cmd.seq },
        (sdioAllocValidNode freed malloc (mSize cmd.totalSize)).2) := by
    rw [replaceNode, released]
    rfl
  refine ⟨_, _, result, taken.inv.congr rfl, taken.rxing, taken.txing, taken.counts, ?_, taken.none, ?_⟩
  · intro other member
    exact (taken.same other member).trans ⟨rfl, rfl⟩
  · intro node found
    obtain ⟨holds, fresh⟩ := taken.some node found
    exact ⟨holds, fresh.congr ⟨rfl, rfl⟩⟩

theorem wrNode_taken (ready : Ready blk512 s) (malloc : Bool) (cmd : SdioDcmd) :
    ∃ s' found, wrNode blk512 s malloc cmd = .ok (s', found) ∧ Taken blk512 s malloc cmd s' found := by
  cases list : s.rxingList with
  | nil =>
    have result : wrNode blk512 s malloc cmd = .ok (sdioAllocValidNode s malloc (newSize blk512 cmd)) := by
      simp only [wrNode, rxingNode, list, List.length_nil]
      rw [if_neg (by simp)]
      rfl
    exact ⟨_, _, result, taken_alloc ready malloc cmd list⟩
  | cons node rest =>
    obtain rfl := rest_nil ready.rxOne list
    by_cases other : blk512 = true ∧ s.rxSeq ≠ cmd.seq
    · obtain ⟨s', found, replaced, taken⟩ := taken_replace ready malloc cmd list other
      refine ⟨s', found, ?_, taken⟩
      simp only [wrNode, rxingNode, list]
      rw [if_pos ⟨other.1, other.2, by simp⟩, replaced]
    · -- the frame under way continues
      have fresh := ready.rxing node (by rw [list]; exact List.mem_cons_self)
      have result : wrNode blk512 s malloc cmd = .ok ({ s with rxingList := [] }, some node) := by
        simp only [wrNode, rxingNode, list]
        rw [if_neg (fun all => other ⟨all.1, all.2.1⟩)]
      have room : rxRoom blk512 s malloc cmd = some (s.snode node).length := by
        simp only [rxRoom, list]
        rw [if_neg other]
      refine ⟨_, _, result, ready.inv.popRxing list, rfl, rfl, rfl, fun other _ => ⟨rfl, rfl⟩, ?_, ?_⟩
      · intro nothing
        cases nothing
      · intro n found
        cases found
        exact ⟨room, fresh.congr ⟨rfl, rfl⟩⟩

/-- The offset and the length of the transfer of a command to write. -/
def wrRange (blk512 : Bool) (cmd : SdioDcmd) : UInt32 × UInt32 :=
  if blk512 then (cmd.startLen.toUInt32, cmd.dataLen.toUInt32)
  else (0, min32 BLOCK_LEN cmd.dataLen.toUInt32)

theorem wrRange_zero (blk512 : Bool) (cmd : SdioDcmd) : (wrRange blk512 cmd).2 = 0 ↔ cmd.dataLen = 0 := by
  have length : cmd.dataLen = 0 ↔ cmd.dataLen.toNat = 0 := by
    rw [← UInt16.toNat_inj]
    rfl
  have block : BLOCK_LEN.toNat = 4096 := rfl
  rw [length, ← UInt32.toNat_inj, UInt32.toNat_zero]
  unfold wrRange
  split
  · rw [UInt16.toNat_toUInt32]
  · rw [toNat_min32, UInt16.toNat_toUInt32]
    omega

theorem sdmaDmaStart_zero (s : SdioS) (addr : Option Addr) (off : UInt32) :
    sdmaDmaStart s addr off 0 = .error .assert := rfl

theorem sdmaDmaStart_some (s : SdioS) (a : Addr) (off : UInt32) {len : UInt32} (nonzero : len ≠ 0) :
    sdmaDmaStart s (some a) off len = .ok { s with dma := some ⟨some a, off, len⟩ } := by
  simp [sdmaDmaStart, assert, nonzero]
  rfl

theorem wrMarks_eq (blk512 : Bool) (s : SdioS) (cmd : SdioDcmd) :
    ∃ daHdErr rcLen rHdlLen, wrMarks blk512 s cmd = { s with daHdErr, rcLen, rHdlLen } ∧
      (if blk512 then rcLen = cmd.startLen.toUInt32 else rHdlLen = s.rHdlLen) := by
  cases blk512 with
  | false => exact ⟨s.daHdErr, s.rcLen, s.rHdlLen, by simp [wrMarks], rfl⟩
  | true =>
    simp only [wrMarks, true_and, if_true]
    split <;> split
    · exact ⟨_, _, _, rfl, rfl⟩
    next same => exact ⟨_, s.rcLen, s.rHdlLen, rfl, not_not.mp same⟩
    · exact ⟨s.daHdErr, _, _, rfl, rfl⟩
    next same => exact ⟨s.daHdErr, s.rcLen, s.rHdlLen, rfl, not_not.mp same⟩

/-- A command to write gets its node first, and then starts the transfer of the range that it names. -/
theorem wrDtcm_eq (ready : Ready blk512 s) (malloc : Bool) (cmd : SdioDcmd) :
    ∃ taken found daHdErr rcLen rHdlLen,
      Taken blk512 (wrLengths blk512 s cmd) malloc cmd taken found ∧
      wrDtcm blk512 s malloc cmd = wrStart blk512 { taken with daHdErr, rcLen, rHdlLen } cmd found ∧
      (if blk512 then rcLen else 0,
        if blk512 then cmd.dataLen.toUInt32 else min32 BLOCK_LEN (taken.rxLen - rHdlLen)) =
          wrRange blk512 cmd := by
  have announced : Ready blk512 (wrLengths blk512 s cmd) := by
    unfold wrLengths
    split <;> exact ready.congr rfl rfl
  obtain ⟨taken, found, result, facts⟩ := wrNode_taken announced malloc cmd
  obtain ⟨daHdErr, rcLen, rHdlLen, marks, offset⟩ := wrMarks_eq blk512 taken cmd
  have passes : assert (!blk512 || (wrLengths blk512 s cmd).rxingList.length < 2) = .ok () := by
    have one := announced.rxOne
    rw [assert, if_pos]
    simp only [Bool.or_eq_true, decide_eq_true_eq]
    exact .inr (by omega)
  refine ⟨taken, found, daHdErr, rcLen, rHdlLen, facts, ?_, ?_⟩
  · simp only [wrDtcm, passes, result]
    rw [← marks]
    rfl
  · obtain ⟨-, rxLen, rHdlLen₀, -⟩ := facts.stays
    cases blk512 with
    | true =>
      simp only [if_true] at offset ⊢
      rw [offset]
      rfl
    | false =>
      -- the build without blocks starts each frame anew
      have whole : (wrLengths false s cmd).rxLen - (wrLengths false s cmd).rHdlLen = cmd.dataLen.toUInt32 :=
        UInt32.sub_zero _
      simp only [Bool.false_eq_true, if_false] at offset ⊢
      rw [rxLen, offset, rHdlLen₀, whole]
      rfl

theorem wrStart_some (s : SdioS) (cmd : SdioDcmd) (node : Nat) {a : Addr} (addr : (s.snode node).addr = some a)
    (empty : s.rxingList = [])
    (range : (if blk512 then s.rcLen else 0,
      if blk512 then cmd.dataLen.toUInt32 else min32 BLOCK_LEN (s.rxLen - s.rHdlLen)) = wrRange blk512 cmd) :
    wrStart blk512 s cmd (some node) =
      sdmaDmaStart { s with
        rxStatus := RX_NODE_OK
        rxTransactionLen := (wrRange blk512 cmd).2
        rxingList := [node] } (some a) (wrRange blk512 cmd).1 (wrRange blk512 cmd).2 := by
  rw [← range, ← addr]
  simp only [wrStart, empty, List.nil_append]

/-- A command to write starts no transfer, or asserts that it has a length, or starts one for a node with a
buffer of its own. -/
theorem wrDtcm_cases (ready : Ready blk512 s) (malloc : Bool) (cmd : SdioDcmd) :
    (rxRoom blk512 s malloc cmd = none ∧
      ∃ s', wrDtcm blk512 s malloc cmd = .ok s' ∧ s'.dma = s.dma ∧ Ready blk512 s') ∨
    (cmd.dataLen = 0 ∧ wrDtcm blk512 s malloc cmd = .error .assert) ∨
    (cmd.dataLen ≠ 0 ∧ ∃ s' node, wrDtcm blk512 s malloc cmd = .ok s' ∧ Ready blk512 s' ∧
      s'.rxingList = [node] ∧ rxRoom blk512 s malloc cmd = some (s'.snode node).length ∧
      s'.dma = some ⟨(s'.snode node).addr, (wrRange blk512 cmd).1, (wrRange blk512 cmd).2⟩) := by
  have announced : Ready blk512 (wrLengths blk512 s cmd) := by
    unfold wrLengths
    split <;> exact ready.congr rfl rfl
  have room : rxRoom blk512 (wrLengths blk512 s cmd) malloc cmd = rxRoom blk512 s malloc cmd := by
    unfold wrLengths
    split <;> rfl
  have untouched : (wrLengths blk512 s cmd).dma = s.dma := by
    unfold wrLengths
    split <;> rfl
  obtain ⟨taken, found, daHdErr, rcLen, rHdlLen, facts, call, range⟩ := wrDtcm_eq ready malloc cmd
  obtain ⟨tcLen, -, -, dma⟩ := facts.stays
  have kept : ∀ node ∈ taken.txingList, Same (wrLengths blk512 s cmd) taken node := by
    intro node member
    exact facts.same node (facts.txing ▸ member)
  have idle : blk512 = true → taken.txingList = [] → taken.tcLen = 0 := by
    intro build empty
    rw [tcLen]
    exact announced.tcLen build (facts.txing.symm.trans empty)
  cases found with
  | none =>
    -- without a node the list of frames under way is empty
    have settled : Ready blk512 taken := by
      apply announced.of_lists facts.inv (.inr facts.rxing) (.inl facts.txing) _ idle
      intro node member
      rw [facts.rxing, List.nil_append] at member
      exact kept node member
    exact .inl ⟨room ▸ facts.none rfl, _, call, dma.trans untouched, settled.congr rfl rfl⟩
  | some node =>
    right
    obtain ⟨holds, fresh⟩ := facts.some node rfl
    obtain ⟨block, size, -, addr, -⟩ := id fresh
    have start := call.trans (wrStart_some { taken with daHdErr, rcLen, rHdlLen } cmd node addr facts.rxing range)
    by_cases nothing : cmd.dataLen = 0
    · left
      rw [start, (wrRange_zero blk512 cmd).mpr nothing]
      exact ⟨nothing, sdmaDmaStart_zero _ _ _⟩
    · right
      rw [sdmaDmaStart_some _ _ _ (mt (wrRange_zero blk512 cmd).mp nothing)] at start
      -- the node is the only one on its list
      have pushed := facts.inv.pushRxing
      rw [facts.rxing, List.nil_append] at pushed
      refine ⟨nothing, _, node, start, ⟨pushed.congr rfl, ?_, Nat.le_refl _, ?_, ?_, idle⟩, rfl,
        room ▸ holds, ?_⟩
      · intro other member
        obtain rfl := List.mem_singleton.mp member
        exact fresh.congr ⟨rfl, rfl⟩
      · intro other member
        have before := announced.txing other (facts.txing ▸ member)
        rwa [← (kept other member).snode] at before
      · have one := announced.txOne
        rwa [← facts.txing] at one
      · rw [addr]

theorem ready_wrDtcm (ready : Ready blk512 s) (malloc : Bool) (cmd : SdioDcmd) :
    Holds (Ready blk512) (wrDtcm blk512 s malloc cmd) := by
  rcases wrDtcm_cases ready malloc cmd with
    ⟨-, s', ok, -, ready'⟩ | ⟨-, stopped⟩ | ⟨-, s', node, ok, ready', -⟩
  · rw [ok]
    exact ready'
  · rw [stopped]
    rfl
  · rw [ok]
    exact ready'

/-! ### Commands to read -/

def rdOffset (blk512 : Bool) (s : SdioS) : UInt32 := if blk512 then s.tcLen else 0

def rdLen (cmd : SdioDcmd) : UInt32 := min32 BLOCK_LEN cmd.dataLen.toUInt32

theorem toNat_rdLen (cmd : SdioDcmd) : (rdLen cmd).toNat = min BLOCK_LEN.toNat cmd.dataLen.toNat := by
  rw [rdLen, toNat_min32, UInt16.toNat_toUInt32]

theorem rdLen_zero (cmd : SdioDcmd) : rdLen cmd = 0 ↔ cmd.dataLen = 0 := wrRange_zero false cmd

/-- The state in which the transfer of `node` is started. -/
def rdState (blk512 : Bool) (s : SdioS) (first : Bool) (node : Nat) : SdioS :=
  { s with
    txSeq := if blk512 && first then s.bekenTxSdioS else s.txSeq
    bekenTxSdioS := if blk512 && first then s.bekenTxSdioS + 1 else s.bekenTxSdioS
    txStatus := TX_NODE_OK
    txTransactionLen := min32 BLOCK_LEN (s.txLen - s.tHdlLen)
    txingList := s.txingList ++ [node] }

theorem rdStart_eq (blk512 : Bool) (s : SdioS) (first : Bool) (node : Nat) :
    rdStart blk512 s first (some node) =
      (assert (!(blk512 && first) || (s.snode node).addr.isSome) >>= fun _ =>
        sdmaDmaStart (rdState blk512 s first node) (s.snode node).addr (rdOffset blk512 s)
          (min32 BLOCK_LEN (s.txLen - s.tHdlLen))) := by
  cases blk512 <;> cases first <;> rfl

theorem rdStart_some (blk512 : Bool) (s : SdioS) (first : Bool) {node : Nat} {a : Addr}
    (addr : (s.snode node).addr = some a) (nonzero : min32 BLOCK_LEN (s.txLen - s.tHdlLen) ≠ 0) :
    rdStart blk512 s first (some node) = .ok { rdState blk512 s first node with
      dma := some ⟨some a, rdOffset blk512 s, min32 BLOCK_LEN (s.txLen - s.tHdlLen)⟩ } := by
  have passes : assert (!(blk512 && first) || (some a).isSome) = .ok () := by
    rw [assert, if_pos]
    simp
  rw [rdStart_eq, addr, passes]
  exact sdmaDmaStart_some _ _ _ nonzero

theorem rdStart_zero (s : SdioS) (first : Bool) (node : Nat)
    (zero : min32 BLOCK_LEN (s.txLen - s.tHdlLen) = 0) :
    rdStart blk512 s first (some node) = .error .assert := by
  rw [rdStart_eq, zero, sdmaDmaStart_zero]
  cases !(blk512 && first) || (s.snode node).addr.isSome <;> rfl

/-- A node without an address, at the beginning of its frame. -/
theorem rdStart_null (s : SdioS) {node : Nat} (addr : (s.snode node).addr = none) :
    rdStart blk512 s true (some node) = .error .assert := by
  rw [rdStart_eq, addr]
  cases blk512 with
  | true => rfl
  | false =>
    -- the DMA itself asserts the address, after the length
    have null : sdmaDmaStart (rdState false s true node) none (rdOffset false s)
        (min32 BLOCK_LEN (s.txLen - s.tHdlLen)) = .error .assert := by
      unfold sdmaDmaStart
      cases decide (min32 BLOCK_LEN (s.txLen - s.tHdlLen) ≠ 0) <;> rfl
    exact null

/-- The start for a node that has been taken from its list, and is pushed to the end of the other one. -/
theorem rdStart_cases (ready : Ready blk512 s) (cmd : SdioDcmd) (first : Bool) {popped : SdioS} {node : Nat}
    (inv : Inv popped [node]) (txing : popped.txingList = []) (rxing : popped.rxingList = s.rxingList)
    (counts : (popped.tcLen, popped.txLen, popped.tHdlLen) = (s.tcLen, cmd.dataLen.toUInt32, 0))
    (same : (popped.heap, popped.snode) = (s.heap, s.snode))
    (null : (s.snode node).addr = none → first = true) :
    (((s.snode node).addr = none ∨ cmd.dataLen = 0) ∧
      rdStart blk512 popped first (some node) = .error .assert) ∨
    (cmd.dataLen ≠ 0 ∧ ∃ s' a, (s.snode node).addr = some a ∧
      rdStart blk512 popped first (some node) = .ok s' ∧ Ready blk512 s' ∧ s'.txingList = [node] ∧
      (s'.heap, s'.snode) = (s.heap, s.snode) ∧ s'.dma = some ⟨some a, rdOffset blk512 s, rdLen cmd⟩) := by
  obtain ⟨tcLen, txLen, tHdlLen⟩ : popped.tcLen = s.tcLen ∧ popped.txLen = cmd.dataLen.toUInt32 ∧
      popped.tHdlLen = 0 := by simpa only [Prod.mk.injEq] using counts
  obtain ⟨heap, snode⟩ := Prod.mk.inj same
  have length : min32 BLOCK_LEN (popped.txLen - popped.tHdlLen) = rdLen cmd := by
    rw [txLen, tHdlLen, UInt32.sub_zero]
    rfl
  have offset : rdOffset blk512 popped = rdOffset blk512 s := by
    rw [rdOffset, rdOffset, tcLen]
  by_cases nothing : cmd.dataLen = 0
  · exact .inl ⟨.inr nothing, rdStart_zero _ _ _ (by rw [length, rdLen_zero]; exact nothing)⟩
  cases addr : (s.snode node).addr with
  | none =>
    obtain rfl := null addr
    exact .inl ⟨.inl rfl, rdStart_null _ (by rw [snode]; exact addr)⟩
  | some a =>
    have result := rdStart_some blk512 popped first (by rw [snode]; exact addr)
      (by rw [length]; exact mt (rdLen_zero cmd).mp nothing)
    rw [length, offset] at result
    -- the node is pushed to the list of frames under way, which was empty
    have pushed := inv.pushTxing
    refine .inr ⟨nothing, _, a, rfl, result, ⟨pushed.congr rfl, ?_, ?_, ?_, ?_, ?_⟩, ?_, same, rfl⟩
    · intro other member
      have held : other ∈ s.rxingList := rxing ▸ member
      exact ((ready.rxing other held).congr (same_of_eq same other)).congr ⟨rfl, rfl⟩
    · have one := ready.rxOne
      rwa [← rxing] at one
    · intro other member
      simp only [rdState, txing, List.nil_append, List.mem_singleton] at member
      subst member
      change (popped.snode other).addr.isSome
      rw [snode, addr]
      rfl
    · simp [rdState, txing]
    · intro _ empty
      simp [rdState] at empty
    · simp [rdState, txing]

/-- A command to read takes its node from the one list or the other; no frame is left over from before. -/
theorem rdDtcm_eq (ready : Ready blk512 s) (cmd : SdioDcmd) :
    rdDtcm blk512 s cmd =
      rdStart blk512
        (txingNode { s with
          txValid := if s.txDat.length ≤ 1 then false else s.txValid
          txLen := cmd.dataLen.toUInt32
          tHdlLen := 0 }).1 (decide (s.txingList.length = 0))
        (txingNode { s with
          txValid := if s.txDat.length ≤ 1 then false else s.txValid
          txLen := cmd.dataLen.toUInt32
          tHdlLen := 0 }).2 := by
  have one := ready.txOne
  have few : assert (!blk512 || s.txingList.length < 2) = .ok () := by
    rw [assert, if_pos]
    simp only [Bool.or_eq_true, decide_eq_true_eq]
    exact .inr (by omega)
  have counted : assert (!blk512 || s.txingList.length ≠ 0 || s.tcLen = 0) = .ok () := by
    rw [assert, if_pos]
    have idle := ready.tcLen
    cases blk512 with
    | false => rfl
    | true =>
      by_cases empty : s.txingList = []
      · simp [empty, idle rfl empty]
      · simp [empty]
  simp only [rdDtcm, few, counted]
  rfl

/-- A command to read starts no transfer, or fails an assertion, or starts one for the frame under way or the
next one. -/
theorem rdDtcm_cases (ready : Ready blk512 s) (cmd : SdioDcmd) :
    ((s.txingList ++ s.txDat).head? = none ∧
      ∃ s', rdDtcm blk512 s cmd = .ok s' ∧ s'.dma = s.dma ∧ Ready blk512 s') ∨
    ∃ node, (s.txingList ++ s.txDat).head? = some node ∧
      ((((s.snode node).addr = none ∨ cmd.dataLen = 0) ∧ rdDtcm blk512 s cmd = .error .assert) ∨
      (cmd.dataLen ≠ 0 ∧ ∃ s' a, (s.snode node).addr = some a ∧ rdDtcm blk512 s cmd = .ok s' ∧
        Ready blk512 s' ∧ s'.txingList = [node] ∧ (s'.heap, s'.snode) = (s.heap, s.snode) ∧
        s'.dma = some ⟨some a, rdOffset blk512 s, rdLen cmd⟩)) := by
  obtain ⟨asked, state⟩ : ∃ asked, asked = { s with
      txValid := if s.txDat.length ≤ 1 then false else s.txValid
      txLen := cmd.dataLen.toUInt32
      tHdlLen := 0 } := ⟨_, rfl⟩
  have inv : Inv asked [] := by
    rw [state]
    exact ready.inv.congr rfl
  have call := rdDtcm_eq ready cmd
  rw [← state] at call
  -- the frame under way comes before those that wait
  cases list : s.txingList with
  | nil =>
    cases queue : s.txDat with
    | nil =>
      have taken : txingNode asked = (asked, none) := by
        simp only [txingNode, state, list, queue]
      rw [call, taken]
      refine .inl ⟨rfl, _, rfl, ?_, ?_⟩
      · rw [state]
      · rw [state]
        exact ready.congr rfl rfl
    | cons node rest =>
      have taken : txingNode asked =
          ({ asked with txDat := rest, txOut := asked.txOut ++ [node] }, some node) := by
        simp only [txingNode, state, list, queue]
      rw [call, taken]
      refine .inr ⟨node, rfl, rdStart_cases ready cmd _ ?_ ?_ ?_ ?_ ?_ ?_⟩
      · exact inv.popTx (by rw [state]; exact queue)
      · rw [state]
        exact list
      · rw [state]
      · rw [state]
      · rw [state]
      · intro _
        rw [list]
        rfl
  | cons node rest =>
    obtain rfl := rest_nil ready.txOne list
    have taken : txingNode asked = ({ asked with txingList := [] }, some node) := by
      simp only [txingNode, state, list]
    rw [call, taken]
    refine .inr ⟨node, rfl, rdStart_cases ready cmd _ ?_ rfl ?_ ?_ ?_ ?_⟩
    · exact inv.popTxing (by rw [state]; exact list)
    · rw [state]
    · rw [state]
    · rw [state]
    · intro null
      have some_addr := ready.txing node (by rw [list]; exact List.mem_cons_self)
      rw [null] at some_addr
      cases some_addr

theorem ready_rdDtcm (ready : Ready blk512 s) (cmd : SdioDcmd) : Holds (Ready blk512) (rdDtcm blk512 s cmd) := by
  rcases rdDtcm_cases ready cmd with
    ⟨-, s', ok, -, ready'⟩ | ⟨node, -, ⟨-, stopped⟩ | ⟨-, s', a, -, ok, ready', -⟩⟩
  · rw [ok]
    exact ready'
  · rw [stopped]
    rfl
  · rw [ok]
    exact ready'

end

end Bk7251.Sdio
