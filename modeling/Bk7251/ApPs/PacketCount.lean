import Mathlib.Data.List.Induction
import Bk7251.ApPs.RwMsdu
import Bk7251.Lib.Ledger

/-!
# The packet count

The transmit path with the calls it makes of `txl_cntrl_inc_pck_cnt`, `txl_cntrl_dec_pck_cnt` and
`txu_cntrl_push`, as built with `NX_POWERSAVE` too. Frames that wait for their station are not counted
until they are sent.
-/
namespace Bk7251.ApPs

open Lib

inductive PckCall where
  | incPckCnt
  | decPckCnt
  | txuPush
deriving DecidableEq

/-- The transmit path and the calls made so far. -/
structure Counted where
  path : ApPsState
  calls : List PckCall

namespace Counted

variable (c : Counted)

def call (k : PckCall) : Counted := { c with calls := c.calls ++ [k] }

/-- `rwm_transfer_node` -/
def rwmTransferNode (node : Option MsduNode) (descFree : Bool) : Counted :=
  match node with
  | none => c.call .decPckCnt
  | some node =>
    if !descFree then c.call .decPckCnt
    else { c with path := { c.path with pushed := c.path.pushed ++ [node] } }.call .txuPush

/-- `rwm_ps_tranfer_node` -/
def rwmPsTranferNode (node : Option MsduNode) (descFree : Bool) (request : Option Nat) : Counted :=
  match node with
  | none => c
  | some node =>
    if !node.apInface then (c.call .incPckCnt).rwmTransferNode (some node) descFree
    else if !c.path.active then (c.call .incPckCnt).rwmTransferNode (some node) descFree
    else if (c.path.staMgmtIsInPs node.staIdx || c.path.rwmTxlingListNodeCount node.staIdx != 0) &&
        decide (node.staIdx < MAX_PS_STA_NUM) then
      let path :=
        if c.path.rwmTxlingListNodeCount node.staIdx = 0 then
          let path := c.path.rwMsgSendTimUpdate node.staIdx true request
          { path with timer := Function.update path.timer node.staIdx true }
        else c.path
      { c with path := path.rwmPushTxingList node node.staIdx }
    else (c.call .incPckCnt).rwmTransferNode (some node) descFree

/-- `rwm_transfer` -/
def rwmTransfer (vifIdx staIdx : Nat) (apInface nodeAllocated descFree : Bool)
    (request : Option Nat) : Counted :=
  let node : MsduNode := ⟨c.path.next, vifIdx, staIdx, apInface⟩
  let c := { c with path := { c.path with next := c.path.next + 1 } }
  if !nodeAllocated then c.call .decPckCnt else c.rwmPsTranferNode (some node) descFree request

/-- `rwm_msdu_send_txing_node` -/
def rwmMsduSendTxingNode (staIdx : Nat) (descFree : Bool) (request : Option Nat) : Counted :=
  match c.path.rwmPopTxingList staIdx with
  | (path, none) => { c with path := path }
  | (path, some node) =>
    let nodeLeft := path.rwmTxlingListNodeCount staIdx
    let c := ({ c with path := path }.call .incPckCnt).rwmTransferNode (some node) descFree
    if nodeLeft ≠ 0 ∧ c.path.staMgmtIsInPs staIdx = false then
      { c with path := c.path.bmsgTxingSender staIdx }
    else if nodeLeft = 0 then { c with path := c.path.rwMsgSendTimUpdate staIdx false request }
    else c

/-- `rwm_flush_txing_list` -/
def rwmFlushTxingList (staIdx : Nat) : Counted := { c with path := c.path.rwmFlushTxingList staIdx }

end Counted

/-- The three operations, and a station that falls asleep or wakes up in between. -/
inductive PckOp where
  | transfer (vifIdx staIdx : Nat) (apInface nodeAllocated descFree : Bool) (request : Option Nat)
  | sendTxingNode (staIdx : Nat) (descFree : Bool) (request : Option Nat)
  | flush (staIdx : Nat)
  | psChange (staIdx : Nat) (psState : PsMode)

/-- A submission for which there is no node. -/
def PckOp.NoNode : PckOp → Prop
  | .transfer _ _ _ nodeAllocated _ _ => nodeAllocated = false
  | _ => False

instance : DecidablePred PckOp.NoNode := fun op => by
  unfold PckOp.NoNode
  split
  · infer_instance
  · infer_instance

namespace Counted

def step (c : Counted) : PckOp → Counted
  | .transfer vifIdx staIdx apInface nodeAllocated descFree request =>
    c.rwmTransfer vifIdx staIdx apInface nodeAllocated descFree request
  | .sendTxingNode staIdx descFree request => c.rwmMsduSendTxingNode staIdx descFree request
  | .flush staIdx => c.rwmFlushTxingList staIdx
  | .psChange staIdx psState => { c with path := c.path.mmPsChangeInd staIdx psState }

def run (path : ApPsState) (ops : List PckOp) : Counted := ops.foldl step ⟨path, []⟩

end Counted

/-- Increments less decrements. -/
def netCount (calls : List PckCall) : Int := calls.count .incPckCnt - calls.count .decPckCnt

def pushCount (calls : List PckCall) : Int := calls.count .txuPush

/-- The count is that of the frames pushed, and at no moment below it. -/
structure CountBalanced (calls : List PckCall) : Prop where
  net : netCount calls = pushCount calls
  never_below : ∀ n, pushCount (calls.take n) ≤ netCount (calls.take n)

/-! ### The count as an account -/

/-- What a call adds to the frames that are counted and not pushed. -/
def PckCall.amount : PckCall → Int
  | .incPckCnt => 1
  | .decPckCnt => -1
  | .txuPush => -1

theorem balance_eq (calls : List PckCall) :
    balance PckCall.amount calls = netCount calls - pushCount calls := by
  induction calls with
  | nil => rfl
  | cons k calls ih =>
    rw [balance_cons, ih]
    cases k with
    | incPckCnt => simp [netCount, pushCount, PckCall.amount]; omega
    | decPckCnt => simp [netCount, pushCount, PckCall.amount]; omega
    | txuPush => simp [netCount, pushCount, PckCall.amount]; omega

theorem countBalanced_iff (calls : List PckCall) :
    CountBalanced calls ↔ balance PckCall.amount calls = 0 ∧ Solvent PckCall.amount calls := by
  rw [balance_eq]
  constructor
  · intro h
    refine ⟨Int.sub_eq_zero.mpr h.net, fun n => ?_⟩
    rw [balance_eq]
    exact Int.sub_nonneg_of_le (h.never_below n)
  · rintro ⟨net, solvent⟩
    refine ⟨Int.sub_eq_zero.mp net, fun n => ?_⟩
    have here := solvent n
    rw [balance_eq] at here
    exact Int.le_of_sub_nonneg here

/-- The calls of one operation: nothing for a frame that waits, a frame pushed, or one given up. -/
inductive Calls : PckOp → List PckCall → Prop
  | none {op : PckOp} (node : ¬op.NoNode) : Calls op []
  | pushed {op : PckOp} (node : ¬op.NoNode) : Calls op [.incPckCnt, .txuPush]
  | givenUp {op : PckOp} (node : ¬op.NoNode) : Calls op [.incPckCnt, .decPckCnt]
  | noNode {op : PckOp} (noNode : op.NoNode) : Calls op [.decPckCnt]

theorem Calls.solvent {op : PckOp} {calls : List PckCall} (h : Calls op calls) (node : ¬op.NoNode) :
    balance PckCall.amount calls = 0 ∧ Solvent PckCall.amount calls := by
  have paired (k : PckCall) (down : k.amount = -1) :
      balance PckCall.amount [.incPckCnt, k] = 0 ∧ Solvent PckCall.amount [.incPckCnt, k] := by
    have zero : balance PckCall.amount [.incPckCnt, k] = 0 := by
      rw [balance_cons, balance_cons, down]
      rfl
    refine ⟨zero, fun n => ?_⟩
    match n with
    | 0 => exact Int.le_refl 0
    | 1 => exact Int.zero_le_ofNat 1
    | n + 2 =>
      rw [List.take_of_length_le (Nat.le_add_left 2 n)]
      exact Int.le_of_eq zero.symm
  cases h with
  | none => exact ⟨rfl, solvent_nil⟩
  | pushed => exact paired .txuPush rfl
  | givenUp => exact paired .decPckCnt rfl
  | noNode noNode => exact absurd noNode node

namespace Counted

variable {c : Counted}

/-- A frame that is sent is counted, and pushed or given up. -/
theorem send_calls (node : MsduNode) (descFree : Bool) :
    ((c.call .incPckCnt).rwmTransferNode (some node) descFree).calls =
      c.calls ++ [.incPckCnt, if descFree then .txuPush else .decPckCnt] := by
  cases descFree with
  | false => exact List.append_assoc _ _ _
  | true => exact List.append_assoc _ _ _

theorem send_path (node : MsduNode) (descFree : Bool) :
    ((c.call .incPckCnt).rwmTransferNode (some node) descFree).path =
      c.path.rwmTransferNode node descFree := by
  cases descFree with
  | false => rfl
  | true => rfl

/-- What an operation has done: its calls, and a frame handed on for each push among them. -/
structure Did (op : PckOp) (c c' : Counted) (calls : List PckCall) : Prop where
  calls_eq : c'.calls = c.calls ++ calls
  kind : Calls op calls
  pushed : c'.path.pushed.length = c.path.pushed.length + calls.count .txuPush

theorem did_none {op : PckOp} {c' : Counted} (node : ¬op.NoNode) (same : c'.calls = c.calls)
    (kept : c'.path.pushed = c.path.pushed) : ∃ calls, Did op c c' calls := by
  refine ⟨[], ?_, .none node, ?_⟩
  · rw [same, List.append_nil]
  · rw [kept]
    rfl

theorem did_send {op : PckOp} {c' : Counted} (has : ¬op.NoNode) (node : MsduNode) (descFree : Bool)
    (same : c'.calls = ((c.call .incPckCnt).rwmTransferNode (some node) descFree).calls)
    (kept : c'.path.pushed = (c.path.rwmTransferNode node descFree).pushed) :
    ∃ calls, Did op c c' calls := by
  refine ⟨_, same.trans (send_calls node descFree), ?_, ?_⟩
  · cases descFree with
    | false => exact .givenUp has
    | true => exact .pushed has
  · rw [kept]
    cases descFree with
    | false => rfl
    | true => exact List.length_append

/-! ### One operation -/

theorem rwmPsTranferNode_path (node : MsduNode) (descFree : Bool) (request : Option Nat) :
    (c.rwmPsTranferNode (some node) descFree request).path =
      c.path.rwmPsTranferNode node descFree request := by
  rw [rwmPsTranferNode, ApPsState.rwmPsTranferNode, ApPsState.buffers]
  cases ap : node.apInface with
  | false => exact send_path node descFree
  | true =>
    cases active : c.path.active with
    | false => exact send_path node descFree
    | true =>
      simp only [Bool.not_true, Bool.false_eq_true, if_false, Bool.true_and]
      split
      · rfl
      · exact send_path node descFree

theorem rwmTransfer_path (vifIdx staIdx : Nat) (apInface nodeAllocated descFree : Bool)
    (request : Option Nat) :
    (c.rwmTransfer vifIdx staIdx apInface nodeAllocated descFree request).path =
      c.path.rwmTransfer vifIdx staIdx apInface nodeAllocated descFree request := by
  cases nodeAllocated with
  | false => rfl
  | true => exact rwmPsTranferNode_path _ descFree request

theorem rwmMsduSendTxingNode_path (staIdx : Nat) (descFree : Bool) (request : Option Nat) :
    (c.rwmMsduSendTxingNode staIdx descFree request).path =
      c.path.rwmMsduSendTxingNode staIdx descFree request := by
  rw [rwmMsduSendTxingNode, ApPsState.rwmMsduSendTxingNode]
  match c.path.rwmPopTxingList staIdx with
  | (path, none) => rfl
  | (path, some node) =>
    dsimp only
    rw [send_path]
    split
    · rfl
    · split
      · rfl
      · rw [send_path]

theorem rwmPsTranferNode_did {op : PckOp} (has : ¬op.NoNode) (node : MsduNode) (descFree : Bool)
    (request : Option Nat) : ∃ calls, Did op c (c.rwmPsTranferNode (some node) descFree request) calls := by
  have sent : ∃ calls, Did op c ((c.call .incPckCnt).rwmTransferNode (some node) descFree) calls :=
    did_send has node descFree rfl (congrArg ApPsState.pushed (send_path node descFree))
  rw [rwmPsTranferNode]
  split
  · exact sent
  · split
    · exact sent
    · split
      · apply did_none has
        · rfl
        · -- the frame waits
          unfold ApPsState.rwmPushTxingList
          split <;> split <;> simp
      · exact sent

theorem rwmMsduSendTxingNode_did {op : PckOp} (has : ¬op.NoNode) (staIdx : Nat) (descFree : Bool)
    (request : Option Nat) : ∃ calls, Did op c (c.rwmMsduSendTxingNode staIdx descFree request) calls := by
  have kept : (c.path.rwmPopTxingList staIdx).1.pushed = c.path.pushed := by
    rw [ApPsState.rwmPopTxingList]
    split
    · rfl
    · split
      · rfl
      · rfl
  rw [rwmMsduSendTxingNode]
  match c.path.rwmPopTxingList staIdx, kept with
  | (path, none), kept => exact did_none has rfl kept
  | (path, some node), kept =>
    have same : (path.rwmTransferNode node descFree).pushed = (c.path.rwmTransferNode node descFree).pushed := by
      cases descFree with
      | false => exact kept
      | true => exact congrArg (· ++ [node]) kept
    apply did_send has node descFree
    · -- the wake-up of the sender and the TIM update make no call
      rw [send_calls]
      dsimp only
      split
      · exact send_calls node descFree
      · split
        · exact send_calls node descFree
        · exact send_calls node descFree
    · -- nor do they push
      rw [← same]
      dsimp only
      rw [send_path]
      split
      · rfl
      · split
        · exact ApPsState.rwMsgSendTimUpdate_pushed _ staIdx false request
        · rw [send_path]

theorem step_did (c : Counted) (op : PckOp) : ∃ calls, Did op c (c.step op) calls := by
  cases op with
  | transfer vifIdx staIdx apInface nodeAllocated descFree request =>
    cases nodeAllocated with
    | false => exact ⟨[.decPckCnt], rfl, .noNode rfl, rfl⟩
    | true =>
      have has : ¬(PckOp.transfer vifIdx staIdx apInface true descFree request).NoNode :=
        fun none => Bool.noConfusion none
      obtain ⟨calls, did⟩ := rwmPsTranferNode_did (c := { c with path := { c.path with next := c.path.next + 1 } })
        has ⟨c.path.next, vifIdx, staIdx, apInface⟩ descFree request
      exact ⟨calls, did.calls_eq, did.kind, did.pushed⟩
  | sendTxingNode staIdx descFree request => exact rwmMsduSendTxingNode_did id staIdx descFree request
  | flush staIdx =>
    apply did_none id
    · rfl
    · change (c.path.rwmFlushTxingList staIdx).pushed = c.path.pushed
      rw [ApPsState.rwmFlushTxingList]
      split
      · rfl
      · rfl
  | psChange staIdx psState => exact did_none id rfl rfl

/-! ### A run -/

theorem run_concat (path : ApPsState) (ops : List PckOp) (op : PckOp) :
    run path (ops ++ [op]) = (run path ops).step op :=
  List.foldl_concat ..

/-- The pushes are the frames handed on. -/
theorem run_pushed (path : ApPsState) (ops : List PckOp) :
    ((run path ops).path.pushed.length : Int) = path.pushed.length + pushCount (run path ops).calls := by
  induction ops using List.reverseRecOn with
  | nil => exact (Int.add_zero _).symm
  | append_singleton ops op ih =>
    obtain ⟨calls, did⟩ := step_did (run path ops) op
    rw [pushCount] at ih ⊢
    rw [run_concat, did.pushed, did.calls_eq, List.count_append]
    omega

/-- Every submission without a node takes one off the count. -/
theorem run_balance (path : ApPsState) (ops : List PckOp) :
    balance PckCall.amount (run path ops).calls = -(ops.countP fun op => decide op.NoNode) := by
  induction ops using List.reverseRecOn with
  | nil => rfl
  | append_singleton ops op ih =>
    obtain ⟨calls, did⟩ := step_did (run path ops) op
    rw [run_concat, did.calls_eq, balance_append, ih, List.countP_append]
    by_cases noNode : op.NoNode
    · have one : balance PckCall.amount calls = -1 := by
        cases did.kind with
        | none node => exact absurd noNode node
        | pushed node => exact absurd noNode node
        | givenUp node => exact absurd noNode node
        | noNode => rfl
      rw [one, List.countP_singleton, if_pos (decide_eq_true noNode)]
      omega
    · rw [(did.kind.solvent noNode).1, List.countP_singleton, if_neg (by simpa using noNode)]
      omega

theorem run_solvent (path : ApPsState) (ops : List PckOp) (nodes : ∀ op ∈ ops, ¬op.NoNode) :
    Solvent PckCall.amount (run path ops).calls := by
  induction ops using List.reverseRecOn with
  | nil => exact solvent_nil
  | append_singleton ops op ih =>
    obtain ⟨calls, did⟩ := step_did (run path ops) op
    have last : ¬op.NoNode := nodes op (List.mem_append_right _ (List.mem_singleton_self op))
    rw [run_concat, did.calls_eq]
    apply Solvent.append
    · exact ih fun op' member => nodes op' (List.mem_append_left _ member)
    · exact (did.kind.solvent last).2

end Counted

/-- In every run, from every state, the count is balanced exactly if no submission went without a node. -/
theorem packet_count_balanced_iff (path : ApPsState) (ops : List PckOp) :
    CountBalanced (Counted.run path ops).calls ↔ ∀ op ∈ ops, ¬op.NoNode := by
  rw [countBalanced_iff]
  constructor
  · rintro ⟨net, -⟩ op member noNode
    rw [Counted.run_balance, Int.neg_eq_zero, Int.natCast_eq_zero, List.countP_eq_zero] at net
    exact net op member (decide_eq_true noNode)
  · intro nodes
    have solvent := Counted.run_solvent path ops nodes
    refine ⟨?_, solvent⟩
    rw [Counted.run_balance, Int.neg_eq_zero, Int.natCast_eq_zero, List.countP_eq_zero]
    exact fun op member noNode => nodes op member (of_decide_eq_true noNode)

/-- One submission for which no node could be allocated. -/
theorem packet_count_drifts :
    ¬CountBalanced (Counted.run .init [.transfer 0 1 false false true none]).calls :=
  fun balanced => absurd balanced.net (by decide)

end Bk7251.ApPs
