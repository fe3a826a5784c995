import Bk7251.Lib.Machine
import Bk7251.Sdio.Transfers

/-!
# Where the SDIO transfers go

The lengths and the offsets come from the host, the buffers from earlier commands and from the software; over
whole runs the transfers stay inside exactly when every command fits.
-/
namespace Bk7251.Sdio

open Lib

/-! ### Whole runs -/

section

variable {blk512 : Bool} {s : SdioS}

theorem inBuffer_fresh {node : Nat} (fresh : Fresh s node) (off len : UInt32) :
    InBuffer s node ⟨(s.snode node).addr, off, len⟩ ↔
      off.toNat + len.toNat ≤ (s.snode node).length.toNat + 24 := by
  obtain ⟨block, size, owns, addr, sized, total⟩ := fresh
  have held : s.heap.get? block = some size := by
    rwa [blockSize, owner, owns, Option.bind_some] at sized
  constructor
  · rintro ⟨a, size', same, -, sized', inside⟩
    cases addr.symm.trans same
    cases held.symm.trans sized'
    simp only at inside
    omega
  · intro fits
    refine ⟨_, size, addr, owns, held, ?_⟩
    simp only
    omega

theorem inBuffer_iff {node : Nat} (a : Addr) (off : UInt32) {len : UInt32} (nonzero : len ≠ 0) :
    InBuffer s node ⟨some a, off, len⟩ ↔ off.toNat + len.toNat ≤ roomBehind s node a := by
  have positive := (toNat_ne_zero len).mp nonzero
  rw [roomBehind]
  constructor
  · rintro ⟨a', size, same, owns, sized, inside⟩
    cases same
    rw [if_pos owns, sized]
    simp only [Option.elim_some] at inside ⊢
    omega
  · intro fits
    split at fits
    next owns =>
      cases sized : s.heap.get? a.block with
      | none =>
        rw [sized] at fits
        simp only [Option.elim_none] at fits
        omega
      | some size =>
        rw [sized] at fits
        simp only [Option.elim_some] at fits
        refine ⟨a, size, rfl, owns, sized, ?_⟩
        simp only
        omega
    next => omega

theorem started_some {list : SdioS → List Nat} {r : Except Stop SdioS} {s' : SdioS} {node : Nat} {dma : Dma}
    (ok : r = .ok s') (last : list s' = [node]) (transfer : s'.dma = some dma) :
    started list r = some (node, dma) := by
  rw [ok]
  simp [started, last, transfer]

/-- Of a command that starts a transfer only this transfer is to be seen. -/
theorem confined_started {list : SdioS → List Nat} {r : Except Stop SdioS} {s' : SdioS} {node : Nat} {dma : Dma}
    (ok : r = .ok s') (last : list s' = [node]) (transfer : s'.dma = some dma) :
    (∀ s, r = .ok s → ∀ p, started list r = some p → InBuffer s p.1 p.2) ↔ InBuffer s' node dma := by
  have seen := started_some ok last transfer
  constructor
  · intro all
    exact all s' ok _ seen
  · intro inside s same p found
    cases ok.symm.trans same
    cases seen.symm.trans found
    exact inside

theorem wr_confined_iff (ready : Ready blk512 s) (malloc : Bool) (cmd : SdioDcmd) (clear : s.dma = none) :
    (∀ s', wrDtcm blk512 s malloc cmd = .ok s' → ∀ p,
      started SdioS.rxingList (wrDtcm blk512 s malloc cmd) = some p → InBuffer s' p.1 p.2) ↔
      WrFits blk512 s malloc cmd := by
  rcases wrDtcm_cases ready malloc cmd with
    ⟨room, s', ok, dma, -⟩ | ⟨nothing, stopped⟩ | ⟨more, s', node, ok, ready', last, room, dma⟩
  · apply iff_of_true
    · -- there was no transfer before the command, and there is none behind it
      intro _ _ p found
      rw [ok, started, dma, clear] at found
      cases found
    · intro size found
      cases room.symm.trans found
  · apply iff_of_true
    · intro s' ok
      cases stopped.symm.trans ok
    · intro _ _ more
      exact absurd nothing more
  · have fresh := ready'.rxing node (by rw [last]; exact List.mem_cons_self)
    rw [confined_started ok last dma, inBuffer_fresh fresh]
    have range : (wrRange blk512 cmd).1.toNat + (wrRange blk512 cmd).2.toNat =
        if blk512 then cmd.startLen.toNat + cmd.dataLen.toNat
        else min BLOCK_LEN.toNat cmd.dataLen.toNat := by
      cases blk512 with
      | true => rfl
      | false =>
        simp only [wrRange, Bool.false_eq_true, if_false, toNat_min32, UInt16.toNat_toUInt32,
          UInt32.toNat_zero, Nat.zero_add]
    rw [range]
    constructor
    · intro inside size found _
      cases room.symm.trans found
      exact inside
    · intro fits
      exact fits _ room more

theorem rd_confined_iff (ready : Ready blk512 s) (cmd : SdioDcmd) (clear : s.dma = none) :
    (∀ s', rdDtcm blk512 s cmd = .ok s' → ∀ p,
      started SdioS.txingList (rdDtcm blk512 s cmd) = some p → InBuffer s' p.1 p.2) ↔
      RdFits blk512 s cmd := by
  rcases rdDtcm_cases ready cmd with
    ⟨empty, s', ok, dma, -⟩ | ⟨node, first, ⟨refused, stopped⟩ | ⟨more, s', a, addr, ok, -, last, same, dma⟩⟩
  · apply iff_of_true
    · intro _ _ p found
      rw [ok, started, dma, clear] at found
      cases found
    · intro node found
      cases empty.symm.trans found
  · apply iff_of_true
    · intro s' ok
      cases stopped.symm.trans ok
    · intro other found a addr more
      cases first.symm.trans found
      rcases refused with null | nothing
      · cases null.symm.trans addr
      · exact absurd nothing more
  · obtain ⟨heap, snode⟩ := Prod.mk.inj same
    have behind : roomBehind s' node a = roomBehind s node a := by
      rw [roomBehind, roomBehind, heap, snode]
    have offset : (rdOffset blk512 s).toNat = if blk512 then s.tcLen.toNat else 0 := by
      cases blk512 <;> rfl
    rw [confined_started ok last dma, inBuffer_iff a _ (mt (rdLen_zero cmd).mp more), behind, toNat_rdLen,
      offset]
    constructor
    · intro inside other found a' addr' _
      cases first.symm.trans found
      cases addr.symm.trans addr'
      exact inside
    · intro fits
      exact fits node first a addr more

/-- Only the transfer of a node counts. -/
theorem confined_node (r : Except Stop SdioS) (node : Option (Nat × Dma)) :
    Confined (r, { Access.none with node }) ↔
      ∀ s, r = .ok s → ∀ p, node = some p → InBuffer s p.1 p.2 := by
  constructor
  · intro confined
    exact confined.node
  · intro inside
    refine ⟨inside, ?_, ?_, ?_⟩
    · intro _ transfer
      cases transfer
    · intro _ member
      cases member
    · intro _ member
      cases member

theorem confined_registers (r : Except Stop SdioS) {access : Access} (none : access.node = none) :
    Confined (r, access) ↔
      (∀ len, access.regDma = some len → len.toNat ≤ 4 * REG_VAL_COUNT) ∧
        (∀ i ∈ access.content, i < MAX_CONTENT_COUNT) ∧ ∀ i ∈ access.regVal, i < REG_VAL_COUNT := by
  constructor
  · rintro ⟨-, regDma, content, regVal⟩
    exact ⟨regDma, content, regVal⟩
  · rintro ⟨regDma, content, regVal⟩
    refine ⟨?_, regDma, content, regVal⟩
    intro _ _ p found
    cases none.symm.trans found

/-- The operations exclude each other. -/
theorem opcodes_distinct : OPC_WR_DTCM ≠ OPC_RD_DTCM ∧ OPC_WR_DTCM ≠ OPC_WR_REG ∧ OPC_WR_DTCM ≠ OPC_RD_REG ∧
    OPC_RD_DTCM ≠ OPC_WR_REG ∧ OPC_RD_DTCM ≠ OPC_RD_REG := by decide

theorem cmdFits_wr {malloc : Bool} {cmd : SdioCmd} (wr : cmd.opCode = OPC_WR_DTCM) :
    CmdFits blk512 (.ok s) (.cmd malloc cmd) ↔ WrFits blk512 s malloc cmd.dcmd := by
  obtain ⟨not_rd, not_wr_reg, not_rd_reg, -, -⟩ := opcodes_distinct
  constructor
  · intro fits
    exact fits.1 wr
  · intro fits
    refine ⟨fun _ => fits, ?_, ?_⟩
    · intro rd
      exact absurd (wr.symm.trans rd) not_rd
    · rintro (reg | reg)
      · exact absurd (wr.symm.trans reg) not_wr_reg
      · exact absurd (wr.symm.trans reg) not_rd_reg

theorem cmdFits_rd {malloc : Bool} {cmd : SdioCmd} (rd : cmd.opCode = OPC_RD_DTCM) :
    CmdFits blk512 (.ok s) (.cmd malloc cmd) ↔ RdFits blk512 s cmd.dcmd := by
  obtain ⟨not_wr, -, -, not_wr_reg, not_rd_reg⟩ := opcodes_distinct
  constructor
  · intro fits
    exact fits.2.1 rd
  · intro fits
    refine ⟨?_, fun _ => fits, ?_⟩
    · intro wr
      exact absurd (wr.symm.trans rd) not_wr
    · rintro (reg | reg)
      · exact absurd (rd.symm.trans reg) not_wr_reg
      · exact absurd (rd.symm.trans reg) not_rd_reg

theorem cmdFits_reg {malloc : Bool} {cmd : SdioCmd} (not_wr : cmd.opCode ≠ OPC_WR_DTCM)
    (not_rd : cmd.opCode ≠ OPC_RD_DTCM) (reg : cmd.opCode = OPC_WR_REG ∨ cmd.opCode = OPC_RD_REG) :
    CmdFits blk512 (.ok s) (.cmd malloc cmd) ↔ RegFits cmd := by
  constructor
  · intro fits
    exact fits.2.2 reg
  · intro fits
    exact ⟨fun wr => absurd wr not_wr, fun rd => absurd rd not_rd, fun _ => fits⟩

theorem cmd_confined_iff (ready : Ready blk512 s) (malloc : Bool) (cmd : SdioCmd) :
    CmdConfined blk512 (.ok s) (.cmd malloc cmd) ↔ CmdFits blk512 (.ok s) (.cmd malloc cmd) := by
  have cleared : Ready blk512 { s with dma := none } := ready.congr rfl rfl
  rw [CmdConfined, sdioCmdHandler]
  simp only
  split
  next wr =>
    rw [cmdFits_wr wr]
    exact (confined_node _ _).trans (wr_confined_iff cleared malloc cmd.dcmd rfl)
  split
  next not_wr rd =>
    rw [cmdFits_rd rd]
    exact (confined_node _ _).trans (rd_confined_iff cleared cmd.dcmd rfl)
  split
  next not_wr not_rd reg =>
    rw [cmdFits_reg not_wr not_rd (.inl reg), confined_registers _ rfl, ← wrReg_fits]
    -- no transfer, and nothing of the second array
    constructor
    · intro inside
      exact inside.2.1
    · intro content
      refine ⟨?_, content, ?_⟩
      · intro _ transfer
        cases transfer
      · intro _ member
        cases member
  split
  next not_wr not_rd not_wr_reg reg =>
    rw [cmdFits_reg not_wr not_rd (.inr reg), confined_registers _ rfl]
    exact rdReg_fits cmd
  next not_wr not_rd not_wr_reg not_rd_reg =>
    apply iff_of_true
    · exact (confined_node _ none).mpr fun _ _ _ found => by cases found
    · refine ⟨fun wr => absurd wr not_wr, fun rd => absurd rd not_rd, ?_⟩
      rintro (reg | reg)
      · exact absurd reg not_wr_reg
      · exact absurd reg not_rd_reg

theorem Holds.ready {m : Except Stop (SdioS × Ret)} (ready : Ready blk512 s)
    (frame : Holds (fun p => Frame s p.1) m) (inv : Holds (fun p => Inv p.1 []) m) :
    Holds (Ready blk512) (m.map Prod.fst) := by
  cases m with
  | ok p => exact Frame.ready frame ready inv
  | error stop => exact frame

theorem ready_sdioCmdHandler (ready : Ready blk512 s) (malloc : Bool) (cmd : SdioCmd) :
    Holds (Ready blk512) (sdioCmdHandler blk512 s malloc cmd).1 := by
  have cleared : Ready blk512 { s with dma := none } := ready.congr rfl rfl
  unfold sdioCmdHandler
  split
  · exact ready_wrDtcm cleared malloc cmd.dcmd
  split
  · exact ready_rdDtcm cleared cmd.dcmd
  split
  · exact cleared
  split
  · split
    · rfl
    · exact cleared
  · exact cleared

/-- A caller's node is none of those under way. -/
theorem frame_edit (inv : Inv s []) {node : Nat} (own : node ∈ s.held) (addr : Option Addr) (length : UInt32) :
    Frame s { s with snode := Function.update s.snode node { s.snode node with addr, length } } := by
  refine ⟨rfl, rfl, rfl, ?_⟩
  intro other member
  have distinct : other ≠ node := by
    rintro rfl
    exact inv.not_held member own
  have stays : ∀ x, Function.update s.snode node x other = s.snode other := fun x =>
    Function.update_of_ne distinct _ _
  constructor
  · exact stays _
  · simp only [blockSize, owner, stays]

/-- Every input keeps the invariant, unless an assertion stops the firmware. -/
theorem ready_inputStep (ready : Ready blk512 s) (i : Input) :
    Holds (Ready blk512) (inputStep blk512 (.ok s) i) := by
  cases i with
  | cmd malloc cmd => exact ready_sdioCmdHandler ready malloc cmd
  | event e software =>
    have inv := holds_step ready.inv blk512 e
    simp only [inputStep, step] at inv ⊢
    split
    next own =>
      rw [if_pos own] at inv
      cases e with
      | wrDtcm malloc cmd => exact absurd rfl (software malloc cmd).1
      | rdDtcm cmd => exact absurd rfl (software true cmd).2
      | txCb => exact ready_sdioTxCb ready
      | rxCb hdr => exact ready_sdioRxCb ready hdr
      | read userBuf count opFlag =>
        exact Holds.ready ready (frame_sdioRead ready.inv userBuf count opFlag)
          (holds_sdioRead ready.inv userBuf count opFlag)
      | write malloc userBuf count opFlag =>
        exact (frame_sdioWrite ready.inv malloc userBuf count opFlag).ready ready inv
      | ctrl malloc cmd =>
        have given : ∀ node, cmd = .pushFreeNode node → node ∈ s.held := by
          intro node push
          apply own node
          rw [push]
          rfl
        exact Holds.ready ready (frame_sdioCtrl ready.inv malloc cmd given)
          (holds_sdioCtrl ready.inv malloc cmd given)
      | edit node addr length => exact (frame_edit ready.inv (own node rfl) addr length).ready ready inv
    next => exact ready

theorem ready_sdioInit (blk512 : Bool) : Ready blk512 sdioInit where
  inv := inv_sdioInit
  rxing _ member := by cases member
  rxOne := Nat.zero_le _
  txing _ member := by cases member
  txOne := Nat.zero_le _
  tcLen _ _ := rfl

theorem input_confined_iff {r : Except Stop SdioS} (ready : Holds (Ready blk512) r) (i : Input) :
    CmdConfined blk512 r i ↔ CmdFits blk512 r i := by
  cases r with
  | error stop => exact Iff.rfl
  | ok s =>
    cases i with
    | cmd malloc cmd => exact cmd_confined_iff ready malloc cmd
    | event e software => exact Iff.rfl

theorem holds_inputStep {r : Except Stop SdioS} (ready : Holds (Ready blk512) r) (i : Input) :
    Holds (Ready blk512) (inputStep blk512 r i) := by
  cases r with
  | error stop => exact ready
  | ok s => exact ready_inputStep ready i

/-- The transfers and the array elements of a run are where they belong exactly when each command fits the
buffer that it uses. -/
theorem dma_confined_iff (blk512 : Bool) (inputs : List Input) :
    Along (inputStep blk512) (CmdConfined blk512) (.ok sdioInit) inputs ↔
      Along (inputStep blk512) (CmdFits blk512) (.ok sdioInit) inputs := by
  have all : ∀ i ∈ inputs, True := fun _ _ => trivial
  exact along_congr (fun _ i ready => input_confined_iff ready i)
    (fun _ i ready _ _ => holds_inputStep ready i) (ready_sdioInit blk512) all

/-- A second command overtakes the end of the first one's transfer: its 4096 bytes go to the buffer of 8. -/
def overtaking : List Input :=
  [.cmd true ⟨OPC_WR_DTCM, 0, fun _ => 8⟩, .cmd true ⟨OPC_WR_DTCM, 0, fun _ => 4096⟩]

theorem dma_leaves_buffer :
    ¬ Along (inputStep false) (CmdConfined false) (.ok sdioInit) overtaking := by
  rintro ⟨-, second, -⟩
  rcases wrDtcm_cases (ready_sdioInit false) true ⟨8, 0, 8, 0⟩ with
    ⟨room, -⟩ | ⟨nothing, -⟩ | ⟨-, s', node, ok, ready', last, room, -⟩
  · cases room
  · cases nothing
  -- the node under way has the 8 bytes of the first command
  have eight : (s'.snode node).length = 8 := (Option.some.inj room).symm
  have now : inputStep false (.ok sdioInit) (.cmd true ⟨OPC_WR_DTCM, 0, fun _ => 8⟩) = .ok s' := ok
  rw [now] at second
  have fits := ((cmd_confined_iff ready' true _).mp second).1 rfl
  have room' : rxRoom false s' true ⟨4096, 0, 0, 0⟩ = some 8 := by
    simp [rxRoom, last, eight]
  exact absurd (fits 8 room' (by decide)) (by decide)

end

end Bk7251.Sdio
