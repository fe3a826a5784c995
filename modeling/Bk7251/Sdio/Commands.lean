import Bk7251.Sdio.NodeConservation

/-!
# The commands of the host

`sdio_cmd_handler` as a whole, with the ranges it hands to the DMA and the array elements it touches; and
which commands fit the buffers and the arrays they use.
-/
namespace Bk7251.Sdio

open Lib

def OPC_WR_REG : UInt8 := 0xC5
def OPC_RD_REG : UInt8 := 0x5C
def OPC_WR_DTCM : UInt8 := 0xE3
def OPC_RD_DTCM : UInt8 := 0x3E

def MAX_CONTENT_COUNT : Nat := 15

/-- The elements of `reg_val` in `OPC_RD_REG`. -/
def REG_VAL_COUNT : Nat := 16

/-- `SDIO_CMD_S` as the host fills it in; what lies behind the array has some value too. -/
structure SdioCmd where
  opCode : UInt8
  len : UInt8
  content : Nat → UInt32

/-- The same bytes as `SDIO_DCMD_S`. -/
def SdioCmd.dcmd (cmd : SdioCmd) : SdioDcmd where
  dataLen := (cmd.content 0).toUInt16
  startLen := (cmd.content 0 >>> 16).toUInt16
  seq := (cmd.content 1).toUInt8
  totalSize := (cmd.content 1 >>> 16).toUInt16

/-- What a command does outside the lists: the transfer it starts, with the node whose buffer it is meant
for; the length of a transfer from `reg_val`; the elements of the two arrays that it touches; the words it
stores and loads. -/
structure Access where
  node : Option (Nat × Dma)
  regDma : Option UInt32
  content : List Nat
  regVal : List Nat
  stores : List (UInt32 × UInt32)
  loads : List UInt32

def Access.none : Access := ⟨.none, .none, [], [], [], []⟩

/-- `(len - 4) >> 3`, kept in a byte. -/
def wrRegNumb (len : UInt8) : UInt8 := UInt8.ofInt (((len.toNat : Int) - 4) >>> (3 : Nat))

/-- `(len - 4) >> 2`, kept in a byte. -/
def rdRegNumb (len : UInt8) : UInt8 := UInt8.ofInt (((len.toNat : Int) - 4) >>> (2 : Nat))

/-- `OPC_WR_REG`: the addresses, and as many values behind them. -/
def wrReg (cmd : SdioCmd) : Access :=
  let regNumb := (wrRegNumb cmd.len).toNat
  { Access.none with
    content := (List.range regNumb).flatMap fun i => [i, i + regNumb]
    stores := (List.range regNumb).map fun i => (cmd.content i, cmd.content (i + regNumb)) }

/-- `OPC_RD_REG`: the registers are loaded into `reg_val`, which goes to the host. -/
def rdReg (cmd : SdioCmd) : Access :=
  let regNumb := (rdRegNumb cmd.len).toNat
  { Access.none with
    content := List.range regNumb
    regVal := List.range regNumb
    loads := (List.range regNumb).map cmd.content
    -- an empty transfer is asserted not to be
    regDma := if regNumb = 0 then .none else some (min32 64 (UInt32.ofNat (4 * regNumb))) }

/-- The transfer that a command has started; its node was pushed to the end of the list. -/
def started (list : SdioS → List Nat) : Except Stop SdioS → Option (Nat × Dma)
  | .ok s => s.dma.bind fun dma => (list s).getLast?.map fun node => (node, dma)
  | .error _ => none

/-- `sdio_cmd_handler`; first of all `sdma_fake_stop_dma`. -/
def sdioCmdHandler (blk512 : Bool) (s : SdioS) (malloc : Bool) (cmd : SdioCmd) :
    Except Stop SdioS × Access :=
  let s := { s with dma := none }
  if cmd.opCode = OPC_WR_DTCM then
    let r := wrDtcm blk512 s malloc cmd.dcmd
    (r, { Access.none with node := started SdioS.rxingList r })
  else if cmd.opCode = OPC_RD_DTCM then
    let r := rdDtcm blk512 s cmd.dcmd
    (r, { Access.none with node := started SdioS.txingList r })
  else if cmd.opCode = OPC_WR_REG then (.ok s, wrReg cmd)
  else if cmd.opCode = OPC_RD_REG then
    (if rdRegNumb cmd.len = 0 then .error .assert else .ok s, rdReg cmd)
  else (.ok s, Access.none)

/-! ### What has to hold -/

/-- The range lies in the block that was allocated for the node. -/
def InBuffer (s : SdioS) (node : Nat) (dma : Dma) : Prop :=
  ∃ a size, dma.addr = some a ∧ (s.snode node).origAddr = some a.block ∧
    s.heap.get? a.block = some size ∧ a.off.toNat + dma.off.toNat + dma.len.toNat ≤ size.toNat

structure Confined (r : Except Stop SdioS × Access) : Prop where
  node : ∀ s, r.1 = .ok s → ∀ p, r.2.node = some p → InBuffer s p.1 p.2
  regDma : ∀ len, r.2.regDma = some len → len.toNat ≤ 4 * REG_VAL_COUNT
  content : ∀ i ∈ r.2.content, i < MAX_CONTENT_COUNT
  regVal : ∀ i ∈ r.2.regVal, i < REG_VAL_COUNT

/-- A command of the host, or one of the other events: a completion, a call, a change to a node that a
caller has. -/
inductive Input
  | cmd (malloc : Bool) (cmd : SdioCmd)
  | event (e : Event) (software : ∀ malloc cmd, e ≠ .wrDtcm malloc cmd ∧ e ≠ .rdDtcm cmd)

/-- A firmware that has stopped stays so. -/
def inputStep (blk512 : Bool) : Except Stop SdioS → Input → Except Stop SdioS
  | .ok s, .cmd malloc cmd => (sdioCmdHandler blk512 s malloc cmd).1
  | .ok s, .event e _ => step blk512 s e
  | .error stop, _ => .error stop

def CmdConfined (blk512 : Bool) : Except Stop SdioS → Input → Prop
  | .ok s, .cmd malloc cmd => Confined (sdioCmdHandler blk512 s malloc cmd)
  | _, _ => True

/-! ### Which commands are all right -/

/-- The size of the buffer that a command to write transfers to: that of the frame under way, or of a new
one, for which there is memory and a node. -/
def rxRoom (blk512 : Bool) (s : SdioS) (malloc : Bool) (cmd : SdioDcmd) : Option UInt32 :=
  match s.rxingList with
  | node :: _ =>
    if blk512 ∧ s.rxSeq ≠ cmd.seq then if malloc then some (mSize cmd.totalSize) else none
    else some (s.snode node).length
  | [] =>
    let size := if blk512 then mSize cmd.totalSize else cmd.dataLen.toUInt32
    if malloc ∧ s.freeNodes ≠ [] ∧ size ≠ 0 then some size else none

/-- The transfer ends in the buffer, or in the 24 bytes that are allocated behind it. -/
def WrFits (blk512 : Bool) (s : SdioS) (malloc : Bool) (cmd : SdioDcmd) : Prop :=
  ∀ room, rxRoom blk512 s malloc cmd = some room → cmd.dataLen ≠ 0 →
    (if blk512 then cmd.startLen.toNat + cmd.dataLen.toNat else min BLOCK_LEN.toNat cmd.dataLen.toNat) ≤
      room.toNat + 24

/-- The bytes of the node's block from `a` on. -/
def roomBehind (s : SdioS) (node : Nat) (a : Addr) : Nat :=
  if (s.snode node).origAddr = some a.block then
    ((s.heap.get? a.block).elim 0 UInt32.toNat) - a.off.toNat
  else 0

/-- The host asks for no more than is left of the block of the frame under way or of the next one. -/
def RdFits (blk512 : Bool) (s : SdioS) (cmd : SdioDcmd) : Prop :=
  ∀ node, (s.txingList ++ s.txDat).head? = some node → ∀ a, (s.snode node).addr = some a →
    cmd.dataLen ≠ 0 →
    (if blk512 then s.tcLen.toNat else 0) + min BLOCK_LEN.toNat cmd.dataLen.toNat ≤ roomBehind s node a

/-- The number of registers is that of the command buffer at most, and not taken from a length below 4. -/
def RegFits (cmd : SdioCmd) : Prop := 4 ≤ cmd.len ∧ cmd.len ≤ 67

def CmdFits (blk512 : Bool) : Except Stop SdioS → Input → Prop
  | .ok s, .cmd malloc cmd =>
    (cmd.opCode = OPC_WR_DTCM → WrFits blk512 s malloc cmd.dcmd) ∧
    (cmd.opCode = OPC_RD_DTCM → RdFits blk512 s cmd.dcmd) ∧
    (cmd.opCode = OPC_WR_REG ∨ cmd.opCode = OPC_RD_REG → RegFits cmd)
  | _, _ => True

/-! ### The registers -/

theorem toNat_ofInt (x : Int) : (UInt8.ofInt x).toNat = (x % 256).toNat := by
  rw [UInt8.ofInt, UInt8.toNat_ofNat']
  omega

theorem regNumb_cases (len : UInt8) :
    (len.toNat < 4 ∧ (wrRegNumb len).toNat = 255 ∧ (rdRegNumb len).toNat = 255) ∨
    (4 ≤ len.toNat ∧ (wrRegNumb len).toNat = (len.toNat - 4) / 8 ∧
      (rdRegNumb len).toNat = (len.toNat - 4) / 4) := by
  have bound := len.toNat_lt
  rw [wrRegNumb, rdRegNumb, Int.shiftRight_eq_div_pow, Int.shiftRight_eq_div_pow, toNat_ofInt, toNat_ofInt]
  by_cases short : len.toNat < 4
  · -- a length below 4 gives a number below 0, which is 255 in a byte
    exact .inl ⟨short, by omega, by omega⟩
  · exact .inr ⟨by omega, by omega, by omega⟩

theorem regFits_iff (cmd : SdioCmd) : RegFits cmd ↔ 4 ≤ cmd.len.toNat ∧ cmd.len.toNat ≤ 67 := by
  rw [RegFits, UInt8.le_iff_toNat_le, UInt8.le_iff_toNat_le]
  rfl

theorem wrReg_fits (cmd : SdioCmd) :
    (∀ i ∈ (wrReg cmd).content, i < MAX_CONTENT_COUNT) ↔ RegFits cmd := by
  have numbers := regNumb_cases cmd.len
  have elements : ∀ i, i ∈ (wrReg cmd).content ↔
      ∃ j < (wrRegNumb cmd.len).toNat, i = j ∨ i = j + (wrRegNumb cmd.len).toNat := by
    intro i
    simp [wrReg, Access.none]
  rw [regFits_iff]
  constructor
  · intro inside
    by_contra outside
    -- the last value is an element of the array, or there would be no registers
    have last := inside ((wrRegNumb cmd.len).toNat - 1 + (wrRegNumb cmd.len).toNat)
      ((elements _).mpr ⟨_, by omega, .inr rfl⟩)
    simp only [MAX_CONTENT_COUNT] at last
    omega
  · rintro fits i member
    obtain ⟨j, bound, rfl | rfl⟩ := (elements i).mp member
    all_goals
      simp only [MAX_CONTENT_COUNT]
      omega

theorem rdReg_fits (cmd : SdioCmd) :
    ((∀ len, (rdReg cmd).regDma = some len → len.toNat ≤ 4 * REG_VAL_COUNT) ∧
      (∀ i ∈ (rdReg cmd).content, i < MAX_CONTENT_COUNT) ∧
      ∀ i ∈ (rdReg cmd).regVal, i < REG_VAL_COUNT) ↔ RegFits cmd := by
  have numbers := regNumb_cases cmd.len
  have elements : ∀ i, i ∈ (rdReg cmd).content ↔ i < (rdRegNumb cmd.len).toNat := by
    intro i
    simp [rdReg, Access.none]
  have values : ∀ i, i ∈ (rdReg cmd).regVal ↔ i < (rdRegNumb cmd.len).toNat := by
    intro i
    simp [rdReg, Access.none]
  rw [regFits_iff]
  constructor
  · rintro ⟨-, inside, -⟩
    by_contra outside
    -- the last address is an element of the array, or there would be no registers
    have last := inside ((rdRegNumb cmd.len).toNat - 1) ((elements _).mpr (by omega))
    simp only [MAX_CONTENT_COUNT] at last
    omega
  · intro fits
    refine ⟨?_, ?_, ?_⟩
    · intro len transfer
      simp only [rdReg] at transfer
      split at transfer
      · cases transfer
      · cases transfer
        rw [toNat_min32]
        exact Nat.min_le_left _ _
    · intro i member
      have bound := (elements i).mp member
      simp only [MAX_CONTENT_COUNT]
      omega
    · intro i member
      have bound := (values i).mp member
      simp only [REG_VAL_COUNT]
      omega

end Bk7251.Sdio
