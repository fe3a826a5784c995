import Bk7251.Dma.CommandFields

/-!
# The functions that set a field

Every function that sets something for a channel is a write to one field, at the address and with the bits of the
layout; different fields, of one channel or of two, are apart.
-/
namespace Bk7251.Dma

open Lib

/-! ### Addresses -/

theorem toNat_wordAt {number : Nat} (small : number < 0x60) : (wordAt number).toNat = 0x809000 + 4 * number := by
  rw [wordAt, BitVec.toNat_add, BitVec.toNat_ofNat, GENER_DMA_BASE]
  simp
  omega

theorem wordAt_inj {m n : Nat} (small : m < 0x60) (small' : n < 0x60) (same : wordAt m = wordAt n) : m = n := by
  have values := congrArg BitVec.toNat same
  rw [toNat_wordAt small, toNat_wordAt small'] at values
  omega

theorem toNat_lt {channel : Word} (valid : channel < GDMA_CHANNEL_MAX) : channel.toNat < 6 := BitVec.lt_def.mp valid

/-- The address of a word in the block of a channel. -/
theorem block_addr (slot : Nat) (channel : Word) :
    wordAt slot + channel * 8 * 4 = wordAt (slot + 8 * channel.toNat) := by
  have back : BitVec.ofNat 32 channel.toNat = channel := by simp
  rw [wordAt, wordAt, Nat.mul_add, ← Nat.mul_assoc, BitVec.ofNat_add, BitVec.ofNat_mul _ channel.toNat, back,
    BitVec.add_assoc, BitVec.mul_assoc, BitVec.mul_comm channel]
  rfl

/-- The address of a word in a table of all channels. -/
theorem table_addr (slot : Nat) (channel : Word) : wordAt slot + channel * 4 = wordAt (slot + channel.toNat) := by
  have back : BitVec.ofNat 32 channel.toNat = channel := by simp
  rw [wordAt, wordAt, Nat.mul_add, BitVec.ofNat_add, BitVec.ofNat_mul _ channel.toNat, back, BitVec.add_assoc,
    BitVec.mul_comm channel]
  rfl

namespace Field

/-- A word of the block, or one of the two tables. -/
theorem slot_stride (field : Field) :
    field.stride = 8 ∧ field.slot < 8 ∨ field.stride = 1 ∧ (field.slot = 0x40 ∨ field.slot = 0x48) := by
  cases field <;> simp [stride, slot]

theorem number_lt (field : Field) {channel : Word} (valid : channel < GDMA_CHANNEL_MAX) :
    field.slot + field.stride * channel.toNat < 0x60 := by
  have small := toNat_lt valid
  rcases field.slot_stride with ⟨stride, slot⟩ | ⟨stride, slot⟩
  · rw [stride]
    omega
  · rw [stride]
    omega

theorem fits (field : Field) : field.bits.pos + field.bits.width ≤ 32 := by
  cases field <;> decide

/-- All fields, in the order of their words and bits. -/
def all : List Field :=
  confFields ++ [.dstStartAddr, .srcStartAddr, .dstloopEndAddr, .dstloopStartAddr, .srcloopEndAddr,
    .srcloopStartAddr, .srcReq, .dstReq, .dtcmWrWaitWord, .srcPauseAddr, .dstPauseAddr]

theorem mem_all (field : Field) : field ∈ all := by
  cases field <;> decide

/-- Fields of one word have different bits. -/
theorem bits_disjoint {f g : Field} (other : f ≠ g) (same : f.slot = g.slot) : f.bits.Disjoint g.bits := by
  have pairs : ∀ f ∈ all, ∀ g ∈ all, f ≠ g → f.slot = g.slot → f.bits.Disjoint g.bits := by decide +kernel
  exact pairs f f.mem_all g g.mem_all other same

/-- Different fields, of one channel or of two, are apart. -/
theorem apart {f g : Field} {channel channel' : Word} (valid : channel < GDMA_CHANNEL_MAX)
    (valid' : channel' < GDMA_CHANNEL_MAX) (other : channel = channel' → f ≠ g) :
    (f.part channel).Apart (g.part channel') := by
  by_cases same : (f.part channel).addr = (g.part channel').addr
  · have number := wordAt_inj (f.number_lt valid) (g.number_lt valid') same
    have small := toNat_lt valid
    have small' := toNat_lt valid'
    have both : f.slot = g.slot ∧ channel.toNat = channel'.toNat := by
      rcases f.slot_stride with ⟨stride, slot⟩ | ⟨stride, slot⟩ <;>
        rcases g.slot_stride with ⟨stride', slot'⟩ | ⟨stride', slot'⟩ <;>
          (rw [stride, stride'] at number; omega)
    exact .inr (bits_disjoint (other (BitVec.eq_of_toNat_eq both.2)) both.1)
  · exact .inl same

end Field

namespace Loc

theorem fits (loc : Loc) : loc.part.bits.pos + loc.part.bits.width ≤ 32 := by
  cases loc with
  | ofChannel channel field => exact field.fits
  | prioMode => decide

theorem number_ne (field : Field) {channel : Word} (valid : channel < GDMA_CHANNEL_MAX) {number : Nat}
    (small : number < 0x60) (other : 0x30 ≤ number ∧ number < 0x40 ∨ 0x50 ≤ number) :
    wordAt (field.slot + field.stride * channel.toNat) ≠ wordAt number := by
  intro same
  have equal := wordAt_inj (field.number_lt valid) small same
  have bound := toNat_lt valid
  rcases field.slot_stride with ⟨stride, slot⟩ | ⟨stride, slot⟩
  · rw [stride] at equal
    omega
  · rw [stride] at equal
    omega

theorem apart {k l : Loc} (valid : k.Valid) (valid' : l.Valid) (other : k ≠ l) : k.part.Apart l.part := by
  cases k with
  | ofChannel channel f =>
    cases l with
    | ofChannel channel' g =>
      apply Field.apart valid valid'
      rintro rfl rfl
      exact other rfl
    | prioMode => exact .inl (number_ne f valid (by decide) (by decide))
  | prioMode =>
    cases l with
    | ofChannel channel' g => exact .inl (number_ne g valid' (by decide) (by decide)).symm
    | prioMode => exact absurd rfl other

end Loc

/-! ### Stores -/

section

variable (regs : Regs) {addr : Word} (usual : addr ≠ GENER_DMA_REG38_DMA_INT_STATUS)

theorem status_addr : GENER_DMA_REG38_DMA_INT_STATUS = wordAt 0x38 := rfl

include usual

theorem regWrite_usual (data : Word) : regWrite regs addr data = Function.update regs addr data := by
  rw [regWrite, if_neg usual]

theorem regWrite_write (data : Word) : regWrite regs addr data = (⟨addr, ⟨0, 32⟩⟩ : FieldAt Word).write regs data := by
  rw [regWrite_usual regs usual, FieldAt.write, BitField.set_whole]

theorem switchBit_write (pos : Nat) (enable : Word) :
    switchBit regs addr (1#32 <<< pos) enable =
      (⟨addr, ⟨pos, 1⟩⟩ : FieldAt Word).write regs (if enable ≠ 0 then 1 else 0) := by
  unfold switchBit
  dsimp only
  rw [regWrite_usual regs usual, FieldAt.write]
  split
  · rw [← BitField.set_one]
    rfl
  · exact congrArg _ (BitField.set_zero (f := ⟨pos, 1⟩) (regs addr)).symm

theorem insertBits_write (bits : BitField) (value : Word) :
    insertBits regs addr (bits.mask 32) bits.pos value = (⟨addr, bits⟩ : FieldAt Word).write regs value :=
  regWrite_usual regs usual _

/-- The code of a width fits into two bits as it is. -/
theorem cfgDataWidth_write (pos : Nat) (bitwidth : Word) :
    cfgDataWidth regs addr 0x3 pos bitwidth = (⟨addr, ⟨pos, 2⟩⟩ : FieldAt Word).write regs (widthCode bitwidth) := by
  have fits : widthCode bitwidth &&& 0x3 = widthCode bitwidth := by
    unfold widthCode
    split_ifs <;> decide
  have stored := insertBits_write regs usual ⟨pos, 2⟩ (widthCode bitwidth)
  rw [← stored, insertBits]
  dsimp only
  rw [show (⟨pos, 2⟩ : BitField).mask 32 = 0x3 from rfl, fits]
  rfl

end

namespace Field

/-- The function that sets the field. -/
def setter : Field → Regs → Word → Word → Regs
  | dmaEn => gdmaSetDmaEn
  | finInten => gdmaCfgFinishInten
  | hfinInten => gdmaCfgHalfFinInten
  | repeatMode => gdmaCfgWorkMode
  | srcdataWidth => gdmaCfgSrcdataWidth
  | dstdataWidth => gdmaCfgDstdataWidth
  | srcaddrInc => gdmaCfgSrcaddrIncrease
  | dstaddrInc => gdmaCfgDstaddrIncrease
  | srcaddrLoop => gdmaCfgSrcaddrLoop
  | dstaddrLoop => gdmaCfgDstaddrLoop
  | chnlPrio => gdmaSetChannelPrioprity
  | transLen => gdmaSetTransferLength
  | dstStartAddr => gdmaSetDstStartAddr
  | srcStartAddr => gdmaSetSrcStartAddr
  | dstloopEndAddr => gdmaSetDstloopEndaddr
  | dstloopStartAddr => gdmaSetDstloopStartaddr
  | srcloopEndAddr => gdmaSetSrcloopEndaddr
  | srcloopStartAddr => gdmaSetSrcloopStartaddr
  | srcReq => gdmaSetSrcReqmux
  | dstReq => gdmaSetDstReqmux
  | dtcmWrWaitWord => gdmaSetDctmWriteWd
  | srcPauseAddr => gdmaSetSrcPauseAddr
  | dstPauseAddr => gdmaSetDestPauseAddr

/-- Setting the fields of a list in turn, by the functions for them. -/
def setAll (regs : Regs) (channel : Word) (fields : List (Field × Word)) : Regs :=
  fields.foldl (fun regs x => x.1.setter regs channel x.2) regs

/-- The address for channel 0. -/
def base : Field → Word
  | dstStartAddr => GENER_DMA0_REG1_DST_START_ADDR
  | srcStartAddr => GENER_DMA0_REG2_SRC_START_ADDR
  | dstloopEndAddr => GENER_DMA0_REG3_DSTLOOP_END_ADDR
  | dstloopStartAddr => GENER_DMA0_REG4_DSTLOOP_START_ADDR
  | srcloopEndAddr => GENER_DMA0_REG5_SRCLOOP_END_ADDR
  | srcloopStartAddr => GENER_DMA0_REG6_SRCLOOP_START_ADDR
  | srcReq | dstReq | dtcmWrWaitWord => GENER_DMA0_REG7_MUX_REQS
  | srcPauseAddr => GENER_DMA0_REG40_SRC_PAUSE_ADDR
  | dstPauseAddr => GENER_DMA0_REG48_DST_PAUSE_ADDR
  | _ => GENER_DMA0_REG0_CONF

theorem base_eq (field : Field) : field.base = wordAt field.slot := by
  cases field <;> decide

/-- A field of the block is where the source looks for it. -/
theorem part_block {field : Field} (block : field.stride = 8) (channel : Word) :
    field.part channel = ⟨field.base + channel * 8 * 4, field.bits⟩ := by
  rw [part, block, field.base_eq, block_addr]

theorem part_table {field : Field} (table : field.stride = 1) (channel : Word) :
    field.part channel = ⟨field.base + channel * 4, field.bits⟩ := by
  rw [part, table, field.base_eq, table_addr, Nat.one_mul]

variable (field : Field) (regs : Regs) {channel : Word} (valid : channel < GDMA_CHANNEL_MAX) (param : Word)

include valid

theorem usual : (field.part channel).addr ≠ GENER_DMA_REG38_DMA_INT_STATUS := by
  rw [status_addr]
  exact Loc.number_ne field valid (by decide) (by decide)

/-- The function of a field is a write to it. -/
theorem setter_eq : field.setter regs channel param = (field.part channel).write regs (field.coded param) := by
  have usual := field.usual valid
  cases field with
  | srcPauseAddr | dstPauseAddr =>
    rw [part_table rfl] at usual ⊢
    exact regWrite_write regs usual param
  | dstStartAddr | srcStartAddr | dstloopEndAddr | dstloopStartAddr | srcloopEndAddr | srcloopStartAddr =>
    rw [part_block rfl] at usual ⊢
    exact regWrite_write regs usual param
  | srcdataWidth | dstdataWidth =>
    rw [part_block rfl] at usual ⊢
    exact cfgDataWidth_write regs usual _ param
  | chnlPrio =>
    rw [part_block rfl] at usual ⊢
    exact insertBits_write regs usual ⟨12, 2⟩ param
  | srcReq =>
    rw [part_block rfl] at usual ⊢
    exact insertBits_write regs usual ⟨0, 4⟩ param
  | dstReq =>
    rw [part_block rfl] at usual ⊢
    exact insertBits_write regs usual ⟨4, 4⟩ param
  | transLen =>
    rw [part_block rfl] at usual ⊢
    exact insertBits_write regs usual ⟨16, 16⟩ (param - 1)
  | _ =>
    rw [part_block rfl] at usual ⊢
    exact switchBit_write regs usual _ param

/-- Setting fields of a channel one after the other is a sequence of writes. -/
theorem setAll_eq (fields : List (Field × Word)) :
    setAll regs channel fields = FieldAt.writes regs Loc.part (put channel fields) := by
  induction fields generalizing regs with
  | nil => rfl
  | cons x fields ih =>
    rw [setAll, List.foldl_cons, x.1.setter_eq regs valid x.2]
    exact ih _

end Field

end Bk7251.Dma
