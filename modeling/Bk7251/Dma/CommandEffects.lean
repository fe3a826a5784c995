import Bk7251.Dma.FieldWrites

/-!
# What a command of the DMA does

A command with a `GDMA_CFG_ST` is one write, a type clears the configuration word and then writes its fields in turn.
So a command that comes back has set what it says, and has changed nothing else.
-/
namespace Bk7251.Dma

open Lib

/-! ### Commands with a `GDMA_CFG_ST` -/

theorem read_writes_valid {sets : List (Loc × Word)} {l : Loc} (regs : Regs) (valid : l.Valid)
    (all : ∀ x ∈ sets, x.1.Valid) :
    l.part.read (FieldAt.writes regs Loc.part sets) = FieldAt.held Loc.part sets l (l.part.read regs) := by
  apply FieldAt.read_writes regs l.fits
  intro x member other
  exact Loc.apart valid (all x member) other.symm

theorem read_write_valid {k l : Loc} (regs : Regs) (value : Word) (valid : k.Valid) (valid' : l.Valid) :
    l.part.read (k.part.write regs value) = FieldAt.held Loc.part [(k, value)] l (l.part.read regs) := by
  have all : ∀ x ∈ [(k, value)], x.1.Valid := List.forall_mem_singleton.mpr valid
  have stored := read_writes_valid regs valid' all
  exact stored

theorem valid_put {channel : Word} (valid : channel < GDMA_CHANNEL_MAX) (fields : List (Field × Word)) :
    ∀ x ∈ put channel fields, x.1.Valid := by
  intro x member
  obtain ⟨_, _, rfl⟩ := List.mem_map.mp member
  exact valid

/-- No command sets what the hardware tells. -/
theorem Loc.apart_status {l : Loc} (valid : l.Valid) (status : Status) {channel : Word}
    (valid' : channel < GDMA_CHANNEL_MAX) : l.part.Apart (status.part channel) := by
  have small := toNat_lt valid'
  obtain ⟨number, bits, same, below, table⟩ : ∃ number bits, status.part channel = ⟨wordAt number, bits⟩ ∧
      number < 0x60 ∧ (0x30 ≤ number ∧ number < 0x37 ∨ number = 0x38 ∨ 0x50 ≤ number) := by
    cases status <;> exact ⟨_, _, rfl, by omega, by omega⟩
  rw [same]
  cases l with
  | ofChannel channel' field => exact .inl (number_ne field valid below (by omega))
  | prioMode =>
    left
    intro equal
    have := wordAt_inj (by decide) below equal
    omega

section

variable {s : Gdma} {cmd : CfgCmd} {dmaCfg : GdmaCfg} {field : Field}

/-- A command that names a field calls its function. -/
theorem ctrlCfg_field (names : cmd.field? = some field) :
    ctrlCfg s cmd dmaCfg =
      ({ s with regs := field.setter s.regs dmaCfg.channel dmaCfg.param }, ICU_SUCCESS) := by
  cases cmd <;> cases names <;> rfl

theorem sets_field (names : cmd.field? = some field) :
    (Command.withCfg cmd dmaCfg).sets = put dmaCfg.channel [(field, dmaCfg.param)] := by
  cases cmd <;> cases names <;> rfl

theorem parts_field (names : cmd.field? = some field) :
    (Command.withCfg cmd dmaCfg).parts = [field.part dmaCfg.channel] := by
  cases cmd <;> cases names <;> rfl

theorem reads_field (names : cmd.field? = some field) : (Command.withCfg cmd dmaCfg).reads = none := by
  cases cmd <;> cases names <;> rfl

theorem valid_field (names : cmd.field? = some field) (valid : (Command.withCfg cmd dmaCfg).Valid) :
    dmaCfg.channel < GDMA_CHANNEL_MAX := by
  cases cmd <;> first | exact valid | cases names

theorem gdmaSetPriority_eq (regs : Regs) (fixed : Word) :
    gdmaSetPriority regs fixed = Loc.prioMode.part.write regs (if fixed ≠ 0 then 1 else 0) := by
  have usual : GENER_DMA_REG37_PRIO_MODE ≠ GENER_DMA_REG38_DMA_INT_STATUS := by decide
  exact switchBit_write regs usual 0 fixed

/-- Writing a 1 to the interrupt status clears one bit of it. -/
theorem regWrite_status (regs : Regs) (pos : Nat) :
    regWrite regs GENER_DMA_REG38_DMA_INT_STATUS (1#32 <<< pos) =
      (⟨wordAt 0x38, ⟨pos, 1⟩⟩ : FieldAt Word).write regs 0 := by
  rw [regWrite, if_pos rfl]
  exact congrArg _ (BitField.set_zero (f := ⟨pos, 1⟩) _).symm

theorem gdmaClrFinishInterruptBit_eq (regs : Regs) (channel : Word) :
    gdmaClrFinishInterruptBit regs channel = (Status.finInt.part channel).write regs 0 :=
  regWrite_status regs channel.toNat

theorem toNat_hfin {channel : Word} (valid : channel < GDMA_CHANNEL_MAX) :
    (channel + BitVec.ofNat 32 GENER_DMA_HFIN_INT_STATUS_POSI).toNat = channel.toNat + 8 := by
  have small := toNat_lt valid
  rw [BitVec.toNat_add, BitVec.toNat_ofNat, GENER_DMA_HFIN_INT_STATUS_POSI]
  omega

theorem gdmaClrHalfFinishInterruptBit_eq (regs : Regs) {channel : Word} (valid : channel < GDMA_CHANNEL_MAX) :
    gdmaClrHalfFinishInterruptBit regs channel = (Status.hfinInt.part channel).write regs 0 := by
  rw [gdmaClrHalfFinishInterruptBit, BitVec.shiftLeft_eq', toNat_hfin valid]
  exact regWrite_status regs (channel.toNat + 8)

/-- What a command with a `GDMA_CFG_ST` does to the registers: it writes to a field, clears a status bit, or does
nothing. -/
theorem ctrlCfg_cases (valid : (Command.withCfg cmd dmaCfg).Valid) :
    (∃ loc value, loc.Valid ∧ (Command.withCfg cmd dmaCfg).sets = [(loc, value)] ∧
      (Command.withCfg cmd dmaCfg).parts = [loc.part] ∧
      (ctrlCfg s cmd dmaCfg).1 = { s with regs := loc.part.write s.regs value }) ∨
    (Command.withCfg cmd dmaCfg).sets = [] ∧
      ((∃ status channel, channel < GDMA_CHANNEL_MAX ∧
        (Command.withCfg cmd dmaCfg).parts = [Status.part status channel] ∧
        (ctrlCfg s cmd dmaCfg).1 = { s with regs := (status.part channel).write s.regs 0 }) ∨
      (ctrlCfg s cmd dmaCfg).1 = s) := by
  cases names : cmd.field? with
  | some field =>
    have inside := valid_field names valid
    refine .inl ⟨.ofChannel dmaCfg.channel field, field.coded dmaCfg.param, inside, sets_field names,
      parts_field names, ?_⟩
    rw [ctrlCfg_field names, field.setter_eq s.regs inside]
    rfl
  | none =>
    cases cmd with
    | setPrioMode =>
      refine .inl ⟨.prioMode, _, trivial, rfl, rfl, ?_⟩
      exact congrArg (fun regs => { s with regs }) (gdmaSetPriority_eq s.regs dmaCfg.param)
    | clrFinIntStatus =>
      refine .inr ⟨rfl, .inl ⟨.finInt, dmaCfg.channel, valid, rfl, ?_⟩⟩
      exact congrArg (fun regs => { s with regs }) (gdmaClrFinishInterruptBit_eq s.regs dmaCfg.channel)
    | clrHfinIntStatus =>
      refine .inr ⟨rfl, .inl ⟨.hfinInt, dmaCfg.channel, valid, rfl, ?_⟩⟩
      exact congrArg (fun regs => { s with regs }) (gdmaClrHalfFinishInterruptBit_eq s.regs valid)
    | getRemainLength | setHfinCnt | getFinIntStatus | getHfinIntStatus | getSrcPauseAddr | getDstPauseAddr
    | getSrcReadAddr | getDstWriteAddr => exact .inr ⟨rfl, .inr rfl⟩
    | _ => cases names

end

/-! ### Commands with a `GDMACFG_TPYES_ST` -/

section

variable (regs : Regs) {channel : Word} (valid : channel < GDMA_CHANNEL_MAX)

theorem Field.mem_confFields {field : Field} (first : field.slot = 0) : field ∈ confFields := by
  cases field <;> first | decide | cases first

theorem slot_stride_conf : ∀ field ∈ confFields, field.slot = 0 ∧ field.stride = 8 := by decide

/-- The configuration word of a channel. -/
def conf (channel : Word) : FieldAt Word := ⟨wordAt (0 + 8 * channel.toNat), ⟨0, 32⟩⟩

include valid

theorem regWrite_conf (data : Word) :
    regWrite regs (GENER_DMA0_REG0_CONF + channel * 8 * 4) data = (conf channel).write regs data := by
  have usual := Field.dmaEn.usual valid
  rw [Field.part_block rfl] at usual
  have stored := regWrite_write regs usual data
  rw [Field.base_eq, block_addr] at stored
  rw [show GENER_DMA0_REG0_CONF = wordAt 0 from rfl, block_addr]
  exact stored

/-- The fields of the configuration word are those of the channel that have its address. -/
theorem addr_eq_conf {l : Loc} (valid' : l.Valid) :
    l.part.addr = (conf channel).addr ↔ l ∈ confFields.map (Loc.ofChannel channel) := by
  have bound := toNat_lt valid
  constructor
  · intro same
    cases l with
    | ofChannel channel' field =>
      have number := wordAt_inj (field.number_lt valid') (by omega) same
      have bound' := toNat_lt valid'
      obtain ⟨first, here⟩ : field.slot = 0 ∧ channel.toNat = channel'.toNat := by
        rcases field.slot_stride with ⟨stride, slot⟩ | ⟨stride, slot⟩
        · rw [stride] at number
          omega
        · rw [stride] at number
          omega
      rw [← BitVec.eq_of_toNat_eq here]
      exact List.mem_map_of_mem (Field.mem_confFields first)
    | prioMode =>
      have number := wordAt_inj (by decide) (by omega) same
      omega
  · intro member
    obtain ⟨field, inside, rfl⟩ := List.mem_map.mp member
    obtain ⟨slot, stride⟩ := slot_stride_conf field inside
    simp only [Loc.part, Field.part, slot, stride, conf]

/-- Clearing the configuration word is setting all its fields to 0. -/
theorem read_conf_cleared {l : Loc} (valid' : l.Valid) :
    l.part.read ((conf channel).write regs 0) =
      FieldAt.held Loc.part (confFields.map fun field => (.ofChannel channel field, 0)) l (l.part.read regs) := by
  have keys : (confFields.map fun field => (Loc.ofChannel channel field, (0 : Word))) =
      (confFields.map (Loc.ofChannel channel)).map fun key => (key, (0 : Word)) := by
    rw [List.map_map]
    rfl
  rw [FieldAt.held, keys, lastSet_map_const]
  by_cases same : l.part.addr = (conf channel).addr
  · -- also the bits that are in no field become 0, so the whole word is
    rw [if_pos ((addr_eq_conf valid valid').mp same), FieldAt.read, FieldAt.write, same, Function.update_self]
    have cleared : (conf channel).bits.set (regs (conf channel).addr) 0 = 0#32 := BitField.set_whole _ _
    rw [cleared, BitField.get_zero]
    exact BitVec.zero_and.symm
  · rw [if_neg fun member => same ((addr_eq_conf valid valid').mpr member)]
    exact FieldAt.read_write_of_apart regs 0 (.inl same)

end

section

variable (s : Gdma) (cfg : GdmaCfgTypes)

theorem cfgHandlers_regs : (cfgHandlers s cfg).regs = Field.setAll s.regs cfg.channel cfg.handlers := by
  unfold cfgHandlers GdmaCfgTypes.handlers
  split_ifs <;> rfl

variable {cmd : TypeCmd} (valid : cfg.channel < GDMA_CHANNEL_MAX)

include valid

/-- A type clears the configuration word of its channel, and then sets its fields. -/
theorem ctrlTypes_regs (sets : cmd ≠ .cfgType6) :
    (ctrlTypes s cmd cfg).regs =
      Field.setAll ((conf cfg.channel).write s.regs 0) cfg.channel (cmd.fields cfg) := by
  have inside : ¬ cfg.channel ≥ GDMA_CHANNEL_MAX := BitVec.not_le.mpr valid
  rw [← regWrite_conf s.regs valid]
  cases cmd with
  | cfgType0 =>
    rw [ctrlTypes, gdmaCongfigType0, if_neg inside]
    rfl
  | cfgType1 =>
    rw [ctrlTypes, gdmaCongfigType1, if_neg inside]
    rfl
  | cfgType2 =>
    rw [ctrlTypes, gdmaCongfigType2, if_neg inside]
    rfl
  | cfgType3 =>
    rw [ctrlTypes, gdmaCongfigType3, if_neg inside]
    rfl
  -- the handlers come last, and only those that are given
  | cfgType4 =>
    rw [ctrlTypes, gdmaCongfigType4, if_neg inside, cfgHandlers_regs, TypeCmd.fields, Field.setAll, Field.setAll,
      List.foldl_append]
    rfl
  | cfgType5 =>
    rw [ctrlTypes, gdmaCongfigType5, if_neg inside, cfgHandlers_regs, TypeCmd.fields, Field.setAll, Field.setAll,
      List.foldl_append]
    rfl
  | cfgType6 => exact absurd rfl sets

theorem ctrlTypes_handlers {channel : Word} (other : cfg.channel ≠ channel) :
    (ctrlTypes s cmd cfg).pDmaFinHandler channel = s.pDmaFinHandler channel ∧
      (ctrlTypes s cmd cfg).pDmaHfinHandler channel = s.pDmaHfinHandler channel := by
  have kept (s : Gdma) : (cfgHandlers s cfg).pDmaFinHandler channel = s.pDmaFinHandler channel ∧
      (cfgHandlers s cfg).pDmaHfinHandler channel = s.pDmaHfinHandler channel := by
    unfold cfgHandlers
    split_ifs <;> simp [Function.update_of_ne other.symm]
  have inside : ¬ cfg.channel ≥ GDMA_CHANNEL_MAX := BitVec.not_le.mpr valid
  cases cmd with
  | cfgType4 =>
    rw [ctrlTypes, gdmaCongfigType4, if_neg inside]
    exact kept _
  | cfgType5 =>
    rw [ctrlTypes, gdmaCongfigType5, if_neg inside]
    exact kept _
  | _ => exact ⟨rfl, rfl⟩

omit valid in
/-- No type sets the pause addresses. -/
theorem stride_fields (cmd : TypeCmd) : ∀ x ∈ cmd.fields cfg, x.1.stride = 8 := by
  have ends : ∀ x ∈ cfg.handlers, x.1.stride = 8 := by
    unfold GdmaCfgTypes.handlers
    split_ifs <;> simp [Field.stride]
  cases cmd with
  | cfgType4 | cfgType5 =>
    simpa [TypeCmd.fields, GdmaCfgTypes.modules, GdmaCfgTypes.widths, or_imp, forall_and, Field.stride] using ends
  | _ => simp [TypeCmd.fields, GdmaCfgTypes.memory, GdmaCfgTypes.widths, or_imp, forall_and, Field.stride]

/-- After a type, every field holds what the type set last for it. -/
theorem read_ctrlTypes {l : Loc} (valid' : l.Valid) :
    l.part.read (ctrlTypes s cmd cfg).regs =
      FieldAt.held Loc.part (Command.withTypes cmd cfg).sets l (l.part.read s.regs) := by
  by_cases sets : cmd = .cfgType6
  · subst sets
    rfl
  · have split : (Command.withTypes cmd cfg).sets =
        (confFields.map fun field => (.ofChannel cfg.channel field, 0)) ++ put cfg.channel (cmd.fields cfg) := by
      cases cmd <;> first | rfl | exact absurd rfl sets
    -- what the clearing leaves is what the writes after it start from
    rw [split, FieldAt.held_append, ← read_conf_cleared s.regs valid valid', ctrlTypes_regs s cfg valid sets,
      Field.setAll_eq _ valid]
    exact read_writes_valid _ valid' (valid_put valid _)

/-- A type changes nothing outside the words of its channel. -/
theorem getLsbD_ctrlTypes_outside {addr : Word} {i : Nat}
    (outside : ∀ p ∈ (Command.withTypes cmd cfg).parts, ¬ p.Covers addr i) :
    ((ctrlTypes s cmd cfg).regs addr).getLsbD i = (s.regs addr).getLsbD i := by
  by_cases sets : cmd = .cfgType6
  · subst sets
    rfl
  · have word (slot : Nat) (block : slot < 8) (small : i < 32) : wordAt (slot + 8 * cfg.channel.toNat) ≠ addr := by
      intro same
      have member : (⟨wordAt (slot + 8 * cfg.channel.toNat), ⟨0, 32⟩⟩ : FieldAt Word) ∈
          (Command.withTypes cmd cfg).parts :=
        List.mem_map_of_mem (f := fun slot => (⟨wordAt (slot + 8 * cfg.channel.toNat), ⟨0, 32⟩⟩ : FieldAt Word))
          (List.mem_range.mpr block)
      exact outside _ member ⟨same, Nat.zero_le i, by simpa using small⟩
    rw [ctrlTypes_regs s cfg valid sets, Field.setAll_eq _ valid, FieldAt.getLsbD_writes_outside]
    · apply FieldAt.getLsbD_write_outside
      rintro ⟨same, _, small⟩
      exact word 0 (by decide) (by simpa [conf] using small) same
    · -- a field of the block lies in the word of its slot
      intro x member
      obtain ⟨⟨field, param⟩, inside, rfl⟩ := List.mem_map.mp member
      rintro ⟨same, _, small⟩
      have stride : field.stride = 8 := stride_fields cfg cmd _ inside
      have slot : field.slot < 8 := by
        rcases field.slot_stride with ⟨_, slot⟩ | ⟨other, _⟩
        · exact slot
        · omega
      refine word field.slot slot (Nat.lt_of_lt_of_le small field.fits) ?_
      rw [← same, Loc.part, Field.part, stride]

end

/-! ### What is returned -/

section

variable (regs : Regs) (channel : Word)

theorem gdmaGetRemainLen_eq : gdmaGetRemainLen regs channel = (Status.remainLen.part channel).read regs := by
  rw [gdmaGetRemainLen, show GENER_DMA0_REG30_INT_CNTS = wordAt 0x30 from rfl, table_addr]
  rfl

theorem gdmaGetFinishCnt_eq : gdmaGetFinishCnt regs channel = (Status.finCnt.part channel).read regs := by
  rw [gdmaGetFinishCnt, show GENER_DMA0_REG30_INT_CNTS = wordAt 0x30 from rfl, table_addr]
  rfl

theorem gdmaGetHalfFinishCnt_eq : gdmaGetHalfFinishCnt regs channel = (Status.hfinCnt.part channel).read regs := by
  rw [gdmaGetHalfFinishCnt, show GENER_DMA0_REG30_INT_CNTS = wordAt 0x30 from rfl, table_addr]
  rfl

theorem gdmaGetSrcPauseAddr_eq : gdmaGetSrcPauseAddr regs channel = (Field.srcPauseAddr.part channel).read regs := by
  rw [Field.part_table rfl]
  exact (BitField.get_whole _).symm

theorem gdmaGetSrcReadAddr_eq : gdmaGetSrcReadAddr regs channel = (Status.srcRdAddr.part channel).read regs := by
  rw [gdmaGetSrcReadAddr, show GENER_DMA0_REG50_SRC_RD_ADDR = wordAt 0x50 from rfl, table_addr]
  exact (BitField.get_whole _).symm

theorem gdmaGetDestWriteAddr_eq : gdmaGetDestWriteAddr regs channel = (Status.dstWrAddr.part channel).read regs := by
  rw [gdmaGetDestWriteAddr, show GENER_DMA0_REG58_DST_WR_ADDR = wordAt 0x58 from rfl, table_addr]
  exact (BitField.get_whole _).symm

variable {channel} (valid : channel < GDMA_CHANNEL_MAX)

include valid

/-- The bits of all channels are looked at. -/
theorem getLsbD_status_mask : GENER_DMA_FIN_INT_STATUS_MASK.getLsbD channel.toNat = true := by
  have small := toNat_lt valid
  have mask := BitField.getLsbD_mask ⟨0, 6⟩ (w := 32) channel.toNat
  rwa [decide_eq_true small, decide_eq_true (Nat.lt_trans small (by decide))] at mask

theorem gdmaGetFinishInterruptBit_eq :
    gdmaGetFinishInterruptBit regs channel = (Status.finInt.part channel).read regs :=
  BitField.get_one _ (getLsbD_status_mask valid)

theorem gdmaGetHalfFinishInterruptBit_eq :
    gdmaGetHalfFinishInterruptBit regs channel = (Status.hfinInt.part channel).read regs := by
  unfold gdmaGetHalfFinishInterruptBit
  dsimp only
  rw [BitVec.shiftLeft_eq', BitVec.ushiftRight_eq', toNat_hfin valid]
  apply BitField.get_one
  have small := toNat_lt valid
  have shifted : ¬ channel.toNat + 8 < 8 := by omega
  have within : channel.toNat + 8 < 32 := by omega
  rw [BitVec.getLsbD_shiftLeft, GENER_DMA_HFIN_INT_STATUS_POSI, Nat.add_sub_cancel, decide_eq_true within,
    decide_eq_false shifted]
  exact getLsbD_status_mask valid

end

/-! ### One command -/

section

variable {s t : Gdma} {ret : Word} {command : Command}

theorem gdmaCtrl_withChannel {cmd : ChannelCmd} {channel : Word} (nonzero : channel ≠ 0)
    (valid : channel < GDMA_CHANNEL_MAX) :
    gdmaCtrl s (.withChannel cmd channel) = some (s, (Command.withChannel cmd channel).result s.regs) := by
  have present : (Command.withChannel cmd channel).isNull = false := decide_eq_false nonzero
  unfold gdmaCtrl
  rw [present, if_neg Bool.false_ne_true]
  cases cmd with
  | setFinCnt => exact congrArg (fun ret => some (s, ret)) (gdmaGetFinishCnt_eq s.regs channel)
  | getLeftLen =>
    dsimp only
    rw [gdmaGetReceivedLen, if_neg (BitVec.not_le.mpr valid), gdmaGetRemainLen_eq]
    rfl

/-- What a command with a `GDMA_CFG_ST` should return, it does return, with one exception. -/
theorem ctrlCfg_snd {cmd : CfgCmd} {dmaCfg : GdmaCfg} (valid : (Command.withCfg cmd dmaCfg).Valid)
    (other : cmd ≠ .getDstPauseAddr) :
    (ctrlCfg s cmd dmaCfg).2 = (Command.withCfg cmd dmaCfg).result s.regs := by
  cases names : cmd.field? with
  | some field =>
    rw [ctrlCfg_field names, Command.result, reads_field names]
    rfl
  | none =>
    cases cmd with
    | getRemainLength => exact gdmaGetRemainLen_eq s.regs dmaCfg.channel
    | setHfinCnt => exact gdmaGetHalfFinishCnt_eq s.regs dmaCfg.channel
    | getFinIntStatus => exact gdmaGetFinishInterruptBit_eq s.regs valid
    | getHfinIntStatus => exact gdmaGetHalfFinishInterruptBit_eq s.regs valid
    | getSrcPauseAddr => exact gdmaGetSrcPauseAddr_eq s.regs dmaCfg.channel
    | getDstPauseAddr => exact absurd rfl other
    | getSrcReadAddr => exact gdmaGetSrcReadAddr_eq s.regs dmaCfg.channel
    | getDstWriteAddr => exact gdmaGetDestWriteAddr_eq s.regs dmaCfg.channel
    | setPrioMode | clrFinIntStatus | clrHfinIntStatus => rfl
    | _ => cases names

/-- What a command that comes back has changed. -/
theorem gdmaCtrl_only (valid : command.Valid) (ran : gdmaCtrl s command = some (t, ret)) : Only command s t := by
  cases command with
  | withCfg cmd dmaCfg =>
    obtain rfl : (ctrlCfg s cmd dmaCfg).1 = t := congrArg Prod.fst (Option.some.inj ran)
    rcases ctrlCfg_cases (s := s) valid with ⟨loc, value, _, _, parts, stored⟩ |
      ⟨_, ⟨status, channel, _, parts, stored⟩ | same⟩
    · rw [stored]
      refine ⟨fun addr i outside => ?_, fun _ _ => ⟨rfl, rfl⟩⟩
      rw [parts] at outside
      exact loc.part.getLsbD_write_outside s.regs value (outside _ List.mem_cons_self)
    · rw [stored]
      refine ⟨fun addr i outside => ?_, fun _ _ => ⟨rfl, rfl⟩⟩
      rw [parts] at outside
      exact (status.part channel).getLsbD_write_outside s.regs 0 (outside _ List.mem_cons_self)
    · rw [same]
      exact ⟨fun _ _ _ => rfl, fun _ _ => ⟨rfl, rfl⟩⟩
  | withTypes cmd cfg =>
    obtain rfl : ctrlTypes s cmd cfg = t := congrArg Prod.fst (Option.some.inj ran)
    refine ⟨fun addr i outside => getLsbD_ctrlTypes_outside s cfg valid outside, fun channel other => ?_⟩
    exact ctrlTypes_handlers s cfg valid fun same => other (congrArg some same)
  | withChannel cmd channel =>
    by_cases zero : channel = 0
    · subst zero
      cases ran
    · rw [gdmaCtrl_withChannel zero valid] at ran
      obtain rfl : s = t := congrArg Prod.fst (Option.some.inj ran)
      exact ⟨fun _ _ _ => rfl, fun _ _ => ⟨rfl, rfl⟩⟩
  | other =>
    obtain rfl : s = t := congrArg Prod.fst (Option.some.inj ran)
    exact ⟨fun _ _ _ => rfl, fun _ _ => ⟨rfl, rfl⟩⟩

/-- A command that comes back leaves in every field what it set last, or what was there. -/
theorem gdmaCtrl_read (valid : command.Valid) (ran : gdmaCtrl s command = some (t, ret)) {l : Loc}
    (valid' : l.Valid) : l.part.read t.regs = FieldAt.held Loc.part command.sets l (l.part.read s.regs) := by
  cases command with
  | withCfg cmd dmaCfg =>
    obtain rfl : (ctrlCfg s cmd dmaCfg).1 = t := congrArg Prod.fst (Option.some.inj ran)
    rcases ctrlCfg_cases (s := s) valid with ⟨loc, value, inside, sets, _, stored⟩ |
      ⟨sets, ⟨status, channel, inside, _, stored⟩ | same⟩
    · rw [stored, sets]
      exact read_write_valid s.regs value inside valid'
    · rw [stored, sets]
      exact FieldAt.read_write_of_apart s.regs 0 (l.apart_status valid' status inside)
    · rw [same, sets]
      rfl
  | withTypes cmd cfg =>
    obtain rfl : ctrlTypes s cmd cfg = t := congrArg Prod.fst (Option.some.inj ran)
    exact read_ctrlTypes s cfg valid valid'
  | withChannel cmd channel =>
    by_cases zero : channel = 0
    · subst zero
      cases ran
    · rw [gdmaCtrl_withChannel zero valid] at ran
      obtain rfl : s = t := congrArg Prod.fst (Option.some.inj ran)
      rfl
  | other =>
    obtain rfl : s = t := congrArg Prod.fst (Option.some.inj ran)
    rfl

end

end Bk7251.Dma
