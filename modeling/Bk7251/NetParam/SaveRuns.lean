import Mathlib.Data.List.Induction
import Bk7251.NetParam.Table

/-!
# Sequences of saves

After any sequence of `save_info_item` calls the partition holds a table with the payloads last
saved, and the other items as they were.
-/
namespace Bk7251.NetParam

open Lib Flash Tlv

/-- One call of `save_info_item`, and whether it gets its buffer. -/
structure SaveOp where
  malloc : Bool
  item : NetInfoItem
  ptr0 : Mem UInt8
  ptr1 : Mem UInt8
  ptr2 : Mem UInt8

def SaveOp.fields (op : SaveOp) : Fields := takeFields op.item op.ptr0 op.ptr1 op.ptr2

/-- The flash after a sequence of calls. -/
def saves (chip : Chip) : Mem UInt8 → List SaveOp → Option (Mem UInt8)
  | cells, [] => some cells
  | cells, op :: ops =>
    (saveInfoItem chip op.malloc cells op.item op.ptr0 op.ptr1 op.ptr2).bind fun r => saves chip r.1 ops

/-- The items after a sequence of calls. -/
def saveOps (es : List Entry) (ops : List SaveOp) : List Entry :=
  ops.foldl (fun es op => if op.malloc then saveEntries es op.item op.fields else es) es

/-- What the last successful call for the item took from its pointers. -/
def lastSaved (ops : List SaveOp) (item : NetInfoItem) : Option Fields :=
  ops.foldl (fun last op => if op.malloc = true ∧ op.item = item then some op.fields else last) none

/-- The bytes of an item's payload that no field fills. -/
def reserved : NetInfoItem → Nat
  | .WIFI_MAC_ITEM => 2
  | _ => 0

/-! ### The items -/

private theorem saveOps_push (es : List Entry) (ops : List SaveOp) (op : SaveOp) :
    saveOps es (ops ++ [op]) =
      if op.malloc then saveEntries (saveOps es ops) op.item op.fields else saveOps es ops := by
  simp [saveOps]

private theorem lastSaved_push (ops : List SaveOp) (op : SaveOp) (item : NetInfoItem) :
    lastSaved (ops ++ [op]) item =
      if op.malloc = true ∧ op.item = item then some op.fields else lastSaved ops item := by
  simp [lastSaved]

/-- The table only grows, so what fits in the end has fitted all along. -/
theorem size_le_saveOps (es : List Entry) (ops : List SaveOp) : size es ≤ size (saveOps es ops) := by
  induction ops using List.reverseRecOn with
  | nil => exact Nat.le_refl _
  | append_singleton ops op ih =>
    rw [saveOps_push]
    split
    · exact Nat.le_trans ih (size_le_put _ _ _ _)
    · exact ih

theorem nodup_saveOps {es : List Entry} (nodup : (types es).Nodup) (ops : List SaveOp) :
    (types (saveOps es ops)).Nodup := by
  induction ops using List.reverseRecOn with
  | nil => exact nodup
  | append_singleton ops op ih =>
    rw [saveOps_push]
    split
    · exact nodup_put ih _ _
    · exact ih

/-- An item nobody saves keeps its payload. -/
theorem lookup_saveOps_other (es : List Entry) {type : UInt32} (ops : List SaveOp)
    (others : ∀ op ∈ ops, op.malloc = true → op.item.code ≠ type) :
    lookup type (saveOps es ops) = lookup type es := by
  induction ops using List.reverseRecOn with
  | nil => rfl
  | append_singleton ops op ih =>
    have before := ih fun op' member => others op' (List.mem_append_left _ member)
    rw [saveOps_push]
    split
    next memory =>
      rw [saveEntries, lookup_put_other (Ne.symm (others op (by simp) memory)), before]
    · exact before

/-- The payload last saved is in the table, with the reserved bytes behind it. -/
theorem lookup_saveOps_self {es : List Entry} {ops : List SaveOp} {item : NetInfoItem}
    {fields : Fields} (nodup : (types es).Nodup) (saved : lastSaved ops item = some fields) :
    ∃ payload, lookup item.code (saveOps es ops) = some payload ∧
      payload = fields.bytes ++ payload.drop fields.bytes.length := by
  induction ops using List.reverseRecOn generalizing fields with
  | nil => simp [lastSaved] at saved
  | append_singleton ops op ih =>
    rw [lastSaved_push] at saved
    rw [saveOps_push]
    split at saved
    next this =>
      rw [if_pos this.1, saveEntries, this.2, lookup_put_self (nodup_saveOps nodup ops)]
      refine ⟨_, rfl, ?_⟩
      rw [← Option.some.inj saved, overwrite, List.drop_left]
    next other =>
      obtain ⟨payload, found, split⟩ := ih saved
      refine ⟨payload, ?_, split⟩
      by_cases memory : op.malloc = true
      · have differs : item.code ≠ op.item.code := fun same =>
          other ⟨memory, (NetInfoItem.code_inj same).symm⟩
        rw [if_pos memory, saveEntries, lookup_put_other differs, found]
      · rw [if_neg memory, found]

/-- Where what is saved again has had its size, it has it in the end. -/
theorem sized_saveOps {es : List Entry} (nodup : (types es).Nodup) (ops : List SaveOp) {item : NetInfoItem}
    (sized : Sized es item) : Sized (saveOps es ops) item := by
  induction ops using List.reverseRecOn with
  | nil => exact sized
  | append_singleton ops op ih =>
    rw [saveOps_push]
    split
    · by_cases same : op.item = item
      · subst same
        exact sized_saveEntries_self (nodup_saveOps nodup ops) (length_takeFields _ _ _ _) ih
      · exact sized_saveEntries_other (fun code => same (NetInfoItem.code_inj code).symm) ih
    · exact ih

/-- What was saved last comes from one of the calls. -/
theorem exists_of_lastSaved {ops : List SaveOp} {item : NetInfoItem} {fields : Fields}
    (saved : lastSaved ops item = some fields) :
    ∃ op ∈ ops, op.malloc = true ∧ op.item = item ∧ op.fields = fields := by
  induction ops using List.reverseRecOn with
  | nil => simp [lastSaved] at saved
  | append_singleton ops op ih =>
    rw [lastSaved_push] at saved
    split at saved
    next this => exact ⟨op, by simp, this.1, this.2, Option.some.inj saved⟩
    next =>
      obtain ⟨earlier, member, this⟩ := ih saved
      exact ⟨earlier, List.mem_append_left _ member, this⟩

/-! ### The flash -/

/-- One call keeps the partition in step with the items. -/
private theorem saves_step {chip : Chip} (room : tblStart + 0x1000 ≤ chip.flashSize)
    {cells : Mem UInt8} {t : Option Table} (holds : Holds cells t) (op : SaveOp)
    (sized : op.malloc = true → Sized (entriesOf t) op.item)
    (bound : 8 + size (saveOps (entriesOf t) [op]) ≤ 0x1000) :
    ∃ cells' ret t', saveInfoItem chip op.malloc cells op.item op.ptr0 op.ptr1 op.ptr2 = some (cells', ret) ∧
      Holds cells' t' ∧ entriesOf t' = saveOps (entriesOf t) [op] := by
  cases memory : op.malloc with
  | false =>
    refine ⟨cells, 0, t, saveInfoItem_noMemory chip holds _ _ _ _, holds, ?_⟩
    simp [saveOps, memory]
  | true =>
    have saved : saveOps (entriesOf t) [op] = saveEntries (entriesOf t) op.item op.fields := by
      simp [saveOps, memory]
    rw [saved] at bound
    obtain ⟨cells', done, holds'⟩ := saveInfoItem_holds room holds op.item op.ptr0 op.ptr1 op.ptr2
      (sized memory) bound
    exact ⟨cells', 1, _, done, holds', saved.symm⟩

theorem nodup_entriesOf (t : Option Table) : (types (entriesOf t)).Nodup := by
  cases t with
  | none => simp [entriesOf, types]
  | some t => exact t.nodup

private theorem saves_run {chip : Chip} (room : tblStart + 0x1000 ≤ chip.flashSize)
    {cells : Mem UInt8} {t : Option Table} (holds : Holds cells t) (ops : List SaveOp)
    (sized : ∀ op ∈ ops, op.malloc = true → Sized (entriesOf t) op.item)
    (bound : 8 + size (saveOps (entriesOf t) ops) ≤ 0x1000) :
    ∃ cells' t', saves chip cells ops = some cells' ∧ Holds cells' t' ∧
      entriesOf t' = saveOps (entriesOf t) ops := by
  induction ops generalizing cells t with
  | nil => exact ⟨cells, t, rfl, holds, rfl⟩
  | cons op ops ih =>
    have whole : saveOps (entriesOf t) (op :: ops) = saveOps (saveOps (entriesOf t) [op]) ops := rfl
    have first : 8 + size (saveOps (entriesOf t) [op]) ≤ 0x1000 := by
      have grows := size_le_saveOps (saveOps (entriesOf t) [op]) ops
      rw [whole] at bound
      omega
    obtain ⟨next, ret, t₁, done, holds₁, entries₁⟩ := saves_step room holds op (sized op List.mem_cons_self) first
    obtain ⟨cells', t', rest, holds', entries'⟩ := ih holds₁
      (fun op' member memory => by
        rw [entries₁]
        exact sized_saveOps (nodup_entriesOf t) [op] (sized op' (List.mem_cons_of_mem op member) memory))
      (by rwa [entries₁, ← whole])
    refine ⟨cells', t', ?_, holds', by rw [entries', entries₁, whole]⟩
    rw [saves, done]
    exact rest

/-- The fields come back through the pointers they were taken from. -/
private theorem gotOf_fields {item : NetInfoItem} {ptr0 ptr1 ptr2 : Mem UInt8} {payload pad : List UInt8}
    (split : payload = (takeFields item ptr0 ptr1 ptr2).bytes ++ pad)
    (sized : payload.length + 8 = infoItemLen item) :
    pad.length = reserved item ∧
      gotOf item payload = ⟨1, (takeFields item ptr0 ptr1 ptr2).f0 ++ pad,
        (takeFields item ptr0 ptr1 ptr2).f1, (takeFields item ptr0 ptr1 ptr2).f2⟩ := by
  have length : pad.length = reserved item := by
    rw [split] at sized
    cases item <;>
      simp only [takeFields, Fields.bytes, infoItemLen, reserved, List.length_append, Mem.length_read,
        List.length_nil] at sized ⊢ <;> omega
  refine ⟨length, ?_⟩
  subst split
  cases item <;> simp only [reserved, List.length_eq_zero_iff] at length
  case SSID_KEY_ITEM =>
    subst length
    simp only [gotOf, takeFields, Fields.bytes, List.append_nil]
    rw [List.take_left' (by simp), List.drop_left' (by simp), List.take_of_length_le (by simp)]
  case IP_CONFIG_ITEM =>
    subst length
    simp only [gotOf, takeFields, Fields.bytes, List.append_nil, List.append_assoc]
    rw [List.take_left' (by simp), List.drop_left' (by simp), List.take_left' (by simp),
      ← List.append_assoc, List.drop_left' (by simp), List.take_of_length_le (by simp)]
  all_goals simp only [gotOf, takeFields, Fields.bytes, List.append_nil]

/-- After any sequence of saves within the partition, of items that have the size of their structure where they
are there already, there is a well-formed table in flash; getting an item gives back the fields last saved for it, with the item's reserved bytes behind the first; every
item that was not saved keeps its payload; and a save that finds no memory changes nothing. -/
theorem saves_correct (chip : Chip) (room : tblStart + 0x1000 ≤ chip.flashSize) (cells : Mem UInt8)
    (t₀ : Option Table) (initial : Holds cells t₀) (ops : List SaveOp)
    (sized : ∀ op ∈ ops, op.malloc = true → Sized (entriesOf t₀) op.item)
    (bound : 8 + size (saveOps (entriesOf t₀) ops) ≤ 0x1000) :
    ∃ cells' t, saves chip cells ops = some cells' ∧ Holds cells' t ∧
      (∀ item fields, lastSaved ops item = some fields →
        ∃ pad, pad.length = reserved item ∧
          getInfoItem cells' item true true true =
            some ⟨1, fields.f0 ++ pad, fields.f1, fields.f2⟩) ∧
      (∀ type, (∀ op ∈ ops, op.malloc = true → op.item.code ≠ type) →
        lookup type (entriesOf t) = lookup type (entriesOf t₀)) ∧
      (∀ item ptr0 ptr1 ptr2,
        saveInfoItem chip false cells' item ptr0 ptr1 ptr2 = some (cells', 0)) := by
  obtain ⟨cells', t, run, holds, entries⟩ := saves_run room initial ops sized bound
  refine ⟨cells', t, run, holds, ?_, ?_, ?_⟩
  · intro item fields saved
    have nodup := nodup_entriesOf t₀
    obtain ⟨op, member, memory, rfl, rfl⟩ := exists_of_lastSaved saved
    have kept := sized_saveOps nodup ops (sized op member memory)
    obtain ⟨payload, known, split⟩ := lookup_saveOps_self nodup saved
    obtain ⟨length, got⟩ := gotOf_fields split (kept payload known)
    have whole := kept payload known
    rw [← entries] at known
    cases t with
    | none => simp [entriesOf, lookup] at known
    | some t => exact ⟨_, length, (getInfoItem_some holds known whole).trans (congrArg some got)⟩
  · intro type others
    rw [entries, lookup_saveOps_other _ ops others]
  · exact fun item ptr0 ptr1 ptr2 => saveInfoItem_noMemory chip holds item ptr0 ptr1 ptr2

/-- Saving a MAC address. -/
def macSave : SaveOp :=
  ⟨true, .WIFI_MAC_ITEM, Mem.ofList [0xC8, 0x47, 0x8C, 0x00, 0x00, 0x18], fun _ => 0, fun _ => 0⟩

def dhcpSave : SaveOp :=
  ⟨true, .DHCP_MODE_ITEM, Mem.ofList [1, 0, 0, 0], fun _ => 0, fun _ => 0⟩

def blankCells : Mem UInt8 := fun _ => 0xFF

/-- On blank flash two items are saved, the first of them twice. -/
theorem saves_correct_blank : ∃ cells' pad,
    saves defaultChip blankCells [macSave, dhcpSave, macSave] = some cells' ∧ pad.length = 2 ∧
      getInfoItem cells' .WIFI_MAC_ITEM true true true =
        some ⟨1, [0xC8, 0x47, 0x8C, 0x00, 0x00, 0x18] ++ pad, [], []⟩ := by
  obtain ⟨cells', _, run, -, got, -, -⟩ := saves_correct defaultChip (by decide) blankCells none
    (by decide +kernel : (readHead blankCells tblStart).type ≠ INFO_TLV_HEADER)
    [macSave, dhcpSave, macSave] (fun _ _ _ _ known => by cases known) (by decide)
  obtain ⟨pad, length, mac⟩ := got .WIFI_MAC_ITEM macSave.fields rfl
  exact ⟨cells', pad, run, length, mac⟩

def autoSave : SaveOp :=
  ⟨true, .AUTO_CONNECT_ITEM, Mem.ofList [1, 0, 0, 0], fun _ => 0, fun _ => 0⟩

/-- A table with one item that is longer than its structure. -/
def longTable : Table where
  entries := [⟨NetInfoItem.DHCP_MODE_ITEM.code, [1, 0, 0, 0, 0, 0, 0, 0, 0, 1, 0, 0, 0, 0, 0, 0]⟩]
  nodup := by decide
  fits := by decide

def longCells : Mem UInt8 := fun addr =>
  if addr < tblStart then 0xFF else (tblBytes longTable.entries).getD (addr - tblStart) 0xFF

/-- Getting the address stores the item's two reserved bytes behind the six that were saved; and where a longer
item has been saved again, its old bytes stand between the items, and what is saved next is not found. -/
theorem saves_correct_fails :
    ((readHead blankCells tblStart).type ≠ INFO_TLV_HEADER ∧
      (saves defaultChip blankCells [macSave]).map
          (fun cells => getInfoItem cells .WIFI_MAC_ITEM true true true) ≠
        some (some ⟨1, macSave.fields.f0, macSave.fields.f1, macSave.fields.f2⟩)) ∧
    Holds longCells (some longTable) ∧
      (saves defaultChip longCells [dhcpSave, autoSave]).map
          (fun cells => getInfoItem cells .AUTO_CONNECT_ITEM true true true) = some (some .nothing) := by
  refine ⟨?_, ?_, ?_⟩
  · decide +kernel
  · change Mem.read _ _ _ = _
    decide +kernel
  · decide +kernel

end Bk7251.NetParam
