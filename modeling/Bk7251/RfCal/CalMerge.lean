import Bk7251.RfCal.CalRuns

/-!
# Loading what was saved

`manual_cal_load_txpwr_tab_flash` on a table that holds the saved item, and the table after any sequence of
saves whose layout is the assumed one each time.
-/
namespace Bk7251.RfCal

open Lib Flash Tlv
open NetParam (readHead)

variable {chip : Chip} {cells : Mem UInt8} {es : List Entry}

/-! ### Loading -/

theorem toWord_of_toList {v : Vector UInt8 4} {w : UInt32} (same : v.toList = toLe32 w) : toWord v = w := by
  obtain rfl : v = ofWord w := Vector.toList_inj.mp same
  exact ofLe32_toLe32 w

/-- A list of items stored behind a head, in a partition with a table. -/
structure Inner (cells : Mem UInt8) (start : Nat) (es : List Entry) : Prop where
  table : (manualCalSearchOptTab cells).isSome
  length : (readHead cells start).len.toNat = size es
  stored : cells.read (start + 8) (size es) = encode es
  nodup : (types es).Nodup
  bound : start + 8 + size es < 2 ^ 32

namespace Inner

variable {start : Nat} {type : UInt32}

theorem loadItem (inner : Inner cells start es) {k : Nat} {new : Vector UInt8 k}
    (known : lookup type es = some new.toList) (old : Vector UInt8 k) :
    RfCal.loadItem cells type start old = some new := by
  obtain ⟨addr, nonzero, found, v, read, same⟩ := loadItem_in old inner.table inner.length inner.stored
    inner.nodup inner.bound known Vector.length_toList
  simp only [RfCal.loadItem, found, Option.bind_some, if_neg nonzero, read]
  exact congrArg some (Vector.toList_inj.mp same)

theorem loadWord (inner : Inner cells start es) {w : UInt32} (known : lookup type es = some (toLe32 w))
    (old : UInt32) : RfCal.loadWord cells type start old = some w := by
  have bytes : lookup type es = some (ofWord w).toList := known
  have loaded := inner.loadItem bytes (ofWord old)
  simp only [RfCal.loadWord, loaded, Option.map_some, toWord_of_toList (v := ofWord w) rfl]

end Inner

/-- The items saved for the power tables. -/
def savedEntries (tabs : Tabs) (status : UInt32) : List Entry :=
  txpwrEntries manualCalTxpwrTabIsFitted tabs.b tabs.g tabs.n40 tabs.ble tabs.difGN20 tabs.difGN40 status

theorem types_savedEntries (tabs : Tabs) (status : UInt32) :
    types (savedEntries tabs status) = [TXPWR_ENABLE_ID, TXPWR_TAB_B_ID, TXPWR_TAB_G_ID, TXPWR_TAB_N_ID,
      TXPWR_TAB_DIF_GN20_ID, TXPWR_TAB_DIF_GN40_ID, TXPWR_TAB_BLE_ID, TXPWR_TAB_CALI_STATUTS] := rfl

theorem nodup_savedEntries (tabs : Tabs) (status : UInt32) : (types (savedEntries tabs status)).Nodup := by
  rw [types_savedEntries]
  decide

/-- Each item saved is found under its type. -/
theorem lookup_savedEntries (tabs : Tabs) (status : UInt32) :
    lookup TXPWR_ENABLE_ID (savedEntries tabs status) = some (toLe32 manualCalTxpwrTabIsFitted) ∧
      lookup TXPWR_TAB_B_ID (savedEntries tabs status) = some tabs.b.toList ∧
      lookup TXPWR_TAB_G_ID (savedEntries tabs status) = some tabs.g.toList ∧
      lookup TXPWR_TAB_N_ID (savedEntries tabs status) = some tabs.n40.toList ∧
      lookup TXPWR_TAB_DIF_GN20_ID (savedEntries tabs status) = some (toLe32 tabs.difGN20) ∧
      lookup TXPWR_TAB_DIF_GN40_ID (savedEntries tabs status) = some (toLe32 tabs.difGN40) ∧
      lookup TXPWR_TAB_BLE_ID (savedEntries tabs status) = some tabs.ble.toList :=
  ⟨rfl, rfl, rfl, rfl, rfl, rfl, rfl⟩

/-- The tables are loaded as saved, and the 20 MHz table fitted to them. -/
theorem load_saved (holds : Holds cells es) {saved : Tabs} {w : UInt32}
    (known : lookup TXPWR_TAB_TAB es = some (txpwrPayload saved w)) (status : UInt32) (tabs : Tabs) :
    manualCalLoadTxpwrTabFlash false status cells tabs =
      some (manualCalFitTxpwrTabN20 saved saved.difGN20, manualCalTxpwrTabIsFitted) := by
  have present : TXPWR_TAB_TAB ∈ types es := by
    rw [mem_types_iff_lookup, known]
    rfl
  obtain ⟨front, payload, back, around, first, -, searched, len, content⟩ := holds.search_item present
  obtain rfl : payload = txpwrPayload saved w := by
    rw [around, lookup_append, lookup_of_not_mem first, lookup, if_pos rfl] at known
    exact Option.some.inj known
  have low := rfStart_eq
  have small := holds.small
  have inside := size_item_le around
  change size front + (8 + (txpwrPayload saved w).length) ≤ size es at inside
  have total : (txpwrPayload saved w).length = size (savedEntries saved w) := length_encode _
  have inner : Inner cells (rfStart + 8 + size front) (savedEntries saved w) := by
    refine ⟨?_, len.trans total, ?_, nodup_savedEntries saved w, by omega⟩
    · rw [holds.searchOptTab]
      rfl
    · rw [← total]
      exact content
  obtain ⟨enable, b, g, n40, dif20, dif40, ble⟩ := lookup_savedEntries saved w
  have nonzero : rfStart + 8 + size front ≠ 0 := by omega
  obtain ⟨addr, found, ready, v, read, same⟩ := loadItem_in (ofWord status) inner.table inner.length
    inner.stored inner.nodup inner.bound enable rfl
  have ready_b : manualCalTxpwrTabIsFitted &&& TXPWR_TAB_B_RD ≠ 0 := by decide
  have ready_g : manualCalTxpwrTabIsFitted &&& TXPWR_TAB_G_RD ≠ 0 := by decide
  have ready_n40 : manualCalTxpwrTabIsFitted &&& TXPWR_TAB_N_RD ≠ 0 := by decide
  have ready_ble : manualCalTxpwrTabIsFitted &&& TXPWR_TAB_BLE ≠ 0 := by decide
  have loaded : loadTabs cells (rfStart + 8 + size front) manualCalTxpwrTabIsFitted tabs =
      some (manualCalFitTxpwrTabN20 saved saved.difGN20) := by
    simp only [loadTabs, if_pos ready_b, if_pos ready_g, if_pos ready_n40, if_pos ready_ble,
      inner.loadItem b, inner.loadItem g, inner.loadItem n40, inner.loadItem ble, inner.loadWord dif20,
      inner.loadWord dif40, Option.bind_eq_bind, Option.bind_some]
    rfl
  simp only [manualCalLoadTxpwrTabFlash, Bool.false_eq_true, if_false, searched, Option.bind_some,
    if_neg nonzero, ready, if_neg found, read, toWord_of_toList same, if_neg ready_ne_none, loaded,
    Option.map_some]

/-! ### Calls -/

/-- The calls that write the table, each with what it finds in uninitialised memory. -/
inductive Op
  | saveTxpwr (u : Uninit) (inRfcali : Bool) (tabs : Tabs)
  | saveChipinfo (u : Uninit) (info : ChipInfo)
  | writeMac (u : Uninit) (mac : Vector UInt8 6)

namespace Op

def exec (chip : Chip) (cells : Mem UInt8) : Op → Option (Mem UInt8 × Nat)
  | saveTxpwr u inRfcali tabs => manualCalSaveTxpwrTabToFlash chip u inRfcali cells tabs
  | saveChipinfo u info => manualCalSaveChipinfoTabToFlash chip u cells info
  | writeMac u mac => manualCalWriteMacaddrToFlash chip u cells mac

/-- The item a call is about. -/
def type : Op → UInt32
  | saveTxpwr _ _ _ => TXPWR_TAB_TAB
  | saveChipinfo _ _ => TXID
  | writeMac _ _ => TXID

/-- The layout the call assumes is the one in flash. -/
def Fits (cells : Mem UInt8) : Op → Prop
  | saveTxpwr _ _ _ => TxpwrFits cells
  | saveChipinfo _ _ => ChipinfoFits cells
  | writeMac _ _ => MacFits cells

/-- The call saves its item; writing the address only says whether it did. -/
def Saves (ret : Nat) : Op → Prop
  | saveTxpwr _ _ _ => True
  | saveChipinfo _ _ => True
  | writeMac _ _ => ret ≠ 0

/-- The bytes a call adds to a table with items of the types `ts`. -/
def adds (ts : List UInt32) : Op → Nat
  | saveTxpwr _ _ _ => if TXPWR_TAB_TAB ∈ ts then 0 else txpwrLen
  | saveChipinfo _ _ => if TXID ∈ ts then 0 else chipinfoLen
  | writeMac _ _ => 0

/-- The types of the items after the call. -/
def typesAfter (ts : List UInt32) : Op → List UInt32
  | saveTxpwr _ _ _ => if TXPWR_TAB_TAB ∈ ts then ts else ts ++ [TXPWR_TAB_TAB]
  | saveChipinfo _ _ => if TXID ∈ ts then ts else ts ++ [TXID]
  | writeMac _ _ => ts

/-- The power tables last saved. -/
def last (tabs : Option Tabs) : Op → Option Tabs
  | saveTxpwr _ _ saved => some saved
  | _ => tabs

end Op

/-- The flash after a call. -/
def step (chip : Chip) (cells : Mem UInt8) (op : Op) : Mem UInt8 :=
  ((op.exec chip cells).map Prod.fst).getD cells

/-! ### One call -/

theorem mem_put_self {type : UInt32} (new : List UInt8) : type ∈ types (put type new new.length es) := by
  rw [types_put]
  split
  · assumption
  · exact List.mem_append_right _ List.mem_cons_self

theorem lookup_put_whole {type : UInt32} (nodup : (types es).Nodup) {new : List UInt8}
    (same : ∀ old, lookup type es = some old → old.length = new.length) :
    lookup type (put type new new.length es) = some new := by
  rw [lookup_put_self nodup]
  congr 1
  cases known : lookup type es with
  | none => exact overwrite_whole List.length_replicate
  | some old => exact overwrite_whole (same old known)

/-- Where the item is found, its length is that of the head there. -/
theorem Holds.length_of_search (holds : Holds cells es) {type : UInt32} {addr : Nat} {old : List UInt8}
    (known : lookup type es = some old)
    (found : manualCalSearchTxpwrTab cells type rfStart = some addr) :
    (readHead cells addr).len.toNat = old.length := by
  have present : type ∈ types es := by
    rw [mem_types_iff_lookup, known]
    rfl
  obtain ⟨front, payload, back, around, first, -, searched, len, -⟩ := holds.search_item present
  obtain rfl : rfStart + 8 + size front = addr := Option.some.inj (searched.symm.trans found)
  rw [around, lookup_append, lookup_of_not_mem first, lookup, if_pos rfl] at known
  have same : payload = old := Option.some.inj known
  rw [len, same]

theorem TxpwrFits.length (fits : TxpwrFits cells) (holds : Holds cells es) {old : List UInt8}
    (known : lookup TXPWR_TAB_TAB es = some old) : old.length = txpwrLen - 8 := by
  rcases fits with ⟨missing, -⟩ | ⟨addr, -, found, length, -⟩
  · rw [lookup_of_not_mem (holds.not_mem missing)] at known
    nomatch known
  · rw [← length, holds.length_of_search known found]

/-- A type that is there is found. -/
theorem Holds.found (holds : Holds cells es) {type : UInt32} (present : type ∈ types es) :
    ∃ addr, addr ≠ 0 ∧ manualCalSearchTxpwrTab cells type rfStart = some addr := by
  obtain ⟨front, _, _, -, -, -, searched, -⟩ := holds.search_item present
  have low := rfStart_eq
  exact ⟨_, by omega, searched⟩

/-- What a call should do to a table: it stays one, all items but the call's own keep their bytes, and the
item saved is found. -/
structure Merges (chip : Chip) (op : Op) (cells : Mem UInt8) (es : List Entry) (cells' : Mem UInt8)
    (es' : List Entry) : Prop where
  result : ∃ ret, op.exec chip cells = some (cells', ret) ∧
    (op.Saves ret → ∃ addr, addr ≠ 0 ∧ manualCalSearchTxpwrTab cells' op.type rfStart = some addr)
  holds : Holds cells' es'
  others : ∀ type, type ≠ op.type → lookup type es' = lookup type es

/-- The partition holds a table, and in it the power tables last saved. -/
structure Keeps (cells : Mem UInt8) (last : Option Tabs) (es : List Entry) : Prop where
  holds : Holds cells es
  saved : ∀ tabs, last = some tabs → ∃ w, lookup TXPWR_TAB_TAB es = some (txpwrPayload tabs w)

theorem Keeps.load {last : Option Tabs} (keeps : Keeps cells last es) {saved : Tabs}
    (known : last = some saved) (status : UInt32) (tabs : Tabs) :
    manualCalLoadTxpwrTabFlash false status cells tabs =
      some (manualCalFitTxpwrTabN20 saved saved.difGN20, manualCalTxpwrTabIsFitted) := by
  obtain ⟨w, stored⟩ := keeps.saved saved known
  exact load_saved keeps.holds stored status tabs

/-- A call that leaves `TXPWR_TAB_TAB` alone keeps the power tables. -/
theorem Keeps.other {cells' : Mem UInt8} {es' : List Entry} {last : Option Tabs}
    (keeps : Keeps cells last es) (holds : Holds cells' es')
    (others : ∀ type, type ≠ TXID → lookup type es' = lookup type es) : Keeps cells' last es' := by
  refine ⟨holds, fun tabs known => ?_⟩
  have apart : TXPWR_TAB_TAB ≠ TXID := by decide
  obtain ⟨w, stored⟩ := keeps.saved tabs known
  exact ⟨w, (others _ apart).trans stored⟩

/-- One call, where the layout it assumes is the one in flash. -/
theorem step_merges (room : rfStart + 0x1000 ≤ chip.flashSize) {last : Option Tabs}
    (keeps : Keeps cells last es) {op : Op}
    (small : 8 + size es + op.adds (types es) ≤ BK_FLASH_SECTOR_SIZE) (fits : op.Fits cells) :
    ∃ cells' es', Merges chip op cells es cells' es' ∧ Keeps cells' (op.last last) es' ∧
      types es' = op.typesAfter (types es) ∧ size es' = size es + op.adds (types es) := by
  cases op with
  | saveTxpwr u inRfcali tabs =>
    have enough : TXPWR_TAB_TAB ∉ types es → 8 + size es + txpwrLen ≤ BK_FLASH_SECTOR_SIZE := by
      intro absent
      rwa [Op.adds, if_neg absent] at small
    obtain ⟨cells', w, result, holds, grown⟩ :=
      saveTxpwrTab_holds room keeps.holds enough fits u inRfcali tabs
    -- the saved item is as long as the old one, so it is written over whole
    have saved : lookup TXPWR_TAB_TAB (put TXPWR_TAB_TAB (txpwrPayload tabs w)
        (txpwrPayload tabs w).length es) = some (txpwrPayload tabs w) := by
      apply lookup_put_whole keeps.holds.nodup
      intro old known
      rw [length_txpwrPayload]
      exact TxpwrFits.length fits keeps.holds known
    refine ⟨cells', _, ⟨⟨1, result, fun _ => holds.found (mem_put_self _)⟩, holds, fun type other => ?_⟩,
      ⟨holds, ?_⟩, types_put _ _ _ _, grown⟩
    · exact lookup_put_other other _ _ _
    · intro last known
      obtain rfl : tabs = last := Option.some.inj known
      exact ⟨w, saved⟩
  | saveChipinfo u info =>
    have enough : TXID ∉ types es → 8 + size es + chipinfoLen ≤ BK_FLASH_SECTOR_SIZE := by
      intro absent
      rwa [Op.adds, if_neg absent] at small
    obtain ⟨cells', result, holds, grown⟩ := saveChipinfo_holds room keeps.holds enough fits u info
    have others : ∀ type, type ≠ TXID → lookup type (put TXID (chipinfoPayload info)
        (chipinfoPayload info).length es) = lookup type es := fun type other =>
      lookup_put_other other _ _ _
    exact ⟨cells', _, ⟨⟨1, result, fun _ => holds.found (mem_put_self _)⟩, holds, others⟩,
      keeps.other holds others, types_put _ _ _ _, grown⟩
  | writeMac u mac =>
    obtain ⟨cells', ret, es', result, holds, same, alike, others, wrote⟩ :=
      writeMacaddr_holds room keeps.holds fits u mac
    refine ⟨cells', es', ⟨⟨ret, result, fun nonzero => ?_⟩, holds, others⟩, keeps.other holds others, same,
      alike⟩
    -- an address is only written where the item is there
    apply holds.found
    rw [same]
    exact wrote nonzero

/-! ### Sequences of calls -/

/-- The bytes that a sequence of calls adds to a table with items of these types. -/
def growth : List UInt32 → List Op → Nat
  | _, [] => 0
  | ts, op :: ops => op.adds ts + growth (op.typesAfter ts) ops

theorem run_keeps (room : rfStart + 0x1000 ≤ chip.flashSize) {ops : List Op} (rest : List Op)
    {last : Option Tabs} (keeps : Keeps cells last es)
    (small : 8 + size es + growth (types es) (ops ++ rest) ≤ BK_FLASH_SECTOR_SIZE)
    (along : Along (step chip) (fun cells op => op.Fits cells) cells ops) :
    ∃ es', Keeps (ops.foldl (step chip) cells) (ops.foldl Op.last last) es' ∧
      8 + size es' + growth (types es') rest ≤ BK_FLASH_SECTOR_SIZE := by
  induction ops generalizing cells last es with
  | nil => exact ⟨es, keeps, small⟩
  | cons op ops ih =>
    obtain ⟨fits, later⟩ := along
    rw [List.cons_append, growth] at small
    obtain ⟨cells', es', merges, keeps', types', size'⟩ := step_merges room keeps (by omega) fits
    obtain ⟨ret, result, -⟩ := merges.result
    have next : step chip cells op = cells' := by
      rw [step, result]
      rfl
    -- what this call adds is taken out of the growth still to come
    have left : 8 + size es' + growth (types es') (ops ++ rest) ≤ BK_FLASH_SECTOR_SIZE := by
      rw [types', size']
      omega
    rw [next] at later
    rw [List.foldl_cons, List.foldl_cons, next]
    exact ih keeps' left later

/-- Any call of any sequence in which each call finds the layout it assumes: the table is merged as it
should, and loading gives the power tables last saved. -/
theorem saves_merge (room : rfStart + 0x1000 ≤ chip.flashSize) (holds : Holds cells es) (ops : List Op)
    (op : Op) (small : 8 + size es + growth (types es) (ops ++ [op]) ≤ BK_FLASH_SECTOR_SIZE)
    (along : Along (step chip) (fun cells op => op.Fits cells) cells (ops ++ [op])) :
    ∃ es₁ cells' es', Holds (ops.foldl (step chip) cells) es₁ ∧
      Merges chip op (ops.foldl (step chip) cells) es₁ cells' es' ∧
      ∀ saved, (ops ++ [op]).foldl Op.last none = some saved → ∀ status tabs,
        manualCalLoadTxpwrTabFlash false status cells' tabs =
          some (manualCalFitTxpwrTabN20 saved saved.difGN20, manualCalTxpwrTabIsFitted) := by
  obtain ⟨before, here⟩ := (along_append ops [op]).mp along
  have start : Keeps cells none es := ⟨holds, fun _ known => nomatch known⟩
  obtain ⟨es₁, keeps, left⟩ := run_keeps room [op] start small before
  rw [growth, growth, Nat.add_zero] at left
  obtain ⟨cells', es', merges, keeps', -, -⟩ := step_merges room keeps left here.1
  refine ⟨es₁, cells', es', keeps.holds, merges, fun saved known status tabs => ?_⟩
  rw [List.foldl_append] at known
  exact keeps'.load known status tabs

/-- A partition with these items. -/
def tableCells (es : List Entry) : Mem UInt8 := Mem.write (fun _ => 0xFF) rfStart (tblBytes es)

theorem holds_tableCells (nodup : (types es).Nodup) (fits : 8 + size es ≤ BK_FLASH_SECTOR_SIZE) :
    Holds (tableCells es) es := by
  refine ⟨nodup, fits, ?_⟩
  rw [tableCells, ← length_tblBytes, Mem.read_write_self]

/-- Without the item and without its parts nothing of it is read. -/
theorem TxpwrFits.of_absent (holds : Holds cells es) (absent : TXPWR_TAB_TAB ∉ types es)
    (unread : TXPWR_ENABLE_ID ∉ types es) : TxpwrFits cells :=
  .inl ⟨holds.search_absent absent, 0, holds.search_absent unread, fun found => absurd rfl found⟩

def blank : Uninit := ⟨fun _ => 0, Vector.replicate 14 0, Vector.replicate 40 0, 0⟩

/-- A table with an item of its own. -/
def smallTable : List Entry := [⟨1, [7]⟩]

def flatTabs : Tabs :=
  ⟨.replicate 14 20, .replicate 14 18, .replicate 14 0, .replicate 14 16, .replicate 40 12, 2, 3⟩

theorem saves_merge_one :
    ∃ es₁ cells' es', Holds (tableCells smallTable) es₁ ∧
      Merges defaultChip (.saveTxpwr blank false flatTabs) (tableCells smallTable) es₁ cells' es' ∧
      ∀ saved, some flatTabs = some saved → ∀ status tabs,
        manualCalLoadTxpwrTabFlash false status cells' tabs =
          some (manualCalFitTxpwrTabN20 saved saved.difGN20, manualCalTxpwrTabIsFitted) := by
  have holds : Holds (tableCells smallTable) smallTable := holds_tableCells (by decide) (by decide)
  exact saves_merge (by decide) holds [] (.saveTxpwr blank false flatTabs) (by decide)
    ⟨.of_absent holds (by decide) (by decide), trivial⟩

def info : ChipInfo := ⟨Vector.replicate 6 0, 0, 0, 0, 0, 0⟩

/-- A table in which `TXID` has the length it is saved with and stands behind another item. -/
def txidSecond : List Entry := [⟨1, []⟩, ⟨TXID, List.replicate (chipinfoLen - 8) 0⟩]

/-- What is left of it: the old item's last bytes stand as an item of their own. -/
def txidFirst : List Entry := [⟨TXID, chipinfoPayload info⟩, ⟨0, []⟩]

/-- Saving the chip's information over `TXID` behind another item loses that item. -/
theorem chipinfo_loses_item :
    ∃ cells', Holds (tableCells txidSecond) txidSecond ∧
      8 + size txidSecond + growth (types txidSecond) [.saveChipinfo blank info] ≤ BK_FLASH_SECTOR_SIZE ∧
      manualCalSaveChipinfoTabToFlash defaultChip blank (tableCells txidSecond) info = some (cells', 1) ∧
      1 ∈ types txidSecond ∧ ¬ ∃ es', Holds cells' es' ∧ lookup 1 es' = lookup 1 txidSecond := by
  have holds : Holds (tableCells txidSecond) txidSecond := holds_tableCells (by decide) (by decide)
  have found : manualCalSearchTxpwrTab (tableCells txidSecond) TXID rfStart = some (rfStart + 16) := by
    rw [holds.search]
    decide
  have nonzero : rfStart + 16 ≠ 0 := by decide
  have large : rfStart + 0x1000 ≤ defaultChip.flashSize := by decide
  have bytes : splice (tblBytes txidSecond) 8 (chipinfoTag info) = tblBytes txidFirst := by decide
  have long : (tblBytes txidFirst).length = 8 + size txidSecond := by
    rw [length_tblBytes]
    decide
  have written := update_whole blank.heap (tblBytes txidFirst) large holds
    (Nat.le_of_eq long.symm) (by rw [long]; decide)
  rw [length_tblBytes] at written
  have after : Holds _ txidFirst := ⟨by decide, by decide, written⟩
  have enough : ¬ 8 + size txidSecond < 8 + chipinfoLen := by decide
  refine ⟨manualCalUpdateFlashArea defaultChip blank.heap (tableCells txidSecond) 0 (tblBytes txidFirst),
    holds, by decide, ?_, by decide, fun kept => ?_⟩
  · simp only [manualCalSaveChipinfoTabToFlash, chipinfoBuf, holds.searchOptTab, found, Option.map_some,
      if_neg nonzero, Option.bind_some, flashReadData_eq, holds.stored, length_tblBytes, if_neg enough,
      bytes]
  · obtain ⟨es', holds', same⟩ := kept
    have absent : 1 ∉ types txidFirst := by decide
    have gone := after.search_absent absent
    refine holds'.not_mem gone ?_
    rw [mem_types_iff_lookup, same]
    rfl

end Bk7251.RfCal
