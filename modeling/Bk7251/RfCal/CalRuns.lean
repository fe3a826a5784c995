import Bk7251.Lib.Machine
import Bk7251.RfCal.CalTable

/-!
# Sequences of saves

The three functions that write the calibration table, the cases in which the layout they assume is the one
in flash, and what holds after any sequence of such calls.
-/
namespace Bk7251.RfCal

open Lib Flash Tlv
open NetParam (readHead)

variable {chip : Chip} {cells : Mem UInt8} {es front back : List Entry} {e e' : Entry}

/-! ### Tables written again -/

theorem Holds.of_read {n : Nat} (nodup : (types es).Nodup) (fits : 8 + size es ≤ BK_FLASH_SECTOR_SIZE)
    (length : 8 + size es = n) (stored : cells.read rfStart n = tblBytes es) : Holds cells es :=
  ⟨nodup, fits, length ▸ stored⟩

/-- Bytes of one item are written over, and the others stay. -/
theorem splice_item (front back : List Entry) (k : Nat) {xs : List UInt8} (inside : k + xs.length ≤ e.size)
    (bytes : splice e.bytes k xs = e'.bytes) (same : e'.size = e.size) :
    splice (tblBytes (front ++ e :: back)) (8 + size front + k) xs = tblBytes (front ++ e' :: back) := by
  have cut (x : Entry) (alike : x.size = e.size) : tblBytes (front ++ x :: back) =
      (Tlv.head BK_FLASH_OPT_TLV_HEADER (size (front ++ e :: back)) ++ encode front) ++
        (x.bytes ++ encode back) := by
    have sizes : size (front ++ x :: back) = size (front ++ e :: back) := by
      rw [size_append, size_append, size, size, alike]
    rw [tblBytes, sizes, encode_append, encode, List.append_assoc]
  have length : (Tlv.head BK_FLASH_OPT_TLV_HEADER (size (front ++ e :: back)) ++ encode front).length =
      8 + size front := by
    rw [List.length_append, length_head, length_encode]
  have within : k + xs.length ≤ e.bytes.length := by
    rw [Entry.length_bytes]
    exact inside
  rw [cut e rfl, cut e' same, ← length, splice_inside _ _ _ within, bytes]

/-- A whole item is written over by one of its length. -/
theorem splice_bytes (same : e'.size = e.size) : splice e.bytes 0 e'.bytes = e'.bytes := by
  rw [splice, List.take_zero, List.nil_append, List.drop_eq_nil_of_le (by
    rw [Entry.length_bytes, Entry.length_bytes]
    omega), List.append_nil]

/-- Bytes of the payload are written over behind the head. -/
theorem splice_payload {k : Nat} {xs : List UInt8} (type : UInt32) {payload : List UInt8}
    (inside : k + xs.length ≤ payload.length) :
    splice (Entry.bytes ⟨type, payload⟩) (8 + k) xs = Entry.bytes ⟨type, splice payload k xs⟩ := by
  have place := splice_inside (Tlv.head type payload.length) payload [] inside
  have length : (splice payload k xs).length = payload.length := length_splice inside
  rw [List.append_nil, List.append_nil, length_head] at place
  rw [Entry.bytes, Entry.bytes, length]
  exact place

theorem types_replace (same : e'.type = e.type) :
    types (front ++ e' :: back) = types (front ++ e :: back) := by
  simp only [types, List.map_append, List.map_cons, same]

theorem Holds.copyLonger (holds : Holds cells es) {payload : List UInt8} (type : UInt32) {n : Nat}
    (length : 8 + payload.length = n) :
    RfCal.copyLonger cells (8 + size es) (8 + size es + n) ++ Entry.bytes ⟨type, payload⟩ =
      tblBytes (es ++ [⟨type, payload⟩]) := by
  have grown : size (es ++ [⟨type, payload⟩]) = size es + n := by
    rw [size_append, size, size, Entry.size, Nat.add_zero, length]
  have head_len : 8 + size es + n - 8 = size es + n := by omega
  have place := splice_append [] (Tlv.head BK_FLASH_OPT_TLV_HEADER (size es)) (encode es)
    (Tlv.head BK_FLASH_OPT_TLV_HEADER (size es + n)) rfl
  simp only [RfCal.copyLonger, flashReadData_eq, holds.stored, head_len]
  rw [tblBytes, tblBytes, grown, encode_append, encode, encode, List.append_nil, ← List.append_assoc]
  exact congrArg (· ++ Entry.bytes ⟨type, payload⟩) place

theorem overwrite_whole {xs old : List UInt8} (same : old.length = xs.length) : overwrite xs old = xs := by
  rw [overwrite, List.drop_eq_nil_of_le (Nat.le_of_eq same), List.append_nil]

theorem put_replace {type : UInt32} {payload new : List UInt8} (first : type ∉ types front)
    (rest : type ∉ types back) (same : payload.length = new.length) :
    put type new new.length (front ++ ⟨type, payload⟩ :: back) = front ++ ⟨type, new⟩ :: back := by
  rw [put_of_mem first rest, overwrite_whole same]

theorem put_append {type : UInt32} {new : List UInt8} (absent : type ∉ types es) :
    put type new new.length es = es ++ [⟨type, new⟩] := by
  rw [put_of_not_mem absent, overwrite_whole (List.length_replicate ..)]

/-- An item written over in place by one of the same length. -/
theorem Holds.replace {cells' : Mem UInt8} {type : UInt32} {payload new : List UInt8}
    (holds : Holds cells es) (around : es = front ++ ⟨type, payload⟩ :: back)
    (same : new.length = payload.length)
    (stored : cells'.read rfStart (8 + size es) = tblBytes (front ++ ⟨type, new⟩ :: back)) :
    Holds cells' (front ++ ⟨type, new⟩ :: back) := by
  have sizes : size (front ++ ⟨type, new⟩ :: back) = size es := by
    rw [around, size_append, size_append, size, size, Entry.size, Entry.size, same]
  have kept : types (front ++ ⟨type, new⟩ :: back) = types es := by
    rw [around]
    exact types_replace rfl
  exact .of_read (kept ▸ holds.nodup) (by rw [sizes]; exact holds.fits) (by rw [sizes]) stored

theorem Holds.append {cells' : Mem UInt8} {type : UInt32} {payload : List UInt8} (holds : Holds cells es)
    (absent : type ∉ types es) (fits : 8 + size es + (8 + payload.length) ≤ BK_FLASH_SECTOR_SIZE)
    (stored : cells'.read rfStart (8 + size es + (8 + payload.length)) =
      tblBytes (es ++ [⟨type, payload⟩])) :
    Holds cells' (es ++ [⟨type, payload⟩]) := by
  have grown : size (es ++ [⟨type, payload⟩]) = size es + (8 + payload.length) := by
    rw [size_append, size, size, Entry.size, Nat.add_zero]
  refine .of_read ?_ (by rw [grown]; omega) (by rw [grown]; omega) stored
  rw [types, List.map_append, List.nodup_append_comm]
  exact List.nodup_cons.mpr ⟨absent, holds.nodup⟩

/-- The room an item of `n` bytes still needs. -/
def need (type : UInt32) (n : Nat) (es : List Entry) : Nat := if type ∈ types es then 0 else n

theorem size_put_replace {type : UInt32} {payload new : List UInt8} (n : Nat)
    (around : es = front ++ ⟨type, payload⟩ :: back) (first : type ∉ types front)
    (rest : type ∉ types back) (same : new.length = payload.length) :
    size (put type new new.length es) = size es + need type n es := by
  have present : type ∈ types es := by
    rw [around, types, List.map_append]
    exact List.mem_append_right _ List.mem_cons_self
  rw [need, if_pos present, around, put_replace first rest same.symm, size_append, size_append, size, size,
    Entry.size, Entry.size, same, Nat.add_zero]

/-- A longer copy of the table with a new item behind it is written. -/
theorem Holds.write_append (heap : Mem UInt8) {type : UInt32} {payload : List UInt8} {n : Nat}
    (room : rfStart + 0x1000 ≤ chip.flashSize) (holds : Holds cells es) (absent : type ∉ types es)
    (length : 8 + payload.length = n) (fits : 8 + size es + n ≤ BK_FLASH_SECTOR_SIZE) :
    Holds (manualCalUpdateFlashArea chip heap cells 0
        (RfCal.copyLonger cells (8 + size es) (8 + size es + n) ++ Entry.bytes ⟨type, payload⟩))
      (put type payload payload.length es) ∧
      size (put type payload payload.length es) = size es + need type n es := by
  have bytes := holds.copyLonger type length
  have long : (tblBytes (es ++ [⟨type, payload⟩])).length = 8 + size es + (8 + payload.length) := by
    rw [length_tblBytes, size_append, size, size, Entry.size, Nat.add_zero, ← Nat.add_assoc]
  rw [bytes, put_append absent]
  have written := update_whole heap (tblBytes (es ++ [⟨type, payload⟩])) room holds
    (by rw [long]; omega) (by rw [long, length]; exact fits)
  rw [long] at written
  refine ⟨holds.append absent (by rw [length]; exact fits) written, ?_⟩
  rw [need, if_neg absent, size_append, size, size, Entry.size, Nat.add_zero, length]

/-- An item is written over by one of its length. -/
theorem Holds.write_replace (heap : Mem UInt8) {type : UInt32} {payload new : List UInt8}
    (room : rfStart + 0x1000 ≤ chip.flashSize) (holds : Holds cells es)
    (around : es = front ++ ⟨type, payload⟩ :: back) (first : type ∉ types front) (rest : type ∉ types back)
    (same : new.length = payload.length) :
    Holds (manualCalUpdateFlashArea chip heap cells (8 + size front) (Entry.bytes ⟨type, new⟩))
      (put type new new.length es) := by
  have inside := size_item_le around
  have alike : Entry.size ⟨type, new⟩ = Entry.size ⟨type, payload⟩ := by
    rw [Entry.size, Entry.size, same]
  have bytes : (Entry.bytes ⟨type, new⟩).length = Entry.size ⟨type, payload⟩ := by
    rw [Entry.length_bytes, alike]
  have later : 8 + size front ≠ 0 := by omega
  have some_bytes : (Entry.bytes ⟨type, new⟩).length ≠ 0 := by
    rw [bytes, Entry.size]
    omega
  have fits : 8 + size front + (Entry.bytes ⟨type, new⟩).length ≤ 8 + size es := by
    rw [bytes]
    omega
  have written := update_inside heap (Entry.bytes ⟨type, new⟩) room holds later some_bytes fits
  have replaced := put_replace first rest same.symm
  rw [← around] at replaced
  rw [replaced]
  refine holds.replace around same (written.trans ?_)
  rw [around]
  exact splice_item front back 0 (by rw [bytes]; omega) (splice_bytes alike) alike

/-! ### The layouts that are assumed -/

/-- The search for an item ends, and the item fits a variable of `k` bytes. -/
def Reads (cells : Mem UInt8) (type : UInt32) (addrStart k : Nat) : Prop :=
  ∃ addr, manualCalSearchTxpwrTab cells type addrStart = some addr ∧
    (addr ≠ 0 → (readHead cells addr).len.toNat ≤ k)

/-- There is no `TXPWR_TAB_TAB` yet, or one of the length that is saved. -/
def TxpwrFits (cells : Mem UInt8) : Prop :=
  (manualCalSearchTxpwrTab cells TXPWR_TAB_TAB rfStart = some 0 ∧ Reads cells TXPWR_ENABLE_ID rfStart 4) ∨
    ∃ addr, addr ≠ 0 ∧ manualCalSearchTxpwrTab cells TXPWR_TAB_TAB rfStart = some addr ∧
      (readHead cells addr).len.toNat = txpwrLen - 8 ∧ Reads cells TXPWR_ENABLE_ID addr 4 ∧
      Reads cells TXPWR_TAB_CALI_STATUTS addr 4

/-- There is no `TXID` yet, or it comes first and has the length that is saved. -/
def ChipinfoFits (cells : Mem UInt8) : Prop :=
  manualCalSearchTxpwrTab cells TXID rfStart = some 0 ∨
    (manualCalSearchTxpwrTab cells TXID rfStart = some (rfStart + 8) ∧
      (readHead cells (rfStart + 8)).len.toNat = chipinfoLen - 8)

/-- There is no `TXID`, or no `TXID_MAC` in it, or one with six bytes behind its head that are inside
`TXID`. -/
def MacFits (cells : Mem UInt8) : Prop :=
  manualCalSearchTxpwrTab cells TXID rfStart = some 0 ∨
    ∃ addr mac, addr ≠ 0 ∧ manualCalSearchTxpwrTab cells TXID rfStart = some addr ∧
      manualCalSearchTxpwrTab cells TXID_MAC addr = some mac ∧
      (mac ≠ 0 → addr ≤ mac ∧ mac + 8 + 6 ≤ addr + 8 + (readHead cells addr).len.toNat)

theorem Reads.loadWord {type : UInt32} {addrStart : Nat} (reads : Reads cells type addrStart 4)
    (old : UInt32) :
    ∃ w, RfCal.loadWord cells type addrStart old = some w := by
  obtain ⟨addr, found, small⟩ := reads
  simp only [RfCal.loadWord, loadItem, found, Option.bind_some]
  by_cases absent : addr = 0
  · rw [if_pos absent]
    exact ⟨_, rfl⟩
  · have fits : ¬ 4 < (readHead cells addr).len.toNat := Nat.not_lt.mpr (small absent)
    rw [if_neg absent, readItem, if_neg fits]
    exact ⟨_, rfl⟩

/-! ### Saving the power tables -/

/-- What is saved of the tables: all of them are ready. -/
def txpwrPayload (tabs : Tabs) (status : UInt32) : List UInt8 :=
  encode (txpwrEntries manualCalTxpwrTabIsFitted tabs.b tabs.g tabs.n40 tabs.ble tabs.difGN20 tabs.difGN40
    status)

theorem size_txpwrEntries (isReady : UInt32) (b g n40 : Vector UInt8 14) (ble : Vector UInt8 40)
    (difGN20 difGN40 status : UInt32) :
    size (txpwrEntries isReady b g n40 ble difGN20 difGN40 status) = txpwrLen - 8 := by
  simp only [txpwrEntries, size, Entry.size, length_toLe32, Vector.length_toList, txpwrLen]

theorem length_txpwrPayload (tabs : Tabs) (status : UInt32) :
    (txpwrPayload tabs status).length = txpwrLen - 8 := by
  rw [txpwrPayload, length_encode, size_txpwrEntries]

theorem txpwrTag_eq {addrStart : Nat} {u : Uninit} {inRfcali : Bool}
    (enable : Reads cells TXPWR_ENABLE_ID addrStart 4)
    (status : ∃ w, manualCalGRfcaliStatus cells inRfcali u.word = some w) (tabs : Tabs) :
    ∃ w, txpwrTag u inRfcali cells addrStart manualCalTxpwrTabIsFitted tabs =
      some (Entry.bytes ⟨TXPWR_TAB_TAB, txpwrPayload tabs w⟩) := by
  obtain ⟨ready, loaded⟩ := enable.loadWord TXPWR_NONE_RD
  obtain ⟨w, status⟩ := status
  -- every table is taken from memory
  have b : manualCalTxpwrTabIsFitted &&& TXPWR_TAB_B_RD ≠ 0 := by decide
  have g : manualCalTxpwrTabIsFitted &&& TXPWR_TAB_G_RD ≠ 0 := by decide
  have n40 : manualCalTxpwrTabIsFitted &&& TXPWR_TAB_N_RD ≠ 0 := by decide
  have ble : manualCalTxpwrTabIsFitted &&& TXPWR_TAB_BLE ≠ 0 := by decide
  refine ⟨w, ?_⟩
  simp only [txpwrTag, loaded, status, tabOf, if_pos b, if_pos g, if_pos n40, if_pos ble,
    Option.bind_eq_bind, Option.bind_some, Option.pure_def]
  rw [Entry.bytes, length_txpwrPayload]
  rfl

/-- The calibration state is read without harm. -/
theorem status_absent (holds : Holds cells es) (absent : TXPWR_TAB_TAB ∉ types es) (inRfcali : Bool)
    (word : UInt32) : ∃ w, manualCalGRfcaliStatus cells inRfcali word = some w := by
  simp only [manualCalGRfcaliStatus, manualCalGetRfcaliStatusInflash, holds.searchOptTab,
    holds.search_absent absent, Option.bind_some, if_true, Option.map_some]
  exact ⟨_, rfl⟩

theorem status_present (holds : Holds cells es) {addr : Nat} (present : addr ≠ 0)
    (found : manualCalSearchTxpwrTab cells TXPWR_TAB_TAB rfStart = some addr)
    (cali : Reads cells TXPWR_TAB_CALI_STATUTS addr 4) (inRfcali : Bool) (word : UInt32) :
    ∃ w, manualCalGRfcaliStatus cells inRfcali word = some w := by
  obtain ⟨item, searched, small⟩ := cali
  simp only [manualCalGRfcaliStatus, manualCalGetRfcaliStatusInflash, holds.searchOptTab, found, searched,
    Option.bind_some, if_neg present]
  by_cases absent : item = 0
  · rw [if_pos absent]
    exact ⟨_, rfl⟩
  · have fits : ¬ 4 < (readHead cells item).len.toNat := Nat.not_lt.mpr (small absent)
    rw [if_neg absent, readItem, if_neg fits]
    exact ⟨_, rfl⟩

/-- Where a type is not found it is not there. -/
theorem Holds.not_mem (holds : Holds cells es) {type : UInt32}
    (found : manualCalSearchTxpwrTab cells type rfStart = some 0) : type ∉ types es := by
  intro present
  have low := rfStart_eq
  rw [holds.search, if_pos present] at found
  have zero := Option.some.inj found
  omega

theorem Holds.mem (holds : Holds cells es) {type : UInt32} {addr : Nat} (nonzero : addr ≠ 0)
    (found : manualCalSearchTxpwrTab cells type rfStart = some addr) : type ∈ types es := by
  by_contra absent
  rw [holds.search_absent absent] at found
  exact nonzero (Option.some.inj found).symm

theorem ready_ne_none : manualCalTxpwrTabIsFitted ≠ TXPWR_NONE_RD := by decide

/-- The tables are saved behind the table or in their place. -/
theorem saveTxpwrTab_holds (room : rfStart + 0x1000 ≤ chip.flashSize) (holds : Holds cells es)
    (small : TXPWR_TAB_TAB ∉ types es → 8 + size es + txpwrLen ≤ BK_FLASH_SECTOR_SIZE)
    (fits : TxpwrFits cells) (u : Uninit) (inRfcali : Bool) (tabs : Tabs) :
    ∃ cells' w, manualCalSaveTxpwrTabToFlash chip u inRfcali cells tabs = some (cells', 1) ∧
      Holds cells' (put TXPWR_TAB_TAB (txpwrPayload tabs w) (txpwrPayload tabs w).length es) ∧
      size (put TXPWR_TAB_TAB (txpwrPayload tabs w) (txpwrPayload tabs w).length es) =
        size es + need TXPWR_TAB_TAB txpwrLen es := by
  have low := rfStart_eq
  rcases fits with ⟨missing, enable⟩ | ⟨addr, nonzero, found, length, enable, cali⟩
  · have absent := holds.not_mem missing
    obtain ⟨w, tag⟩ := txpwrTag_eq (u := u) enable (status_absent holds absent inRfcali u.word) tabs
    have total : 8 + (txpwrPayload tabs w).length = txpwrLen := by
      rw [length_txpwrPayload]
      rfl
    refine ⟨_, w, ?_, holds.write_append u.heap room absent total (small absent)⟩
    simp only [manualCalSaveTxpwrTabToFlash, if_neg ready_ne_none, holds.searchOptTab, missing,
      Option.bind_some, if_true, tag, Option.map_some, Nat.sub_self]
  · obtain ⟨front, payload, back, around, first, rest, searched, len, -⟩ :=
      holds.search_item (holds.mem nonzero found)
    obtain rfl : rfStart + 8 + size front = addr := Option.some.inj (searched.symm.trans found)
    obtain ⟨w, tag⟩ := txpwrTag_eq (u := u) enable
      (status_present holds nonzero found cali inRfcali u.word) tabs
    have same : (txpwrPayload tabs w).length = payload.length := by
      rw [length_txpwrPayload, ← length, len]
    have offset : rfStart + 8 + size front - rfStart = 8 + size front := by omega
    refine ⟨_, w, ?_, holds.write_replace u.heap room around first rest same,
      size_put_replace txpwrLen around first rest same⟩
    simp only [manualCalSaveTxpwrTabToFlash, if_neg ready_ne_none, holds.searchOptTab, found,
      Option.bind_some, if_neg nonzero, tag, Option.map_some, List.nil_append, offset]

/-! ### Saving the chip's information -/

def chipinfoPayload (info : ChipInfo) : List UInt8 := encode (chipinfoEntries info)

theorem length_chipinfoPayload (info : ChipInfo) : (chipinfoPayload info).length = chipinfoLen - 8 := by
  simp only [chipinfoPayload, length_encode, chipinfoEntries, size, Entry.size, length_toLe32,
    Vector.length_toList, List.length_append, chipinfoLen]

theorem chipinfoTag_eq (info : ChipInfo) :
    chipinfoTag info = Entry.bytes ⟨TXID, chipinfoPayload info⟩ := by
  rw [Entry.bytes, length_chipinfoPayload]
  rfl

theorem length_chipinfoTag (info : ChipInfo) : (chipinfoTag info).length = chipinfoLen := by
  rw [chipinfoTag_eq, Entry.length_bytes, Entry.size, length_chipinfoPayload]
  rfl

theorem length_copyLonger (cells : Mem UInt8) (es : List Entry) (len : Nat) :
    (RfCal.copyLonger cells (8 + size es) len).length = 8 + size es := by
  rw [RfCal.copyLonger, length_splice (by
    rw [flashReadData_eq, Mem.length_read, Tlv.length_head]
    omega), flashReadData_eq, Mem.length_read]

/-- The buffer behind the copy is filled entirely. -/
theorem splice_chipinfoTag (info : ChipInfo) (heap : Mem UInt8) :
    splice (RfCal.copyLonger cells (8 + size es) (8 + size es + chipinfoLen) ++
        heap.read (8 + size es) chipinfoLen) (8 + size es) (chipinfoTag info) =
      RfCal.copyLonger cells (8 + size es) (8 + size es + chipinfoLen) ++
        Entry.bytes ⟨TXID, chipinfoPayload info⟩ := by
  have copied := length_copyLonger cells es (8 + size es + chipinfoLen)
  have place := splice_append (RfCal.copyLonger cells (8 + size es) (8 + size es + chipinfoLen))
    (heap.read (8 + size es) chipinfoLen) [] (chipinfoTag info)
    (by rw [Mem.length_read, length_chipinfoTag])
  rw [List.append_nil, List.append_nil, copied] at place
  rw [place, chipinfoTag_eq]

/-- The first item is written over in the copy of the table. -/
theorem splice_first (info : ChipInfo) {payload : List UInt8}
    (around : es = front ++ ⟨TXID, payload⟩ :: back) (at_front : size front = 0)
    (same : (chipinfoPayload info).length = payload.length) :
    splice (tblBytes es) 8 (chipinfoTag info) =
      tblBytes (front ++ ⟨TXID, chipinfoPayload info⟩ :: back) := by
  have alike : Entry.size ⟨TXID, chipinfoPayload info⟩ = Entry.size ⟨TXID, payload⟩ := by
    rw [Entry.size, Entry.size, same]
  have place := splice_item front back 0 (by rw [Entry.length_bytes, alike]; omega) (splice_bytes alike)
    alike
  rwa [← around, at_front, ← chipinfoTag_eq] at place

/-- The information is saved behind the table or in the place of its first item. -/
theorem saveChipinfo_holds (room : rfStart + 0x1000 ≤ chip.flashSize) (holds : Holds cells es)
    (small : TXID ∉ types es → 8 + size es + chipinfoLen ≤ BK_FLASH_SECTOR_SIZE)
    (fits : ChipinfoFits cells) (u : Uninit) (info : ChipInfo) :
    ∃ cells', manualCalSaveChipinfoTabToFlash chip u cells info = some (cells', 1) ∧
      Holds cells' (put TXID (chipinfoPayload info) (chipinfoPayload info).length es) ∧
      size (put TXID (chipinfoPayload info) (chipinfoPayload info).length es) =
        size es + need TXID chipinfoLen es := by
  rcases fits with missing | ⟨found, length⟩
  · have absent := holds.not_mem missing
    have total : 8 + (chipinfoPayload info).length = chipinfoLen := by
      rw [length_chipinfoPayload]
      rfl
    have copied := length_copyLonger cells es (8 + size es + chipinfoLen)
    refine ⟨_, ?_, holds.write_append u.heap room absent total (small absent)⟩
    simp only [manualCalSaveChipinfoTabToFlash, chipinfoBuf, holds.searchOptTab, missing, Option.map_some,
      if_true, Option.bind_some, List.length_append, copied, Mem.length_read, Nat.lt_irrefl, if_false,
      splice_chipinfoTag]
  · have low := rfStart_eq
    have nonzero : rfStart + 8 ≠ 0 := by omega
    obtain ⟨front, payload, back, around, first, rest, searched, len, -⟩ :=
      holds.search_item (holds.mem nonzero found)
    have at_front : size front = 0 := by
      have address := Option.some.inj (searched.symm.trans found)
      omega
    rw [at_front, Nat.add_zero, length] at len
    have same : (chipinfoPayload info).length = payload.length := by rw [length_chipinfoPayload, len]
    have bytes := splice_first info around at_front same
    have sizes := size_put_replace chipinfoLen around first rest same
    have replaced := put_replace first rest same.symm
    rw [← around] at replaced
    -- the table keeps its length, so the copy is written back whole
    have long : (splice (tblBytes es) 8 (chipinfoTag info)).length = 8 + size es := by
      rw [bytes, ← replaced, length_tblBytes, sizes, need, if_pos (holds.mem nonzero found), Nat.add_zero]
    have written := update_whole u.heap (splice (tblBytes es) 8 (chipinfoTag info)) room holds
      (Nat.le_of_eq long.symm) (by rw [long]; exact holds.fits)
    have enough : ¬ 8 + size es < 8 + chipinfoLen := by
      have inside := size_item_le around
      change size front + (8 + payload.length) ≤ size es at inside
      have eight : chipinfoLen = 8 + (chipinfoLen - 8) := rfl
      omega
    refine ⟨manualCalUpdateFlashArea chip u.heap cells 0 (splice (tblBytes es) 8 (chipinfoTag info)), ?_,
      ?_, sizes⟩
    · simp only [manualCalSaveChipinfoTabToFlash, chipinfoBuf, holds.searchOptTab, found, Option.map_some,
        if_neg nonzero, Option.bind_some, flashReadData_eq, holds.stored, length_tblBytes, if_neg enough]
    · rw [long, bytes] at written
      rw [bytes, replaced]
      exact holds.replace around same written

/-! ### Writing the address -/

/-- The address is written over part of `TXID`, or nothing is. -/
theorem writeMacaddr_holds (room : rfStart + 0x1000 ≤ chip.flashSize) (holds : Holds cells es)
    (fits : MacFits cells) (u : Uninit) (mac : Vector UInt8 6) :
    ∃ cells' ret es', manualCalWriteMacaddrToFlash chip u cells mac = some (cells', ret) ∧
      Holds cells' es' ∧ types es' = types es ∧ size es' = size es ∧
      (∀ type, type ≠ TXID → lookup type es' = lookup type es) ∧
      (ret ≠ 0 → TXID ∈ types es) := by
  rcases fits with missing | ⟨addr, found', nonzero, found, searched, inside⟩
  · refine ⟨cells, 0, es, ?_, holds, rfl, rfl, fun _ _ => rfl, fun wrote => absurd rfl wrote⟩
    simp only [manualCalWriteMacaddrToFlash, holds.searchOptTab, missing, Option.bind_some, if_true]
  · by_cases absent : found' = 0
    · refine ⟨cells, 0, es, ?_, holds, rfl, rfl, fun _ _ => rfl, fun wrote => absurd rfl wrote⟩
      simp only [manualCalWriteMacaddrToFlash, holds.searchOptTab, found, Option.bind_some, if_neg nonzero,
        searched, Option.map_some, if_pos absent]
    · have present := holds.mem nonzero found
      obtain ⟨front, payload, back, around, first, rest, at_addr, len, -⟩ := holds.search_item present
      obtain rfl : rfStart + 8 + size front = addr := Option.some.inj (at_addr.symm.trans found)
      obtain ⟨above, below⟩ := inside absent
      rw [len] at below
      obtain ⟨k, rfl⟩ := Nat.exists_eq_add_of_le above
      have six : mac.toList.length = 6 := Vector.length_toList
      have fits : k + mac.toList.length ≤ payload.length := by omega
      have same : (splice payload k mac.toList).length = payload.length := length_splice fits
      have alike : Entry.size ⟨TXID, splice payload k mac.toList⟩ = Entry.size ⟨TXID, payload⟩ := by
        rw [Entry.size, Entry.size, same]
      have offset : rfStart + 8 + size front + k + 8 - rfStart = 8 + size front + (8 + k) := by omega
      have room_left := size_item_le around
      change size front + (8 + payload.length) ≤ size es at room_left
      -- the six bytes are inside the item
      have later : 8 + size front + (8 + k) ≠ 0 := by omega
      have written := update_inside u.heap mac.toList room holds later (by omega) (by omega)
      have place := splice_item front back (8 + k)
        (by rw [Entry.size]; dsimp only; omega) (splice_payload TXID fits) alike
      rw [← around] at place
      refine ⟨_, 1, front ++ ⟨TXID, splice payload k mac.toList⟩ :: back, ?_,
        holds.replace around same (written.trans place), ?_, ?_, fun type other => ?_, fun _ => present⟩
      · simp only [manualCalWriteMacaddrToFlash, holds.searchOptTab, found, Option.bind_some, if_neg nonzero,
          searched, Option.map_some, if_neg absent, offset]
      · rw [around]
        exact types_replace rfl
      · rw [around, size_append, size_append, size, size, alike]
      · have apart : TXID ≠ type := Ne.symm other
        rw [around, lookup_append, lookup_append, lookup, lookup, if_neg apart, if_neg apart]

end Bk7251.RfCal
