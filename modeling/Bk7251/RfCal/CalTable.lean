import Bk7251.NetParam.Table
import Bk7251.RfCal.ManualCal

/-!
# What the calibration partition holds

A partition holds a list of items with distinct types. Searching it, reading an item of an item, and
writing part of the sector again are described by what they do to that list.
-/
namespace Bk7251.RfCal

open Lib Nor Flash Tlv
open NetParam (readHead scan scanFuel readHead_of_read scan_encode offsetOf_lt read_append length_le_size)

/-- The bytes of a table: its head with the length of all items, then the items. -/
def tblBytes (es : List Entry) : List UInt8 := Tlv.head BK_FLASH_OPT_TLV_HEADER (size es) ++ encode es

theorem length_tblBytes (es : List Entry) : (tblBytes es).length = 8 + size es := by
  rw [tblBytes, List.length_append, length_head, length_encode]

structure Holds (cells : Mem UInt8) (es : List Entry) : Prop where
  nodup : (types es).Nodup
  fits : 8 + size es ≤ BK_FLASH_SECTOR_SIZE
  stored : cells.read rfStart (8 + size es) = tblBytes es

theorem rfStart_eq : rfStart = 0x1e0000 := rfl

/-! ### Searching -/

section

variable {cells : Mem UInt8} {es front back : List Entry} {e : Entry}

/-- An item of a stored list, head and payload. -/
theorem item_at {base : Nat} (stored : cells.read base (size es) = encode es)
    (around : es = front ++ e :: back) (small : e.payload.length < 2 ^ 32) :
    readHead cells (base + size front) = ⟨e.type, UInt32.ofNat e.payload.length⟩ ∧
      (readHead cells (base + size front)).len.toNat = e.payload.length ∧
      cells.read (base + size front + 8) e.payload.length = e.payload := by
  rw [around, size_append, encode_append, ← length_encode front] at stored
  have here := (read_append _ stored).2
  -- the item is what begins behind those in front of it
  rw [size, encode, ← Entry.length_bytes] at here
  have entry := (read_append _ here).1
  rw [Entry.length_bytes, length_encode, Entry.size, Entry.bytes] at entry
  obtain ⟨head, payload⟩ := read_append (Tlv.head e.type e.payload.length) entry
  have read := readHead_of_read head
  refine ⟨read, ?_, payload⟩
  rw [read, UInt32.toNat_ofNat']
  exact Nat.mod_eq_of_lt small

theorem size_item_le (around : es = front ++ e :: back) : size front + e.size ≤ size es := by
  rw [around, size_append, size]
  omega

/-- Searching a stored list with a head in front of it. -/
theorem search_in (type : UInt32) {start : Nat} (table : (manualCalSearchOptTab cells).isSome)
    (length : (readHead cells start).len.toNat = size es)
    (stored : cells.read (start + 8) (size es) = encode es) (nodup : (types es).Nodup)
    (bound : start + 8 + size es < 2 ^ 32) :
    manualCalSearchTxpwrTab cells type start =
      some (if type ∈ types es then start + 8 + offsetOf type es else 0) := by
  obtain ⟨flashLen, found⟩ := Option.isSome_iff_exists.mp table
  have enough : es.length < scanFuel := by
    have short := length_le_size es
    rw [scanFuel]
    omega
  have stops := scan_encode type es scanFuel (start + 8) stored bound enough
  have first : (start + 8) % 2 ^ 32 = start + 8 := Nat.mod_eq_of_lt (by omega)
  simp only [manualCalSearchTxpwrTab, found, length, first]
  rw [Nat.mod_eq_of_lt bound, stops, Option.map_some]
  congr 1
  -- an item that is not there is searched up to the end of the list, which the call answers with 0
  by_cases present : type ∈ types es
  · have inside := offsetOf_lt nodup present
    rw [if_pos present, if_neg (by omega)]
  · rw [if_neg present, offsetOf_of_not_mem present, if_pos (Nat.le_refl _)]

namespace Holds

theorem head (holds : Holds cells es) :
    readHead cells rfStart = ⟨BK_FLASH_OPT_TLV_HEADER, UInt32.ofNat (size es)⟩ :=
  readHead_of_read (read_append (Tlv.head BK_FLASH_OPT_TLV_HEADER (size es)) holds.stored).1

theorem entries (holds : Holds cells es) : cells.read (rfStart + 8) (size es) = encode es :=
  (read_append (Tlv.head BK_FLASH_OPT_TLV_HEADER (size es)) holds.stored).2

theorem small (holds : Holds cells es) : 8 + size es ≤ 4096 := holds.fits

theorem length_head (holds : Holds cells es) : (readHead cells rfStart).len.toNat = size es := by
  have small := holds.small
  rw [holds.head, UInt32.toNat_ofNat']
  exact Nat.mod_eq_of_lt (by omega)

theorem searchOptTab (holds : Holds cells es) : manualCalSearchOptTab cells = some (8 + size es) := by
  have small := holds.small
  have length : (size es + 8) % 2 ^ 32 = 8 + size es := by
    rw [Nat.mod_eq_of_lt (by omega), Nat.add_comm]
  simp only [manualCalSearchOptTab, holds.length_head, length]
  rw [holds.head]
  exact if_pos rfl

theorem search (holds : Holds cells es) (type : UInt32) :
    manualCalSearchTxpwrTab cells type rfStart =
      some (if type ∈ types es then rfStart + 8 + offsetOf type es else 0) := by
  have small := holds.small
  have low := rfStart_eq
  refine search_in type ?_ holds.length_head holds.entries holds.nodup (by omega)
  rw [holds.searchOptTab]
  rfl

theorem search_absent (holds : Holds cells es) {type : UInt32} (absent : type ∉ types es) :
    manualCalSearchTxpwrTab cells type rfStart = some 0 := by
  rw [holds.search, if_neg absent]

/-- Where the search finds the item, its head and its payload. -/
theorem search_item (holds : Holds cells es) {type : UInt32} (present : type ∈ types es) :
    ∃ front payload back, es = front ++ ⟨type, payload⟩ :: back ∧ type ∉ types front ∧
      type ∉ types back ∧
      manualCalSearchTxpwrTab cells type rfStart = some (rfStart + 8 + size front) ∧
      (readHead cells (rfStart + 8 + size front)).len.toNat = payload.length ∧
      cells.read (rfStart + 8 + size front + 8) payload.length = payload := by
  obtain ⟨front, payload, back, around, first, rest, offset⟩ := split_of_mem holds.nodup present
  have small := holds.small
  have inside := size_item_le around
  change size front + (8 + payload.length) ≤ size es at inside
  have short : payload.length < 2 ^ 32 := by omega
  have item := item_at holds.entries around short
  refine ⟨front, payload, back, around, first, rest, ?_, item.2.1, item.2.2⟩
  rw [holds.search, if_pos present, offset]

end Holds

/-! ### Items of an item -/

theorem toList_fill {k : Nat} (old : Vector UInt8 k) (xs : List UInt8) (full : xs.length = k) :
    (fill old xs).toList = xs := by
  apply List.ext_getElem
  · rw [Vector.length_toList, full]
  · intro i left right
    simp [fill, List.getD_eq_getElem?_getD, List.getElem?_eq_getElem right]

/-- An item of the stored list is read into a variable of its size. -/
theorem loadItem_in {k : Nat} {type : UInt32} {start : Nat} {payload : List UInt8} (old : Vector UInt8 k)
    (table : (manualCalSearchOptTab cells).isSome) (length : (readHead cells start).len.toNat = size es)
    (stored : cells.read (start + 8) (size es) = encode es) (nodup : (types es).Nodup)
    (bound : start + 8 + size es < 2 ^ 32) (known : lookup type es = some payload)
    (full : payload.length = k) :
    ∃ addr, addr ≠ 0 ∧ manualCalSearchTxpwrTab cells type start = some addr ∧
      ∃ v, readItem cells addr old = some v ∧ v.toList = payload := by
  have present : type ∈ types es := by
    rw [mem_types_iff_lookup, known]
    rfl
  obtain ⟨front, payload', back, around, first, -, offset⟩ := split_of_mem nodup present
  have same : payload' = payload := by
    rw [around, lookup_append, lookup_of_not_mem first] at known
    simpa [lookup] using known
  subst same
  have inside := size_item_le around
  change size front + (8 + payload'.length) ≤ size es at inside
  have short : payload'.length < 2 ^ 32 := by omega
  have item := item_at stored around short
  have found := search_in type table length stored nodup bound
  rw [if_pos present, offset] at found
  refine ⟨_, ?_, found, ?_⟩
  · omega
  · have fits : ¬ k < payload'.length := by omega
    refine ⟨fill old payload', ?_, toList_fill old payload' full⟩
    simp only [readItem, item.2.1, if_neg fits, flashReadData_eq, item.2.2]

end

/-! ### Writing the sector again -/

section

variable {chip : Chip} {es : List Entry} {addrOffset writeLen : Nat} {buf : List UInt8}

theorem read_writeAgain (heap cells : Mem UInt8) (room : rfStart + 0x1000 ≤ chip.flashSize)
    (some_bytes : 0 < writeLen) (small : writeLen ≤ BK_FLASH_SECTOR_SIZE)
    (inside : addrOffset + buf.length ≤ writeLen) :
    (writeAgain chip heap cells addrOffset writeLen buf).read rfStart writeLen =
      splice (if addrOffset ≠ 0 then cells.read rfStart writeLen else heap.read 0 writeLen) addrOffset
        buf := by
  have low := rfStart_eq
  have sector : sectorOf rfStart = rfStart := by decide
  have size : BK_FLASH_SECTOR_SIZE = 4096 := rfl
  have length : (splice (if addrOffset ≠ 0 then cells.read rfStart writeLen else heap.read 0 writeLen)
      addrOffset buf).length = writeLen := by
    have before : (if addrOffset ≠ 0 then cells.read rfStart writeLen else heap.read 0 writeLen).length =
        writeLen := by split <;> exact Mem.length_read _ _ _
    rw [length_splice (by rw [before]; exact inside), before]
  simp only [writeAgain, flashReadData_eq, flashEraseSector, sector]
  rw [if_neg (by omega), flashWriteData_eq, if_pos (writable_of_le chip (by omega) (by omega)),
    Mem.read_ofList _ (by rw [length]; omega), List.drop_zero, List.take_of_length_le (Nat.le_of_eq length)]
  -- the sector is blank when it is written, so the bytes arrive as they are
  have stored := read_program_erased (erase cells rfStart SECTOR) rfStart
    (splice (if addrOffset ≠ 0 then cells.read rfStart writeLen else heap.read 0 writeLen) addrOffset buf)
    (fun x lower upper => erase_inside _ lower (by rw [SECTOR]; omega))
  rwa [length] at stored

theorem drop_splice (xs ys : List UInt8) (k : Nat) (inside : k + ys.length ≤ xs.length) :
    ((splice xs k ys).drop k).take ys.length = ys := by
  have front : (xs.take k).length = k := by
    rw [List.length_take]
    omega
  rw [splice, List.append_assoc, List.drop_left' front, List.take_left]

/-- What was written reads back, so the first try is the last. -/
theorem writeTries_eq (heap cells : Mem UInt8) (room : rfStart + 0x1000 ≤ chip.flashSize)
    (some_bytes : 0 < writeLen) (small : writeLen ≤ BK_FLASH_SECTOR_SIZE)
    (inside : addrOffset + buf.length ≤ writeLen) (times : Nat) :
    writeTries chip heap addrOffset writeLen buf (times + 1) cells =
      writeAgain chip heap cells addrOffset writeLen buf := by
  have written := read_writeAgain heap cells room some_bytes small inside
  have check : flashReadData (writeAgain chip heap cells addrOffset writeLen buf) (rfStart + addrOffset)
      buf.length = buf := by
    have before : (if addrOffset ≠ 0 then cells.read rfStart writeLen else heap.read 0 writeLen).length =
        writeLen := by split <;> exact Mem.length_read _ _ _
    -- the bytes that are compared are those spliced in
    have part := drop_splice (if addrOffset ≠ 0 then cells.read rfStart writeLen
      else heap.read 0 writeLen) buf addrOffset (by rw [before]; exact inside)
    rw [← written, Mem.drop_read, Mem.take_read, Nat.min_eq_right (by omega)] at part
    rw [flashReadData_eq, part]
  simp only [writeTries, check, if_true]

/-- Part of a table is written over. -/
theorem update_inside (heap : Mem UInt8) {cells : Mem UInt8} (buf : List UInt8)
    (room : rfStart + 0x1000 ≤ chip.flashSize) (holds : Holds cells es) (later : addrOffset ≠ 0)
    (some_bytes : buf.length ≠ 0) (inside : addrOffset + buf.length ≤ 8 + size es) :
    (manualCalUpdateFlashArea chip heap cells addrOffset buf).read rfStart (8 + size es) =
      splice (tblBytes es) addrOffset buf := by
  have fits := holds.fits
  have small := holds.small
  have size : BK_FLASH_SECTOR_SIZE = 4096 := rfl
  simp only [manualCalUpdateFlashArea, holds.searchOptTab]
  rw [if_neg (by omega), if_neg some_bytes, if_pos inside, BK_FLASH_WRITE_CHECK_TIMES,
    writeTries_eq heap cells room (by omega) fits inside,
    read_writeAgain heap cells room (by omega) fits inside, if_pos later, holds.stored]

/-- A buffer at least as long as the table takes its place. -/
theorem update_whole (heap : Mem UInt8) {cells : Mem UInt8} (buf : List UInt8)
    (room : rfStart + 0x1000 ≤ chip.flashSize) (holds : Holds cells es)
    (longer : 8 + size es ≤ buf.length) (fits : buf.length ≤ BK_FLASH_SECTOR_SIZE) :
    (manualCalUpdateFlashArea chip heap cells 0 buf).read rfStart buf.length = buf := by
  have whole : (if 0 + buf.length ≤ 8 + size es then 8 + size es else 0 + buf.length) = buf.length := by
    split <;> omega
  -- at offset 0 what the buffer held before is written over
  have all : splice (heap.read 0 buf.length) 0 buf = buf := by
    rw [splice, List.take_zero, List.nil_append, List.drop_eq_nil_of_le (by rw [Mem.length_read]; omega),
      List.append_nil]
  simp only [manualCalUpdateFlashArea, holds.searchOptTab, whole]
  rw [if_neg (Nat.not_lt_zero _), if_neg (by omega), BK_FLASH_WRITE_CHECK_TIMES,
    writeTries_eq heap cells room (by omega) fits (by omega),
    read_writeAgain heap cells room (by omega) fits (by omega),
    if_neg (not_not_intro rfl), all]

end

end Bk7251.RfCal
