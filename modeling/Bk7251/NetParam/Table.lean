import Bk7251.NetParam.NetParam

/-!
# What the partition holds

A partition holds either no table or a list of items with distinct types. The functions of
`net_param.c` are described by what they do to that list.
-/
namespace Bk7251.NetParam

open Lib Nor Flash Tlv

/-- A table that fits, with every type once. -/
structure Table where
  entries : List Entry
  nodup : (types entries).Nodup
  fits : 8 + size entries ≤ (bkFlashGetInfo .NET_PARAM).partitionLength

/-- The bytes of a table: its head with the length of all items, then the items. -/
def tblBytes (es : List Entry) : List UInt8 := Tlv.head INFO_TLV_HEADER (size es) ++ encode es

@[simp] theorem length_tblBytes (es : List Entry) : (tblBytes es).length = 8 + size es := by
  simp [tblBytes]

def Holds (cells : Mem UInt8) : Option Table → Prop
  | none => (readHead cells tblStart).type ≠ INFO_TLV_HEADER
  | some t => cells.read tblStart (8 + size t.entries) = tblBytes t.entries

/-- An item that is there has the size of its structure. -/
def Sized (es : List Entry) (item : NetInfoItem) : Prop :=
  ∀ payload, lookup item.code es = some payload → payload.length + 8 = infoItemLen item

def entriesOf (t : Option Table) : List Entry := (t.map Table.entries).getD []

section

variable {cells : Mem UInt8}

theorem fits_bound (t : Table) : 8 + size t.entries ≤ 0x1000 := t.fits

theorem tblStart_eq : tblStart = 0x1e1000 := rfl

/-! ### Reading -/

theorem readHead_of_read {addr len : Nat} {type : UInt32}
    (stored : cells.read addr 8 = Tlv.head type len) :
    readHead cells addr = ⟨type, UInt32.ofNat len⟩ := by
  simp only [readHead, flashReadData_eq, stored, Tlv.head, toLe32, Mem.load32, Mem.ofList,
    List.cons_append, List.nil_append, List.getD_cons_succ, List.getD_cons_zero, Nat.reduceAdd,
    ofLe32_toLe32]

theorem read_append {addr n : Nat} (xs : List UInt8) {ys : List UInt8}
    (stored : cells.read addr (xs.length + n) = xs ++ ys) :
    cells.read addr xs.length = xs ∧ cells.read (addr + xs.length) n = ys := by
  rw [Mem.read_add] at stored
  exact List.append_inj stored (by simp)

/-- The search stops at the first item of the type, or at the end. -/
theorem scan_encode (type : UInt32) (es : List Entry) : ∀ fuel addr,
    cells.read addr (size es) = encode es → addr + size es < 2 ^ 32 → es.length < fuel →
    scan cells type (addr + size es) fuel addr = some (addr + offsetOf type es) := by
  induction es with
  | nil =>
    intro fuel addr _ _ enough
    obtain ⟨fuel, rfl⟩ := Nat.exists_eq_succ_of_ne_zero (Nat.ne_zero_of_lt enough)
    simp [scan, size, offsetOf]
  | cons e es ih =>
    intro fuel addr stored bound enough
    obtain ⟨fuel, rfl⟩ := Nat.exists_eq_succ_of_ne_zero (Nat.ne_zero_of_lt enough)
    rw [size, encode, ← Entry.length_bytes] at stored
    obtain ⟨first, rest⟩ := read_append _ stored
    have entry : cells.read addr (8 + e.payload.length) = Tlv.head e.type e.payload.length ++ e.payload := by
      rwa [Entry.length_bytes, Entry.size, Entry.bytes] at first
    have head := readHead_of_read (read_append (Tlv.head e.type e.payload.length) entry).1
    rw [size] at bound ⊢
    rw [Entry.length_bytes] at rest
    have eight : e.size = 8 + e.payload.length := rfl
    rw [scan, if_pos (by omega), head]
    by_cases same : e.type = type
    · simp [same, offsetOf]
    · have length : (UInt32.ofNat e.payload.length).toNat = e.payload.length := by
        rw [UInt32.toNat_ofNat']
        exact Nat.mod_eq_of_lt (by omega)
      have next : (addr + 8 + e.payload.length) % 2 ^ 32 = addr + e.size := by
        rw [Nat.mod_eq_of_lt (by omega), eight, Nat.add_assoc]
      have later := ih fuel (addr + e.size) rest (by omega) (by simpa using enough)
      simp only [ne_eq, Ne.symm same, not_false_eq_true, if_true, length, next]
      rw [← Nat.add_assoc, later, offsetOf, if_neg same, Nat.add_assoc]

theorem length_le_size (es : List Entry) : es.length ≤ size es := by
  induction es with
  | nil => exact Nat.le_refl _
  | cons e es ih =>
    simp only [List.length_cons, size, Entry.size]
    omega

private theorem toNat_size (t : Table) :
    (UInt32.ofNat (size t.entries)).toNat = size t.entries := by
  have fits := fits_bound t
  rw [UInt32.toNat_ofNat']
  exact Nat.mod_eq_of_lt (by omega)

theorem offsetOf_lt {type : UInt32} {es : List Entry} (nodup : (types es).Nodup)
    (present : type ∈ types es) : offsetOf type es < size es := by
  obtain ⟨front, payload, back, rfl, -, -, offset⟩ := split_of_mem nodup present
  rw [offset, size_append, size, Entry.size]
  omega

theorem readHead_holds {t : Table} (holds : Holds cells (some t)) :
    readHead cells tblStart = ⟨INFO_TLV_HEADER, UInt32.ofNat (size t.entries)⟩ :=
  readHead_of_read (read_append (Tlv.head INFO_TLV_HEADER (size t.entries)) holds).1

theorem read_entries {t : Table} (holds : Holds cells (some t)) :
    cells.read (tblStart + 8) (size t.entries) = encode t.entries :=
  (read_append (Tlv.head INFO_TLV_HEADER (size t.entries)) holds).2

theorem searchInfoTbl_none (holds : Holds cells none) : searchInfoTbl cells = none := by
  simp only [searchInfoTbl]
  rw [if_neg (Ne.symm holds)]

theorem searchInfoTbl_some {t : Table} (holds : Holds cells (some t)) :
    searchInfoTbl cells = some (8 + size t.entries, tblBytes t.entries) := by
  have fits := fits_bound t
  have length : (size t.entries + 8) % 2 ^ 32 = 8 + size t.entries := by
    rw [Nat.mod_eq_of_lt (by omega), Nat.add_comm]
  simp only [searchInfoTbl, readHead_holds holds, toNat_size, if_true, length, flashReadData_eq]
  rw [holds]

theorem searchInfoItem_some {t : Table} (holds : Holds cells (some t)) (type : UInt32) :
    searchInfoItem cells type tblStart =
      some (if type ∈ types t.entries then tblStart + 8 + offsetOf type t.entries else 0) := by
  have fits := fits_bound t
  have low := tblStart_eq
  have enough : t.entries.length < scanFuel := by
    have short := length_le_size t.entries
    rw [scanFuel]
    omega
  have found := scan_encode type t.entries scanFuel (tblStart + 8) (read_entries holds) (by omega) enough
  have start : (tblStart + 8) % 2 ^ 32 = tblStart + 8 := Nat.mod_eq_of_lt (by omega)
  simp only [searchInfoItem, readHead_holds holds, toNat_size, start]
  rw [Nat.mod_eq_of_lt (by omega), found, Option.map_some]
  congr 1
  by_cases present : type ∈ types t.entries
  · have inside := offsetOf_lt t.nodup present
    rw [if_pos present, if_neg (by omega)]
  · rw [if_neg present, offsetOf_of_not_mem present, if_pos (Nat.le_refl _)]

/-! ### Getting an item -/

/-- What `get_info_item` gives back of an item's payload. -/
def gotOf (item : NetInfoItem) (payload : List UInt8) : Got :=
  match item with
  | .SSID_KEY_ITEM => ⟨1, payload.take 32, (payload.drop 32).take 64, []⟩
  | .IP_CONFIG_ITEM =>
    ⟨1, payload.take 16, (payload.drop 16).take 16, (payload.drop 32).take 16⟩
  | _ => ⟨1, payload, [], []⟩

private theorem read_part {addr k n : Nat} {payload : List UInt8}
    (stored : cells.read addr payload.length = payload) (fits : k + n ≤ payload.length) :
    flashReadData cells (addr + k) n = (payload.drop k).take n := by
  rw [flashReadData_eq]
  apply List.ext_getElem
  · simp
    omega
  · intro i left right
    have low : i < n := by simpa using left
    have inside : k + i < (cells.read addr payload.length).length := by simp; omega
    rw [Mem.getElem_read, List.getElem_take, List.getElem_drop, Nat.add_assoc,
      ← Mem.getElem_read cells addr payload.length _ inside]
    simp only [stored]

theorem readItem_eq {item : NetInfoItem} {addr : Nat} {payload : List UInt8}
    (stored : cells.read addr payload.length = payload)
    (sized : payload.length + 8 = infoItemLen item) :
    readItem cells item true true true payload.length addr = gotOf item payload := by
  have whole : flashReadData cells addr payload.length = payload := by
    rw [flashReadData_eq, stored]
  have part : ∀ k n, k + n ≤ payload.length →
      flashReadData cells (addr + k) n = (payload.drop k).take n := fun k n fits => read_part stored fits
  have front : ∀ n, n ≤ payload.length → flashReadData cells addr n = payload.take n :=
    fun n fits => part 0 n (by omega)
  cases item <;> simp only [infoItemLen] at sized <;> simp only [readItem, gotOf, whole, and_self, if_true]
  case SSID_KEY_ITEM => rw [front 32 (by omega), part 32 64 (by omega)]
  case IP_CONFIG_ITEM => rw [front 16 (by omega), part 16 16 (by omega), part 32 16 (by omega)]

/-- An item of the table is given back. -/
theorem getInfoItem_some {t : Table} (holds : Holds cells (some t)) {item : NetInfoItem}
    {payload : List UInt8} (known : lookup item.code t.entries = some payload)
    (sized : payload.length + 8 = infoItemLen item) :
    getInfoItem cells item true true true = some (gotOf item payload) := by
  have present : item.code ∈ types t.entries := by
    rw [mem_types_iff_lookup, known]
    rfl
  obtain ⟨front, payload', back, around, first, -, offset⟩ := split_of_mem t.nodup present
  have same : payload' = payload := by
    rw [around, lookup_append, lookup_of_not_mem first] at known
    simpa [lookup] using known
  subst same
  have fits := fits_bound t
  -- cut the stored bytes at the item: those in front of it, its head, its payload
  have entries := read_entries holds
  rw [around, size_append, encode_append, ← length_encode front] at entries
  have here := (read_append _ entries).2
  rw [size, encode, ← Entry.length_bytes] at here
  have entry := (read_append _ here).1
  rw [length_encode, ← offset] at entry
  have split : cells.read (tblStart + 8 + offsetOf item.code t.entries) (8 + payload'.length) =
      Tlv.head item.code payload'.length ++ payload' := by
    rwa [Entry.length_bytes, Entry.size, Entry.bytes] at entry
  obtain ⟨head, content⟩ := read_append (Tlv.head item.code payload'.length) split
  have length : (UInt32.ofNat payload'.length).toNat = payload'.length := by
    have bound : infoItemLen item ≤ 104 := by cases item <;> decide
    rw [UInt32.toNat_ofNat']
    exact Nat.mod_eq_of_lt (by omega)
  have address : tblStart + 8 + offsetOf item.code t.entries ≠ 0 := by omega
  simp only [getInfoItem, searchInfoTbl_some holds, searchInfoItem_some holds, if_pos present,
    Option.map_some, if_neg address]
  rw [readHead_of_read head]
  simp only [length]
  exact congrArg some (readItem_eq content sized)

/-! ### Saving an item -/

theorem length_takeFields (item : NetInfoItem) (ptr0 ptr1 ptr2 : Mem UInt8) :
    (takeFields item ptr0 ptr1 ptr2).bytes.length + 8 ≤ infoItemLen item := by
  cases item <;> simp [takeFields, Fields.bytes, infoItemLen]

/-- Three copies put the item's payload, its head and the table's head in place. -/
private theorem rebuild_around {item : NetInfoItem} {fields : Fields} {l : Layout}
    (first front head payload back : List UInt8)
    (buffer : l.tbl ++ List.replicate (l.cfgTblLen - l.tbl.length) 0 =
      first ++ (front ++ (head ++ (payload ++ back))))
    (first8 : first.length = 8) (head8 : head.length = 8)
    (offset : l.addrOffset = 8 + front.length) (room : fields.bytes.length ≤ payload.length) :
    rebuild item fields l =
      Tlv.head INFO_TLV_HEADER l.headLen ++ (front ++ (Tlv.head item.code (infoItemLen item - 8) ++
        (overwrite fields.bytes payload ++ back))) := by
  have cut : payload = payload.take fields.bytes.length ++ payload.drop fields.bytes.length :=
    (List.take_append_drop _ _).symm
  have body : splice (first ++ (front ++ (head ++ (payload ++ back)))) (l.addrOffset + 8) fields.bytes =
      first ++ (front ++ (head ++ (overwrite fields.bytes payload ++ back))) := by
    have place := splice_append (first ++ (front ++ head)) (payload.take fields.bytes.length)
      (payload.drop fields.bytes.length ++ back) fields.bytes (by simpa using room)
    have at8 : (first ++ (front ++ head)).length = l.addrOffset + 8 := by
      simp only [List.length_append, first8, head8, offset]
      omega
    rw [at8, ← List.append_assoc (payload.take _), ← cut] at place
    simpa only [overwrite, List.append_assoc] using place
  -- the item head goes in front of the payload just written
  have heads : splice (first ++ (front ++ (head ++ (overwrite fields.bytes payload ++ back))))
      l.addrOffset (Tlv.head item.code (infoItemLen item - 8)) =
      first ++ (front ++ (Tlv.head item.code (infoItemLen item - 8) ++
        (overwrite fields.bytes payload ++ back))) := by
    have place := splice_append (first ++ front) head (overwrite fields.bytes payload ++ back)
      (Tlv.head item.code (infoItemLen item - 8)) head8
    have at0 : (first ++ front).length = l.addrOffset := by
      rw [List.length_append, first8, offset]
    rw [at0] at place
    simpa only [List.append_assoc] using place
  simp only [rebuild, buffer, body, heads]
  exact splice_append [] first _ _ first8

/-- The table after saving an item, reserved bytes starting as zeros. -/
def saveEntries (es : List Entry) (item : NetInfoItem) (fields : Fields) : List Entry :=
  put item.code fields.bytes (infoItemLen item - 8) es

private theorem eight_le (item : NetInfoItem) : 8 ≤ infoItemLen item := by
  cases item <;> decide

/-- A new item behind the items of a table, whatever the first eight bytes of the buffer. -/
private theorem rebuild_new {item : NetInfoItem} {fields : Fields} (l : Layout)
    (first : List UInt8) (es : List Entry)
    (small : fields.bytes.length + 8 ≤ infoItemLen item) (absent : item.code ∉ types es)
    (buffer : l.tbl ++ List.replicate (l.cfgTblLen - l.tbl.length) 0 =
      first ++ (encode es ++ List.replicate (infoItemLen item) 0))
    (first8 : first.length = 8) (offset : l.addrOffset = 8 + size es)
    (headLen : l.headLen = size es + infoItemLen item) :
    size (saveEntries es item fields) = size es + infoItemLen item ∧
      rebuild item fields l = tblBytes (saveEntries es item fields) := by
  have eight := eight_le item
  have length : (overwrite fields.bytes (List.replicate (infoItemLen item - 8) 0)).length =
      infoItemLen item - 8 := by
    rw [length_overwrite _ _ (by rw [List.length_replicate]; omega), List.length_replicate]
  have grown : size (saveEntries es item fields) = size es + infoItemLen item := by
    rw [saveEntries, put_of_not_mem absent, size_append, size, size, Entry.size, length]
    omega
  have zeros : List.replicate (infoItemLen item) (0 : UInt8) =
      List.replicate 8 0 ++ (List.replicate (infoItemLen item - 8) 0 ++ []) := by
    rw [List.append_nil, List.replicate_append_replicate]
    congr 1
    omega
  rw [zeros] at buffer
  refine ⟨grown, ?_⟩
  rw [rebuild_around _ _ _ _ _ buffer first8 (by simp) (by rw [offset, length_encode])
    (by rw [List.length_replicate]; omega), tblBytes, grown, headLen, saveEntries, put_of_not_mem absent,
    encode_append, encode, encode, Entry.bytes, length, List.append_nil, List.append_nil]

/-- What the buffer to write back must be. -/
def LaidOut (cells : Mem UInt8) (es : List Entry) (item : NetInfoItem) (fields : Fields) : Prop :=
  ∃ l, layout cells item = some l ∧
    l.cfgTblLen = 8 + size (saveEntries es item fields) ∧
    l.addrOffset + infoItemLen item ≤ l.cfgTblLen ∧
    rebuild item fields l = tblBytes (saveEntries es item fields)

/-- The sector is blank: the buffer is all zeros. -/
private theorem layout_blank (holds : Holds cells none) {item : NetInfoItem} {fields : Fields}
    (small : fields.bytes.length + 8 ≤ infoItemLen item) : LaidOut cells [] item fields := by
  obtain ⟨grown, rebuilt⟩ := rebuild_new
    ⟨8, 8 + infoItemLen item, infoItemLen item, []⟩ (List.replicate 8 0) []
    small (by simp [types])
    (by
      change List.replicate (8 + infoItemLen item - 0) 0 =
        List.replicate 8 0 ++ List.replicate (infoItemLen item) 0
      rw [List.replicate_append_replicate, Nat.sub_zero])
    (by simp) rfl (by simp [size])
  refine ⟨_, by simp only [layout, searchInfoTbl_none holds], ?_, Nat.le_refl _, rebuilt⟩
  change 8 + infoItemLen item = 8 + size (saveEntries [] item fields)
  rw [grown, size, Nat.zero_add]

/-- The item is there: it is overwritten in place and the length stays. -/
private theorem layout_present {t : Table} (holds : Holds cells (some t)) {item : NetInfoItem}
    {fields : Fields} (small : fields.bytes.length + 8 ≤ infoItemLen item)
    (sized : Sized t.entries item) (present : item.code ∈ types t.entries) :
    LaidOut cells t.entries item fields := by
  have fits := fits_bound t
  have low := tblStart_eq
  obtain ⟨front, payload, back, around, first, rest, offset⟩ := split_of_mem t.nodup present
  have known : lookup item.code t.entries = some payload := by
    rw [around, lookup_append, lookup_of_not_mem first]
    simp [lookup]
  have sized := sized payload known
  have room : fields.bytes.length ≤ payload.length := by omega
  have saved : saveEntries t.entries item fields =
      front ++ ⟨item.code, overwrite fields.bytes payload⟩ :: back := by
    rw [saveEntries, around, put_of_mem first rest]
  have length := length_overwrite fields.bytes payload room
  have half : infoItemLen item - 8 = (overwrite fields.bytes payload).length := by omega
  have same : size (saveEntries t.entries item fields) = size t.entries := by
    rw [saved, around, size_append, size_append, size, size, Entry.size, Entry.size, length]
  have whole : size t.entries = size front + (infoItemLen item + size back) := by
    rw [around, size_append, size, Entry.size]
    simp only []
    omega
  have address : tblStart + 8 + offsetOf item.code t.entries - tblStart = 8 + size front := by omega
  simp only [LaidOut, layout, searchInfoTbl_some holds, searchInfoItem_some holds, Option.map_some]
  rw [if_pos present, if_neg (by omega : tblStart + 8 + offsetOf item.code t.entries ≠ 0),
    if_neg (by omega : tblStart + 8 + offsetOf item.code t.entries ≠ 0)]
  refine ⟨_, rfl, ?_, ?_, ?_⟩
  · change 8 + size t.entries = _
    rw [← same]
  · simp only [offset]
    omega
  · rw [rebuild_around (Tlv.head INFO_TLV_HEADER (size t.entries)) (encode front)
      (Tlv.head item.code payload.length) payload (encode back)
      ?_ rfl rfl (by rw [address, length_encode]) room]
    · change Tlv.head INFO_TLV_HEADER (8 + size t.entries - 8) ++ _ =
        tblBytes (saveEntries t.entries item fields)
      rw [tblBytes, same, saved, encode_append, encode, Entry.bytes, ← half, Nat.add_sub_cancel_left,
        List.append_assoc]
    · simp only [length_tblBytes, Nat.sub_self, List.replicate_zero, List.append_nil]
      rw [tblBytes, around, encode_append, encode, Entry.bytes, List.append_assoc]

/-- A new item goes behind the table. -/
private theorem layout_absent {t : Table} (holds : Holds cells (some t)) {item : NetInfoItem}
    {fields : Fields} (small : fields.bytes.length + 8 ≤ infoItemLen item)
    (bound : 8 + size (saveEntries t.entries item fields) ≤ 0x1000)
    (absent : item.code ∉ types t.entries) : LaidOut cells t.entries item fields := by
  obtain ⟨grown, rebuilt⟩ := rebuild_new
    ⟨8 + size t.entries, 8 + size t.entries + infoItemLen item,
      8 + size t.entries + infoItemLen item - 8, tblBytes t.entries⟩
    (Tlv.head INFO_TLV_HEADER (size t.entries)) t.entries small absent
    (by
      simp only [length_tblBytes, Nat.add_sub_cancel_left]
      rw [tblBytes, List.append_assoc])
    rfl rfl (by simp only []; omega)
  have length : (8 + size t.entries + infoItemLen item) % 2 ^ 32 =
      8 + size t.entries + infoItemLen item := Nat.mod_eq_of_lt (by omega)
  simp only [LaidOut, layout, searchInfoTbl_some holds, searchInfoItem_some holds, Option.map_some,
    if_neg absent, if_true, length]
  refine ⟨_, rfl, ?_, Nat.le_refl _, rebuilt⟩
  change 8 + size t.entries + infoItemLen item = 8 + size (saveEntries t.entries item fields)
  rw [grown, Nat.add_assoc]

/-- The buffer that is written back holds the table with the item saved. -/
theorem layout_rebuild {t : Option Table} (holds : Holds cells t) {item : NetInfoItem}
    {fields : Fields} (small : fields.bytes.length + 8 ≤ infoItemLen item) (sized : Sized (entriesOf t) item)
    (bound : 8 + size (saveEntries (entriesOf t) item fields) ≤ 0x1000) :
    LaidOut cells (entriesOf t) item fields := by
  cases t with
  | none => exact layout_blank holds small
  | some t =>
    by_cases present : item.code ∈ types t.entries
    · exact layout_present holds small sized present
    · exact layout_absent holds small bound present

private theorem layout_isSome {t : Option Table} (holds : Holds cells t) (item : NetInfoItem) :
    (layout cells item).isSome := by
  cases t with
  | none => simp only [layout, searchInfoTbl_none holds, Option.isSome_some]
  | some t =>
    simp only [layout, searchInfoTbl_some holds, searchInfoItem_some holds, Option.map_some,
      Option.isSome_some]

/-- The sector is erased and the bytes written back in full. -/
theorem write_back {chip : Chip} (room : tblStart + 0x1000 ≤ chip.flashSize) {bytes : List UInt8}
    (some_bytes : 0 < bytes.length) (fits : bytes.length ≤ 0x1000) :
    (bkFlashWrite chip .NET_PARAM (bkFlashErase chip .NET_PARAM cells 0 bytes.length) 0 bytes).read
      tblStart bytes.length = bytes := by
  have low := tblStart_eq
  have last : (0 + bytes.length + (2 ^ 32 - 1)) % 2 ^ 32 / SECTOR = 0 := by
    rw [SECTOR]
    omega
  have sector : sectorOf tblStart = tblStart := by decide
  have erased : bkFlashErase chip .NET_PARAM cells 0 bytes.length = erase cells tblStart SECTOR := by
    simp only [bkFlashErase, last]
    simp only [Nat.zero_div, Nat.zero_add, Nat.sub_zero, List.range'_one, List.foldl_cons,
      List.foldl_nil, Nat.zero_mul, Nat.add_zero]
    rw [← tblStart, flashEraseSector, sector, if_neg (by omega)]
  rw [erased, bkFlashWrite, flashWriteData_eq, ← tblStart, Nat.add_zero,
    if_pos (writable_of_le chip (by omega) (by omega)), Mem.read_ofList _ (by omega), List.drop_zero,
    List.take_length]
  exact read_program_erased _ _ _ fun x lower upper =>
    erase_inside _ lower (by rw [SECTOR]; omega)

private theorem nodup_saveEntries (t : Option Table) (item : NetInfoItem) (fields : Fields) :
    (types (saveEntries (entriesOf t) item fields)).Nodup := by
  apply nodup_put
  cases t with
  | none => simp [entriesOf, types]
  | some t => exact t.nodup

/-- An item that has been saved has its size from then on. -/
theorem sized_saveEntries_self {es : List Entry} (nodup : (types es).Nodup) {item : NetInfoItem} {fields : Fields}
    (small : fields.bytes.length + 8 ≤ infoItemLen item) (sized : Sized es item) :
    Sized (saveEntries es item fields) item := by
  intro payload known
  have eight := eight_le item
  rw [saveEntries, lookup_put_self nodup] at known
  obtain rfl := Option.some.inj known
  cases found : lookup item.code es with
  | none =>
    rw [Option.getD_none, length_overwrite _ _ (by rw [List.length_replicate]; omega), List.length_replicate]
    omega
  | some old =>
    have before := sized old found
    rw [Option.getD_some, length_overwrite _ _ (by omega)]
    exact before

theorem sized_saveEntries_other {es : List Entry} {item other : NetInfoItem} {fields : Fields}
    (differs : other.code ≠ item.code) (sized : Sized es other) : Sized (saveEntries es item fields) other := by
  intro payload known
  rw [saveEntries, lookup_put_other differs] at known
  exact sized payload known

/-- The saved table keeps the shape of a table. -/
def Table.save (t : Option Table) (item : NetInfoItem) (fields : Fields)
    (bound : 8 + size (saveEntries (entriesOf t) item fields) ≤ 0x1000) : Table where
  entries := saveEntries (entriesOf t) item fields
  nodup := nodup_saveEntries t item fields
  fits := bound

/-- Saving an item puts it into the table. -/
theorem saveInfoItem_holds {chip : Chip} (room : tblStart + 0x1000 ≤ chip.flashSize)
    {t : Option Table} (holds : Holds cells t) (item : NetInfoItem) (ptr0 ptr1 ptr2 : Mem UInt8)
    (sized : Sized (entriesOf t) item)
    (bound : 8 + size (saveEntries (entriesOf t) item (takeFields item ptr0 ptr1 ptr2)) ≤ 0x1000) :
    ∃ cells', saveInfoItem chip true cells item ptr0 ptr1 ptr2 = some (cells', 1) ∧
      Holds cells' (some (.save t item _ bound)) := by
  obtain ⟨l, found, length, inside, rebuilt⟩ :=
    layout_rebuild holds (length_takeFields item ptr0 ptr1 ptr2) sized bound
  refine ⟨bkFlashWrite chip .NET_PARAM (bkFlashErase chip .NET_PARAM cells 0 l.cfgTblLen) 0
    (rebuild item (takeFields item ptr0 ptr1 ptr2) l), ?_, ?_⟩
  · simp only [saveInfoItem, found, Option.bind_some, not_true_eq_false, if_false,
      if_neg (Nat.not_lt.mpr inside)]
  · change Mem.read _ tblStart (8 + size (saveEntries _ _ _)) = tblBytes (saveEntries _ _ _)
    rw [rebuilt, length, ← length_tblBytes]
    exact write_back room (by rw [length_tblBytes]; omega) (by rwa [length_tblBytes])

/-- Without memory the flash stays as it is. -/
theorem saveInfoItem_noMemory (chip : Chip) {t : Option Table} (holds : Holds cells t)
    (item : NetInfoItem) (ptr0 ptr1 ptr2 : Mem UInt8) :
    saveInfoItem chip false cells item ptr0 ptr1 ptr2 = some (cells, 0) := by
  obtain ⟨l, found⟩ := Option.isSome_iff_exists.mp (layout_isSome holds item)
  simp [saveInfoItem, found]

end

end Bk7251.NetParam
