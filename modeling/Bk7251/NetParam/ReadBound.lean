import Bk7251.NetParam.SaveRuns
import Bk7251.RfCal.SearchEnds

/-!
# How much a read stores

Saving an item takes a fixed number of bytes from each pointer; getting it stores as many as the head in
flash says, except for the items of several fields.
-/
namespace Bk7251.NetParam

open Lib Flash Relation RfCal

/-- An item of the type that the search comes to below the end of the table. -/
structure Found (cells : Mem UInt8) (type : UInt32) (startAddr addr : Nat) : Prop where
  nonzero : addr ≠ 0
  reached : ReflTransGen (Leads (nextItem cells type (tableEnd cells startAddr))) (firstItem startAddr) addr
  below : addr < tableEnd cells startAddr
  type_eq : type = (readHead cells addr).type

theorem searchInfoItem_eq_iff (cells : Mem UInt8) (type : UInt32) (startAddr : Nat) {addr : Nat}
    (nonzero : addr ≠ 0) :
    searchInfoItem cells type startAddr = some addr ↔ Found cells type startAddr addr := by
  have bound : tableEnd cells startAddr < 2 ^ 32 := Nat.mod_lt _ (Nat.two_pow_pos 32)
  have ends := scan_isSome_iff cells type bound (firstItem startAddr)
  change (scan cells type (tableEnd cells startAddr) scanFuel (firstItem startAddr)).map
    (fun addr => if tableEnd cells startAddr ≤ addr then 0 else addr) = some addr ↔ _
  constructor
  · intro result
    obtain ⟨stop, stops, same⟩ := Option.map_eq_some_iff.mp result
    rw [scan_eq_walk] at stops
    obtain ⟨reached, last⟩ := walk_reaches stops
    split at same
    next => exact absurd same.symm nonzero
    next below =>
      subst same
      refine ⟨nonzero, reached, Nat.not_le.mp below, ?_⟩
      by_contra other
      rw [nextItem, if_pos ⟨Nat.not_le.mp below, other⟩] at last
      cases last
  · intro found
    have last : nextItem cells type (tableEnd cells startAddr) addr = none :=
      if_neg fun more => more.2 found.type_eq
    -- a walk that comes to a stop has no circle on it, so the fuel is enough
    obtain ⟨fuel, walks⟩ := exists_walk found.reached last
    obtain ⟨stop, stops⟩ := Option.isSome_iff_exists.mp (ends.mpr (acyclic_of_walk walks))
    have there : stop = addr := by
      rw [scan_eq_walk] at stops
      exact walk_unique stops found.reached last
    rw [stops, there, Option.map_some, if_neg (Nat.not_le.mpr found.below)]

/-- What saving takes from its first pointer, for the items with one field. -/
def takenLen : NetInfoItem → Nat
  | .WIFI_MAC_ITEM => 6
  | _ => 4

def OneField (item : NetInfoItem) : Prop := item ≠ .SSID_KEY_ITEM ∧ item ≠ .IP_CONFIG_ITEM

/-- Getting the item stores no more through a pointer than saving it takes from there. -/
def ReadBounded (cells : Mem UInt8) (item : NetInfoItem) (ptr0 ptr1 ptr2 : Bool) : Prop :=
  ∀ got, getInfoItem cells item ptr0 ptr1 ptr2 = some got → got.ret = 1 → ∀ buf0 buf1 buf2,
    let taken := takeFields item buf0 buf1 buf2
    got.out0.length ≤ taken.f0.length ∧ got.out1.length ≤ taken.f1.length ∧
      got.out2.length ≤ taken.f2.length

/-- The item that the search comes to is no longer than what is taken to save it. -/
def StoredFits (cells : Mem UInt8) (item : NetInfoItem) : Prop :=
  (readHead cells tblStart).type = INFO_TLV_HEADER →
    ∀ addr, Found cells item.code tblStart addr → (readHead cells addr).len.toNat ≤ takenLen item

@[simp] theorem length_flashReadData (cells : Mem UInt8) (address len : Nat) :
    (flashReadData cells address len).length = len := by
  rw [flashReadData_eq, Mem.length_read]

theorem takeFields_oneField {item : NetInfoItem} (one : OneField item) (buf0 buf1 buf2 : Mem UInt8) :
    takeFields item buf0 buf1 buf2 = ⟨buf0.read 0 (takenLen item), [], []⟩ := by
  cases item with
  | SSID_KEY_ITEM => exact absurd rfl one.1
  | IP_CONFIG_ITEM => exact absurd rfl one.2
  | _ => rfl

theorem readItem_oneField {item : NetInfoItem} (one : OneField item) (cells : Mem UInt8)
    (ptr1 ptr2 : Bool) (len addr : Nat) :
    readItem cells item true ptr1 ptr2 len addr = ⟨1, flashReadData cells addr len, [], []⟩ := by
  cases item with
  | SSID_KEY_ITEM => exact absurd rfl one.1
  | IP_CONFIG_ITEM => exact absurd rfl one.2
  | _ => rfl

theorem readItem_null {item : NetInfoItem} (cells : Mem UInt8) (ptr1 ptr2 : Bool) (len addr : Nat) :
    readItem cells item false ptr1 ptr2 len addr = .nothing := by
  cases item <;> rfl

/-- Fields of a fixed size are read as they are saved. -/
theorem readItem_fields {item : NetInfoItem} (several : ¬OneField item) (cells : Mem UInt8)
    (ptr0 ptr1 ptr2 : Bool) (len addr : Nat) (buf0 buf1 buf2 : Mem UInt8) :
    let got := readItem cells item ptr0 ptr1 ptr2 len addr
    let taken := takeFields item buf0 buf1 buf2
    got.out0.length ≤ taken.f0.length ∧ got.out1.length ≤ taken.f1.length ∧
      got.out2.length ≤ taken.f2.length := by
  cases item with
  | SSID_KEY_ITEM =>
    simp only [readItem, takeFields]
    split <;> simp [Got.nothing]
  | IP_CONFIG_ITEM =>
    simp only [readItem, takeFields]
    split <;> simp [Got.nothing]
  | _ => exact absurd ⟨by decide, by decide⟩ several

/-- What is got is nothing, or read from an item that the search comes to. -/
theorem getInfoItem_cases {cells : Mem UInt8} {item : NetInfoItem} {ptr0 ptr1 ptr2 : Bool} {got : Got}
    (result : getInfoItem cells item ptr0 ptr1 ptr2 = some got) :
    got = .nothing ∨ (readHead cells tblStart).type = INFO_TLV_HEADER ∧
      ∃ addr, Found cells item.code tblStart addr ∧
        got = readItem cells item ptr0 ptr1 ptr2 (readHead cells addr).len.toNat (addr + 8) := by
  rw [getInfoItem, searchInfoTbl] at result
  by_cases table : INFO_TLV_HEADER = (readHead cells tblStart).type
  · rw [if_pos table] at result
    obtain ⟨addr, found, same⟩ := Option.map_eq_some_iff.mp result
    split at same
    next => exact .inl same.symm
    next nonzero =>
      exact .inr ⟨table.symm, addr, (searchInfoItem_eq_iff cells item.code tblStart nonzero).mp found, same.symm⟩
  · rw [if_neg table] at result
    exact .inl (Option.some.inj result).symm

theorem getInfoItem_found {cells : Mem UInt8} {item : NetInfoItem} {addr : Nat} (ptr0 ptr1 ptr2 : Bool)
    (table : (readHead cells tblStart).type = INFO_TLV_HEADER) (found : Found cells item.code tblStart addr) :
    getInfoItem cells item ptr0 ptr1 ptr2 =
      some (readItem cells item ptr0 ptr1 ptr2 (readHead cells addr).len.toNat (addr + 8)) := by
  rw [getInfoItem, searchInfoTbl, if_pos table.symm]
  dsimp only
  rw [(searchInfoItem_eq_iff cells item.code tblStart found.nonzero).mpr found, Option.map_some,
    if_neg found.nonzero]

/-- A read stays within what a save takes exactly for the items of several fields, without a pointer, and
where the stored length of the item that is found says no more. -/
theorem read_bounded_iff (cells : Mem UInt8) (item : NetInfoItem) (ptr0 ptr1 ptr2 : Bool) :
    ReadBounded cells item ptr0 ptr1 ptr2 ↔ ¬OneField item ∨ ptr0 = false ∨ StoredFits cells item := by
  constructor
  · intro bounded
    by_cases one : OneField item
    · cases ptr0 with
      | false => exact .inr (.inl rfl)
      | true =>
        refine .inr (.inr fun table addr found => ?_)
        have got := getInfoItem_found true ptr1 ptr2 table found
        rw [readItem_oneField one] at got
        have fits := (bounded _ got rfl (fun _ => 0) (fun _ => 0) (fun _ => 0)).1
        rwa [takeFields_oneField one, length_flashReadData, Mem.length_read] at fits
    · exact .inl one
  · intro condition got result ret buf0 buf1 buf2
    rcases getInfoItem_cases result with rfl | ⟨table, addr, found, rfl⟩
    · cases ret
    · by_cases one : OneField item
      · rcases condition with several | rfl | fits
        · exact absurd one several
        · rw [readItem_null] at ret
          cases ret
        · cases ptr0 with
          | false =>
            rw [readItem_null] at ret
            cases ret
          | true =>
            rw [readItem_oneField one, takeFields_oneField one]
            refine ⟨?_, Nat.le_refl 0, Nat.le_refl 0⟩
            rw [length_flashReadData, Mem.length_read]
            exact fits table addr found
      · exact readItem_fields one cells ptr0 ptr1 ptr2 _ _ buf0 buf1 buf2

/-- A table whose only item, the DHCP mode, is sixteen bytes long. -/
def longItem : Mem UInt8 :=
  Mem.write blankCells tblStart (Tlv.head INFO_TLV_HEADER 24 ++
    (Tlv.head NetInfoItem.DHCP_MODE_ITEM.code 16 ++ List.replicate 16 1))

theorem read_overruns : ¬ReadBounded longItem .DHCP_MODE_ITEM true false false := by
  intro bounded
  have got : getInfoItem longItem .DHCP_MODE_ITEM true false false =
      some ⟨1, List.replicate 16 1, [], []⟩ := by decide +kernel
  have fits := (bounded _ got rfl (fun _ => 0) (fun _ => 0) (fun _ => 0)).1
  exact absurd fits (by decide)

end Bk7251.NetParam
