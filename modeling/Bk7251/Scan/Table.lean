import Bk7251.Scan.ScanResults

/-!
# The table that the heap represents

A table is a list of entries with distinct BSSIDs that fits the array of a shell. Each function on the
heap is one on tables, as long as the supplicant's pointer is an alias of the core's or empty.
-/
namespace Bk7251.Scan

open Lib

structure Table where
  entries : List StaScanRes
  distinct : (entries.map (·.bssid)).Nodup
  bounded : entries.length ≤ MAX_BSS_LIST

namespace Table

def empty : Table := ⟨[], List.nodup_nil, Nat.zero_le _⟩

/-- The entry of a BSSID. -/
def lookup (t : Table) (bssid : List UInt8) : Option StaScanRes :=
  t.entries.find? (·.bssid == bssid)

/-- The entries with the one of `e`'s BSSID exchanged for `e`. -/
def replaced (entries : List StaScanRes) (e : StaScanRes) : List StaScanRes :=
  entries.map fun d => if d.bssid = e.bssid then e else d

theorem replaced_bssids (entries : List StaScanRes) (e : StaScanRes) :
    (replaced entries e).map (·.bssid) = entries.map (·.bssid) := by
  simp only [replaced, List.map_map]
  apply List.map_congr_left
  intro d _
  by_cases same : d.bssid = e.bssid
  · simp [same]
  · simp [same]

def replace (t : Table) (e : StaScanRes) : Table where
  entries := replaced t.entries e
  distinct := by
    rw [replaced_bssids]
    exact t.distinct
  bounded := by
    rw [replaced, List.length_map]
    exact t.bounded

def append (t : Table) (e : StaScanRes) (absent : t.lookup e.bssid = none)
    (room : t.entries.length < MAX_BSS_LIST) : Table where
  entries := t.entries ++ [e]
  distinct := by
    rw [List.map_append, List.map_singleton, List.nodup_append_comm]
    refine List.nodup_cons.mpr ⟨fun member => ?_, t.distinct⟩
    obtain ⟨d, inside, same⟩ := List.mem_map.mp member
    have other := List.find?_eq_none.mp absent d inside
    simp [same] at other
  bounded := by
    rw [List.length_append, List.length_singleton]
    exact room

/-- An entry gives way only when it is off-channel and the new one is not; a full table takes nothing. -/
def record (t : Table) (e : StaScanRes) : Table :=
  if room : t.entries.length < MAX_BSS_LIST then
    match there : t.lookup e.bssid with
    | none => t.append e there room
    | some d => if d.onChannel = true ∨ e.onChannel = false then t else t.replace e
  else t

theorem mem_unique (t : Table) {d e : StaScanRes} (inD : d ∈ t.entries) (inE : e ∈ t.entries)
    (same : d.bssid = e.bssid) : d = e :=
  List.inj_on_of_nodup_map t.distinct inD inE same

theorem lookup_eq_some {t : Table} {bssid : List UInt8} {d : StaScanRes} :
    t.lookup bssid = some d ↔ d ∈ t.entries ∧ d.bssid = bssid := by
  constructor
  · intro found
    exact ⟨List.mem_of_find?_eq_some found, by simpa using List.find?_some found⟩
  · rintro ⟨member, rfl⟩
    cases found : t.lookup d.bssid with
    | none =>
      have other := List.find?_eq_none.mp found d member
      simp at other
    | some e =>
      have same : e.bssid = d.bssid := by simpa using List.find?_some found
      rw [t.mem_unique (List.mem_of_find?_eq_some found) member same]

theorem lookup_eq_none {t : Table} {bssid : List UInt8} :
    t.lookup bssid = none ↔ ∀ d ∈ t.entries, d.bssid ≠ bssid := by
  simp [lookup]

/-! What `record` does, by what the search for the BSSID finds. -/

variable {t : Table} {d e : StaScanRes}

theorem record_full (full : ¬ t.entries.length < MAX_BSS_LIST) : t.record e = t := dif_neg full

theorem record_keep (found : t.lookup e.bssid = some d)
    (stays : d.onChannel = true ∨ e.onChannel = false) : t.record e = t := by
  unfold record
  split
  · split
    · next missing => rw [found] at missing; cases missing
    · next other => rw [found] at other; cases other; rw [if_pos stays]
  · rfl

theorem record_append (room : t.entries.length < MAX_BSS_LIST) (absent : t.lookup e.bssid = none) :
    (t.record e).entries = t.entries ++ [e] := by
  unfold record
  rw [dif_pos room]
  split
  · rfl
  · next other => rw [absent] at other; cases other

theorem record_replace (room : t.entries.length < MAX_BSS_LIST)
    (found : t.lookup e.bssid = some d) (off : d.onChannel = false) (on : e.onChannel = true) :
    t.record e = t.replace e := by
  unfold record
  rw [dif_pos room]
  split
  · next missing => rw [found] at missing; cases missing
  · next other => rw [found] at other; cases other; rw [if_neg (by simp [off, on])]

/-- As BSSIDs are distinct, the exchange happens at one place. -/
theorem replaced_eq_set {i : Nat} (at_i : t.entries[i]? = some d) (same : d.bssid = e.bssid) :
    replaced t.entries e = t.entries.set i e := by
  obtain ⟨bound, here⟩ := List.getElem?_eq_some_iff.mp at_i
  refine List.ext_getElem (by simp [replaced]) fun j left right => ?_
  have inside : j < t.entries.length := by simpa [replaced] using left
  simp only [replaced, List.getElem_map]
  rw [List.getElem_set]
  by_cases place : i = j
  · subst place
    rw [if_pos rfl, here, if_pos same]
  · rw [if_neg place, if_neg]
    intro duplicate
    apply place
    have equal : t.entries[i] = t.entries[j] :=
      t.mem_unique (List.getElem_mem bound) (List.getElem_mem inside) (by rw [here, same, duplicate])
    exact (t.distinct.of_map _).getElem_inj_iff.mp equal

end Table

/-- What a frame leaves in the table. -/
def Table.collect (mac : Mac) (t : Table) (ind : ScanInd) (itemAllocated : Bool) : Table :=
  match ind.scanChannel mac with
  | none => t
  | some (chann, onChannel) =>
    if itemAllocated then t.record (ind.item mac chann onChannel) else t

theorem Table.collect_full (mac : Mac) {t : Table} (ind : ScanInd) (itemAllocated : Bool)
    (full : ¬ t.entries.length < MAX_BSS_LIST) : t.collect mac ind itemAllocated = t := by
  unfold Table.collect
  cases ind.scanChannel mac with
  | none => rfl
  | some c => simp only [Table.record_full full, ite_self]

/-! ### Frames that end before their elements -/

/-- A frame shorter than the fixed part of a beacon gets a block shorter than an item. -/
theorem ScanInd.itemFits_iff (ind : ScanInd) :
    ind.itemFits = true ↔ MAC_BEACON_VARIABLE_PART_OFT.toNat ≤ ind.length.toNat := by
  have bound := ind.length.toNat_lt
  have sum := UInt32.toNat_add ind.viesLen sizeofStaScanRes
  have size : sizeofStaScanRes.toNat = 64 := rfl
  have offset : MAC_BEACON_VARIABLE_PART_OFT.toNat = 36 := rfl
  have len : ind.viesLen.toNat = (2 ^ 32 - 36 + ind.length.toNat) % 2 ^ 32 := by
    rw [viesLen, UInt32.toNat_sub, offset, UInt16.toNat_toUInt32]
  simp only [itemFits, decide_eq_true_eq, sum, size, offset, len]
  omega

namespace Table

variable {mac : Mac} {entries : List StaScanRes} {ind : ScanInd}

/-- The frame gets as far as the allocation: there is room, and no entry of its BSSID stays. -/
def takes (mac : Mac) (entries : List StaScanRes) (ind : ScanInd) : Bool :=
  decide (entries.length < MAX_BSS_LIST) && (ind.scanChannel mac).any fun c =>
    entries.all fun d => d.bssid != ind.bssid || !d.onChannel && c.2

/-- The frame's item would be written behind its block. -/
def overruns (mac : Mac) (entries : List StaScanRes) (ind : ScanInd) (itemAllocated : Bool) : Bool :=
  itemAllocated && takes mac entries ind && !ind.itemFits

theorem takes_of_channel {chann : UInt8} {onChannel : Bool} (room : entries.length < MAX_BSS_LIST)
    (channel : ind.scanChannel mac = some (chann, onChannel)) :
    takes mac entries ind = true ↔
      ∀ d ∈ entries, d.bssid = ind.bssid → d.onChannel = false ∧ onChannel = true := by
  simp only [takes, room, decide_true, Bool.true_and, channel, Option.any_some, List.all_eq_true, Bool.or_eq_true,
    bne_iff_ne, Bool.and_eq_true, Bool.not_eq_true']
  exact forall₂_congr fun d _ => (imp_iff_not_or (a := d.bssid = ind.bssid)).symm

/-- An item that is taken without an overrun fits its block. -/
theorem fits_of_takes (fits : overruns mac entries ind true = false) (taken : takes mac entries ind = true) :
    ind.itemFits = true := by
  simpa [overruns, taken] using fits

end Table

/-! ### Items in the heap -/

/-- The pointers `res` are distinct and lead to the entries `ds`. -/
structure Stores (items : Heap StaScanRes) (res : List Nat) (ds : List StaScanRes) : Prop where
  distinct : res.Nodup
  content : res.map items.get? = ds.map some

namespace Stores

variable {items : Heap StaScanRes} {res : List Nat} {ds : List StaScanRes}

theorem length (stores : Stores items res ds) : res.length = ds.length := by
  simpa using congrArg List.length stores.content

theorem getElem? (stores : Stores items res ds) {i p : Nat} (at_i : res[i]? = some p) :
    ∃ d, ds[i]? = some d ∧ items.get? p = some d := by
  have same : (res.map items.get?)[i]? = (ds.map some)[i]? := by rw [stores.content]
  rw [List.getElem?_map, List.getElem?_map, at_i, Option.map_some] at same
  cases there : ds[i]? with
  | none => simp [there] at same
  | some d =>
    rw [there, Option.map_some, Option.some.injEq] at same
    exact ⟨d, rfl, same⟩

theorem live (stores : Stores items res ds) {p : Nat} (member : p ∈ res) :
    ∃ d ∈ ds, items.get? p = some d := by
  obtain ⟨i, at_i⟩ := List.mem_iff_getElem?.mp member
  obtain ⟨d, there, live⟩ := stores.getElem? at_i
  exact ⟨d, List.mem_of_getElem? there, live⟩

theorem not_next (stores : Stores items res ds) : items.next ∉ res := by
  intro member
  obtain ⟨d, _, live⟩ := stores.live member
  simp at live

theorem of_getElem? (distinct : res.Nodup) (same : res.length = ds.length)
    (content : ∀ (i p : Nat), res[i]? = some p → items.get? p = ds[i]?) : Stores items res ds := by
  refine ⟨distinct, List.ext_getElem (by simpa using same) fun i left right => ?_⟩
  have inRes : i < res.length := by simpa using left
  have inDs : i < ds.length := by simpa using right
  rw [List.getElem_map, List.getElem_map, content i _ (List.getElem?_eq_getElem inRes)]
  exact List.getElem?_eq_getElem inDs

theorem exists_entries (live : ∀ p ∈ res, ∃ d, items.get? p = some d) :
    ∃ ds : List StaScanRes, res.map items.get? = ds.map some := by
  induction res with
  | nil => exact ⟨[], rfl⟩
  | cons p res ih =>
    obtain ⟨d, here⟩ := live p (by simp)
    obtain ⟨ds, rest⟩ := ih fun q member => live q (List.mem_cons_of_mem _ member)
    exact ⟨d :: ds, by simp only [List.map_cons, here, rest]⟩

/-- Pointers in another order lead to the entries in that order. -/
theorem perm (stores : Stores items res ds) {res' : List Nat} (perm : res'.Perm res) :
    ∃ ds', ds'.Perm ds ∧ Stores items res' ds' := by
  obtain ⟨ds', content⟩ := exists_entries fun p member =>
    (stores.live (perm.mem_iff.mp member)).imp fun _ facts => facts.2
  refine ⟨ds', ?_, perm.nodup_iff.mpr stores.distinct, content⟩
  have mapped : (ds'.map some).Perm (ds.map some) := by
    rw [← content, ← stores.content]
    exact perm.map _
  exact (List.map_perm_map_iff fun _ _ => Option.some.inj).mp mapped

end Stores

/-! ### The search for a duplicate -/

/-- The loop keeps an entry it must not replace, and otherwise names the last one of the BSSID. -/
theorem checkDuplicate_cases {items : Heap StaScanRes} (bssid : List UInt8) (onChannel : Bool)
    {ps : List Nat} {ds : List StaScanRes} (content : ps.map items.get? = ds.map some) (i : Nat)
    (found : Option Nat) :
    ∃ result, checkDuplicate items bssid onChannel ps i found = some result ∧
      (result = .keep ∧ (∃ d ∈ ds, d.bssid = bssid ∧ (d.onChannel = true ∨ onChannel = false)) ∨
        result = .insert found ∧ (∀ d ∈ ds, d.bssid ≠ bssid) ∨
        ∃ k d, result = .insert (some (i + k)) ∧ ds[k]? = some d ∧ d.bssid = bssid ∧
          d.onChannel = false ∧ onChannel = true) := by
  -- by induction on the entries that are left; `found` is the last match so far
  induction ps generalizing ds i found with
  | nil =>
    obtain rfl : ds = [] := by simpa using content.symm
    exact ⟨_, rfl, .inr (.inl ⟨rfl, by simp⟩)⟩
  | cons p ps ih =>
    cases ds with
    | nil => simp at content
    | cons d ds =>
      rw [List.map_cons, List.map_cons, List.cons.injEq] at content
      obtain ⟨here, rest⟩ := content
      simp only [checkDuplicate, here, Option.bind_eq_bind, Option.bind_some, Option.pure_def]
      by_cases same : bssid = d.bssid
      · by_cases stays : d.onChannel = true ∨ onChannel = false
        · rw [if_pos same, if_pos stays]
          exact ⟨_, rfl, .inl ⟨rfl, d, by simp, same.symm, stays⟩⟩
        · obtain ⟨off, on⟩ : d.onChannel = false ∧ onChannel = true := by simpa using stays
          rw [if_pos same, if_neg stays]
          obtain ⟨result, equal, kept | fresh | ⟨k, e, names, there, facts⟩⟩ :=
            ih rest (i + 1) (some i)
          · obtain ⟨rfl, e, member, facts⟩ := kept
            exact ⟨_, equal, .inl ⟨rfl, e, by simp [member], facts⟩⟩
          · exact ⟨_, equal, .inr (.inr ⟨0, d, fresh.1, rfl, same.symm, off, on⟩)⟩
          · refine ⟨_, equal, .inr (.inr ⟨k + 1, e, ?_, by simpa using there, facts⟩)⟩
            rw [names, Nat.add_right_comm, Nat.add_assoc]
      · rw [if_neg same]
        obtain ⟨result, equal, kept | fresh | ⟨k, e, names, there, facts⟩⟩ := ih rest (i + 1) found
        · obtain ⟨rfl, e, member, facts⟩ := kept
          exact ⟨_, equal, .inl ⟨rfl, e, by simp [member], facts⟩⟩
        · refine ⟨_, equal, .inr (.inl ⟨fresh.1, ?_⟩)⟩
          intro e member
          rcases List.mem_cons.mp member with rfl | later
          · exact Ne.symm same
          · exact fresh.2 e later
        · refine ⟨_, equal, .inr (.inr ⟨k + 1, e, ?_, by simpa using there, facts⟩)⟩
          rw [names, Nat.add_right_comm, Nat.add_assoc]

/-! ### The state -/

/-- The core's pointer leads to the table, and the supplicant's is empty or the same. -/
structure Represents (s : State) (t : Table) : Prop where
  shared : s.sScanResultUploadPtr = none ∨ s.sScanResultUploadPtr = s.scanRstSetPtr
  released : s.scanRstSetPtr = none → t = .empty
  stored : ∀ p, s.scanRstSetPtr = some p →
    ∃ res, s.shells.get? p = some res ∧ Stores s.items res t.entries

theorem represents_boot : Represents .boot .empty :=
  ⟨.inl rfl, fun _ => rfl, fun _ there => nomatch there⟩

theorem represents_released {s : State} (noSet : s.scanRstSetPtr = none)
    (noUpload : s.sScanResultUploadPtr = none) : Represents s .empty :=
  ⟨.inl noUpload, fun _ => rfl, fun p there => by simp [noSet] at there⟩

namespace Represents

variable {s : State} {t : Table}

/-- A released table leaves no pointer behind, and the release finds every object live. -/
theorem release (rep : Represents s t) :
    ∃ s', s.srReleaseScanResults s.scanRstSetPtr = some s' ∧ s'.scanRstSetPtr = none ∧
      s'.sScanResultUploadPtr = none ∧ s'.scanCfm = s.scanCfm ∧ s'.coreHung = s.coreHung := by
  cases there : s.scanRstSetPtr with
  | none =>
    exact ⟨State.wpaClearScanResults { s with scanRstSetPtr := none }, rfl, rfl, rfl, rfl, rfl⟩
  | some p =>
    obtain ⟨res, shell, stores⟩ := rep.stored p there
    have items_live : ∀ q ∈ res, (s.items.get? q).isSome := by
      intro q member
      obtain ⟨d, _, live⟩ := stores.live member
      simp [live]
    obtain ⟨items, freed, _⟩ := Heap.freeAll_of_live stores.distinct items_live
    obtain ⟨emptied, wrote, live, _⟩ := Heap.write_of_live [] shell
    obtain ⟨shells, gone, _⟩ := Heap.free_of_live live
    have whole : s.srFreeAll p = some { s with items, shells } := by
      simp [State.srFreeAll, shell, freed, wrote, gone]
    refine ⟨State.wpaClearScanResults { s with items, shells, scanRstSetPtr := none }, ?_, rfl, rfl,
      rfl, rfl⟩
    simp only [State.srReleaseScanResults, whole]
    rfl

theorem upload_live (rep : Represents s t) {p : Nat} (there : s.sScanResultUploadPtr = some p) :
    s.scanRstSetPtr = some p := by
  rcases rep.shared with none | same
  · rw [none] at there
    cases there
  · rw [← same, there]

theorem sorted (rep : Represents s t) {p : Nat} (there : s.scanRstSetPtr = some p) :
    ∃ s' t', s.mhdrScanuStartCfm s.scanRstSetPtr = some s' ∧ Represents s' t' ∧
      t'.entries.Perm t.entries ∧ t'.entries.Pairwise (fun a b => b.level ≤ a.level) ∧
      s'.scanRstSetPtr = some p ∧ s'.scanCfm = s.scanCfm ∧ s'.coreHung = s.coreHung := by
  obtain ⟨res, shell, stores⟩ := rep.stored p there
  -- the comparisons read live items, so the sort is one by a total function
  let level (q : Nat) : Int := ((s.items.get? q).map (·.level)).getD 0
  have read : ∀ q ∈ res, (s.items.get? q).map (·.level) = some (level q) := by
    intro q member
    obtain ⟨d, _, live⟩ := stores.live member
    simp [level, live]
  have order : sortScanResult s.items res = some (ExchangeSort.sort level res) := by
    unfold sortScanResult
    split
    · next empty => rw [List.length_eq_zero_iff.mp empty]; rfl
    · exact ExchangeSort.sortM_eq read
  obtain ⟨shells, wrote, live, _⟩ := Heap.write_of_live (ExchangeSort.sort level res) shell
  obtain ⟨ds, perm, stores'⟩ := stores.perm (ExchangeSort.sort_perm level res)
  let t' : Table := ⟨ds, (perm.map _).nodup_iff.mpr t.distinct, perm.length_eq.trans_le t.bounded⟩
  refine ⟨State.wpaBufferScanResults { s with shells }, t', ?_, ⟨.inr rfl, ?_, ?_⟩, perm, ?_,
    there, rfl, rfl⟩
  · simp [State.mhdrScanuStartCfm, there, shell, order, wrote]
  · intro gone
    exact absurd (there.symm.trans gone) (by simp)
  · intro q same
    obtain rfl : p = q := Option.some.inj (there.symm.trans same)
    exact ⟨_, live, stores'⟩
  · -- levels descend along the pointers, so along the entries they lead to
    have descend := ExchangeSort.sort_sorted level res
    have along : ((ExchangeSort.sort level res).map s.items.get?).Pairwise
        fun a b => (b.map (·.level)).getD 0 ≤ (a.map (·.level)).getD 0 :=
      List.pairwise_map.mpr descend
    rw [stores'.content] at along
    simpa using List.pairwise_map.mp along

/-- Other items and another shell behind the same pointer. -/
theorem changed (rep : Represents s t) {p : Nat} (there : s.scanRstSetPtr = some p)
    {items : Heap StaScanRes} {shells : Heap (List Nat)} {res : List Nat} {t' : Table}
    (shell : shells.get? p = some res) (stores : Stores items res t'.entries) :
    Represents { s with items, shells } t' where
  shared := rep.shared
  released gone := absurd (there.symm.trans gone) (by simp)
  stored q same := by
    obtain rfl : p = q := Option.some.inj (there.symm.trans same)
    exact ⟨res, shell, stores⟩

/-- The new item at the end of the array. -/
theorem appended {items : Heap StaScanRes} {res : List Nat} {ds : List StaScanRes}
    (stores : Stores items res ds) (e : StaScanRes) :
    Stores (items.alloc e) (res ++ [items.next]) (ds ++ [e]) where
  distinct := by
    rw [List.nodup_append_comm]
    exact List.nodup_cons.mpr ⟨stores.not_next, stores.distinct⟩
  content := by
    have kept : res.map (items.alloc e).get? = res.map items.get? := by
      refine List.map_congr_left fun q member => ?_
      obtain ⟨d, _, live⟩ := stores.live member
      rw [Heap.get?_alloc_of_live e live, live]
    rw [List.map_append, kept, stores.content, List.map_append]
    simp

/-- The new item in the place of the old one, which is released. -/
theorem exchanged {items : Heap StaScanRes} {res : List Nat} {ds : List StaScanRes}
    (stores : Stores items res ds) (e : StaScanRes) {i old : Nat} (at_i : res[i]? = some old) :
    ∃ items', (items.alloc e).free old = some items' ∧
      Stores items' (res.set i items.next) (ds.set i e) := by
  obtain ⟨d, _, live⟩ := stores.getElem? at_i
  obtain ⟨items', freed, same⟩ := Heap.free_of_live (Heap.get?_alloc_of_live e live)
  obtain ⟨bound, here⟩ := List.getElem?_eq_some_iff.mp at_i
  have notNext : items.next ≠ old := fun equal =>
    stores.not_next (equal ▸ List.mem_of_getElem? at_i)
  refine ⟨items', freed, .of_getElem? (stores.distinct.set stores.not_next)
    (by simpa using stores.length) fun j q at_j => ?_⟩
  rw [List.getElem?_set] at at_j ⊢
  by_cases place : i = j
  · subst place
    rw [if_pos rfl, if_pos bound, Option.some.injEq] at at_j
    have inside : i < ds.length := stores.length ▸ bound
    rw [if_pos rfl, if_pos inside, ← at_j, same _ notNext, Heap.get?_alloc_self]
  · rw [if_neg place] at at_j ⊢
    obtain ⟨c, there, live'⟩ := stores.getElem? at_j
    -- pointers are distinct, so no other entry loses its item
    have other : q ≠ old := by
      rintro rfl
      exact place ((List.getElem?_inj bound stores.distinct).mp (at_i.trans at_j.symm))
    rw [same q other, Heap.get?_alloc_of_live e live', there]

/-- A frame is collected in the heap as it is in the table. -/
theorem collected (rep : Represents s t) {p : Nat} (there : s.scanRstSetPtr = some p) (mac : Mac)
    (ind : ScanInd) (itemAllocated : Bool) (fits : Table.overruns mac t.entries ind itemAllocated = false) :
    ∃ s', s.mhdrScanuResultInd mac p ind itemAllocated = some s' ∧
      Represents s' (t.collect mac ind itemAllocated) ∧ s'.scanRstSetPtr = some p ∧
      s'.scanCfm = s.scanCfm ∧ s'.coreHung = s.coreHung := by
  obtain ⟨res, shell, stores⟩ := rep.stored p there
  have len := stores.length
  by_cases full : MAX_BSS_LIST ≤ res.length
  · -- `scanu_num >= MAX_BSS_LIST` comes before the BSSID is looked for
    have same : t.collect mac ind itemAllocated = t := Table.collect_full mac ind _ (by omega)
    refine ⟨s, by simp [State.mhdrScanuResultInd, shell, full], ?_, there, rfl, rfl⟩
    rw [same]
    exact rep
  · have room : t.entries.length < MAX_BSS_LIST := by omega
    cases channel : ind.scanChannel mac with
    | none =>
      exact ⟨s, by simp [State.mhdrScanuResultInd, shell, channel],
        by simpa only [Table.collect, channel] using rep, there, rfl, rfl⟩
    | some c =>
      obtain ⟨chann, onChannel⟩ := c
      simp only [Table.collect, channel]
      obtain ⟨result, equal, kept | fresh | ⟨i, d, names, at_i, bssid, off, on⟩⟩ :=
        checkDuplicate_cases ind.bssid onChannel stores.content 0 none
      · -- the entry stays
        obtain ⟨rfl, d, member, bssid, stays⟩ := kept
        have found : t.lookup (ind.item mac chann onChannel).bssid = some d :=
          Table.lookup_eq_some.mpr ⟨member, bssid⟩
        refine ⟨s, by simp [State.mhdrScanuResultInd, shell, full, channel, equal], ?_, there, rfl,
          rfl⟩
        rw [Table.record_keep found stays, ite_self]
        exact rep
      · -- the BSSID is new
        obtain ⟨rfl, absent⟩ := fresh
        cases itemAllocated with
        | false =>
          exact ⟨s, by simp [State.mhdrScanuResultInd, shell, full, channel, equal], rep, there, rfl,
            rfl⟩
        | true =>
          have whole : ind.itemFits = true := Table.fits_of_takes fits
            ((Table.takes_of_channel room channel).mpr fun d member same => absurd same (absent d member))
          obtain ⟨shells, wrote, live, _⟩ := Heap.write_of_live (res ++ [s.items.next]) shell
          refine ⟨{ s with items := s.items.alloc (ind.item mac chann onChannel), shells },
            by simp [State.mhdrScanuResultInd, shell, full, channel, equal, whole, wrote],
            rep.changed there live ?_, there, rfl, rfl⟩
          rw [if_pos rfl, Table.record_append room (Table.lookup_eq_none.mpr absent)]
          exact appended stores _
      · -- an off-channel entry gives way
        obtain rfl := names
        rw [Nat.zero_add] at equal
        cases itemAllocated with
        | false =>
          exact ⟨s, by simp [State.mhdrScanuResultInd, shell, full, channel, equal], rep, there, rfl,
            rfl⟩
        | true =>
          have whole : ind.itemFits = true := by
            refine Table.fits_of_takes fits ((Table.takes_of_channel room channel).mpr fun e member same => ?_)
            rw [t.mem_unique member (List.mem_of_getElem? at_i) (same.trans bssid.symm)]
            exact ⟨off, on⟩
          have bound : i < res.length := len ▸ (List.getElem?_eq_some_iff.mp at_i).1
          have old := List.getElem?_eq_getElem bound
          obtain ⟨items, freed, stores'⟩ := exchanged stores (ind.item mac chann onChannel) old
          obtain ⟨shells, wrote, live, _⟩ := Heap.write_of_live (res.set i s.items.next) shell
          refine ⟨{ s with items, shells },
            by simp [State.mhdrScanuResultInd, shell, full, channel, equal, whole, old, freed, wrote],
            rep.changed there live ?_, there, rfl, rfl⟩
          have found : t.lookup (ind.item mac chann onChannel).bssid = some d :=
            Table.lookup_eq_some.mpr ⟨List.mem_of_getElem? at_i, bssid⟩
          have placed : (t.replace (ind.item mac chann onChannel)).entries =
              t.entries.set i (ind.item mac chann onChannel) := Table.replaced_eq_set at_i bssid
          rw [if_pos rfl, Table.record_replace room found off on]
          rw [placed]
          exact stores'

/-- A frame whose item does not fit its block is no item: the code writes behind the block. -/
theorem not_collected (rep : Represents s t) {p : Nat} (there : s.scanRstSetPtr = some p) (mac : Mac)
    (ind : ScanInd) (itemAllocated : Bool) (beyond : Table.overruns mac t.entries ind itemAllocated = true) :
    s.mhdrScanuResultInd mac p ind itemAllocated = none := by
  obtain ⟨res, shell, stores⟩ := rep.stored p there
  obtain ⟨⟨rfl, taken⟩, short⟩ : (itemAllocated = true ∧ Table.takes mac t.entries ind = true) ∧ ind.itemFits = false := by
    simpa [Table.overruns] using beyond
  have room : t.entries.length < MAX_BSS_LIST := by
    simp only [Table.takes, Bool.and_eq_true, decide_eq_true_eq] at taken
    exact taken.1
  have full : ¬ MAX_BSS_LIST ≤ res.length := by
    rw [stores.length]
    omega
  cases channel : ind.scanChannel mac with
  | none => simp [Table.takes, channel] at taken
  | some c =>
    obtain ⟨chann, onChannel⟩ := c
    obtain ⟨result, equal, kept | fresh | ⟨i, d, names, -⟩⟩ :=
      checkDuplicate_cases ind.bssid onChannel stores.content 0 none
    · obtain ⟨-, d, member, bssid, stays⟩ := kept
      obtain ⟨off, on⟩ := (Table.takes_of_channel room channel).mp taken d member bssid
      simp [off, on] at stays
    · obtain ⟨rfl, -⟩ := fresh
      simp [State.mhdrScanuResultInd, shell, full, channel, equal, short]
    · obtain rfl := names
      simp [State.mhdrScanuResultInd, shell, full, channel, equal, short]

end Represents

end Bk7251.Scan
