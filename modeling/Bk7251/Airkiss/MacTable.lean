import Mathlib.Data.Finset.Card
import Mathlib.Data.Finset.Dedup
import Bk7251.Lib.Machine
import Bk7251.Airkiss.ChannelScan

/-!
# The table of senders

Between two resets the table grows by one for each new CRC of a sender of beacons, and nothing compares
its count with its size.
-/
namespace Bk7251.AirkissMain

open Lib

/-- The CRCs in the table. -/
def AirkissMac.senders (macs : AirkissMac) : List UInt8 :=
  (List.range macs.macCnt.toNat).map fun i => (macs.mac i).macCrc

theorem AirkissMac.length_senders (macs : AirkissMac) : macs.senders.length = macs.macCnt.toNat := by
  rw [senders, List.length_map, List.length_range]

/-! ### The search -/

/-- It ends at the first entry with the CRC, and looks at no entry beyond it. -/
theorem findMac_spec (macs : AirkissMac) (macCrc : UInt8) (n i : Nat) :
    i ≤ (findMac macs macCrc n i).1 ∧ (findMac macs macCrc n i).1 ≤ i + n ∧
    ((findMac macs macCrc n i).1 < i + n → (macs.mac (findMac macs macCrc n i).1).macCrc = macCrc) ∧
    (∀ k, i ≤ k → k < (findMac macs macCrc n i).1 → (macs.mac k).macCrc ≠ macCrc) ∧
    ∀ a ∈ (findMac macs macCrc n i).2, ∃ k < i + n, a = .mac k := by
  induction n generalizing i with
  | zero =>
    rw [findMac]
    refine ⟨le_refl i, le_refl i, fun inside => absurd inside (lt_irrefl i), ?_, ?_⟩
    · intro k low high
      exact absurd high (Nat.not_lt.mpr low)
    · intro a member
      exact absurd member List.not_mem_nil
  | succ n ih =>
    rw [findMac]
    split
    next same =>
      refine ⟨le_refl i, Nat.le_add_right i _, fun _ => same.symm, ?_, ?_⟩
      · intro k low high
        exact absurd high (Nat.not_lt.mpr low)
      · intro a member
        exact ⟨i, Nat.lt_add_of_pos_right n.succ_pos, List.mem_singleton.mp member⟩
    next other =>
      obtain ⟨low, high, found, before, accesses⟩ := ih (i + 1)
      rw [Nat.add_assoc, Nat.add_comm 1 n] at high found accesses
      refine ⟨Nat.le_of_succ_le low, high, found, ?_, ?_⟩
      · intro k least inside
        rcases Nat.eq_or_lt_of_le least with rfl | later
        · exact Ne.symm other
        · exact before k later inside
      · intro a member
        rcases List.mem_cons.mp member with rfl | later
        · exact ⟨i, Nat.lt_add_of_pos_right n.succ_pos, rfl⟩
        · exact accesses a later

/-- The search reaches the end exactly for a sender that is not in the table. -/
theorem findMac_end_iff (macs : AirkissMac) (macCrc : UInt8) :
    (findMac macs macCrc macs.macCnt.toNat 0).1 = macs.macCnt.toNat ↔ macCrc ∉ macs.senders := by
  obtain ⟨-, high, found, before, -⟩ := findMac_spec macs macCrc macs.macCnt.toNat 0
  rw [Nat.zero_add] at high found
  constructor
  · intro ends member
    obtain ⟨k, inside, same⟩ := List.mem_map.mp member
    rw [List.mem_range, ← ends] at inside
    exact before k (Nat.zero_le k) inside same
  · intro absent
    by_contra earlier
    have inside := lt_of_le_of_ne high earlier
    exact absent (List.mem_map.mpr ⟨_, List.mem_range.mpr inside, found inside⟩)

theorem countMac_accesses (macs : AirkissMac) (macCrc : UInt8) (channel : UInt16) :
    (countMac macs macCrc channel).2 =
      (findMac macs macCrc macs.macCnt.toNat 0).2 ++
        if macCrc ∈ macs.senders then [] else [.mac macs.macCnt.toNat] := by
  have ends := findMac_end_iff macs macCrc
  rw [countMac]
  by_cases known : macCrc ∈ macs.senders
  · rw [if_pos known, List.append_nil]
    simp only [if_neg (fun last => ends.mp last known)]
  · have last := ends.mpr known
    rw [if_neg known]
    simp only [if_pos last]
    rw [last]

/-- A sender that is in the table changes no CRC. -/
theorem countMac_known (macs : AirkissMac) (macCrc : UInt8) (channel : UInt16) (known : macCrc ∈ macs.senders) :
    (countMac macs macCrc channel).1.macCnt = macs.macCnt ∧
      (countMac macs macCrc channel).1.senders = macs.senders := by
  have inside : ¬ (findMac macs macCrc macs.macCnt.toNat 0).1 = macs.macCnt.toNat :=
    fun last => (findMac_end_iff macs macCrc).mp last known
  rw [countMac]
  simp only [if_neg inside]
  refine ⟨trivial, ?_⟩
  apply List.map_congr_left
  intro k _
  -- the entry that was found keeps its CRC
  simp only [Function.update_apply]
  split_ifs with same named
  · rw [same]
  · rw [same]
  · rfl

/-- A new sender is put behind the others. -/
theorem countMac_new (macs : AirkissMac) (macCrc : UInt8) (channel : UInt16) (new : macCrc ∉ macs.senders)
    (room : macs.macCnt.toNat < 255) :
    (countMac macs macCrc channel).1.macCnt.toNat = macs.macCnt.toNat + 1 ∧
      (countMac macs macCrc channel).1.senders = macs.senders ++ [macCrc] := by
  have last := (findMac_end_iff macs macCrc).mpr new
  have count : (macs.macCnt + 1).toNat = macs.macCnt.toNat + 1 := by
    rw [UInt8.toNat_add]
    exact Nat.mod_eq_of_lt (Nat.succ_lt_succ room)
  rw [countMac]
  simp only [last, if_true, AirkissMac.senders]
  refine ⟨count, ?_⟩
  rw [count, List.range_succ, List.map_append]
  congr 1
  · apply List.map_congr_left
    intro k member
    rw [Function.update_of_ne (Nat.ne_of_lt (List.mem_range.mp member))]
  · simp only [List.map_cons, List.map_nil, Function.update_self]
    split_ifs <;> rfl

/-! ### What happens between two resets -/

/-- A frame from the monitor, or a packet that the airkiss thread processes. -/
inductive Event
  | frame (f : Frame)
  | packet (locked : Bool) (p : Frame)

/-- The frame of a beacon or probe response. -/
def Event.heard : Event → Option Frame
  | .frame f => if f.beacon then some f else none
  | .packet _ _ => none

def step (macIeFind : MacIeFind) (s : State) : Event → State
  | .frame f => airkissMonitorCallback macIeFind f s
  | .packet locked p => processAirkiss locked p s

/-- The state after a reset; accesses are kept from here on. -/
def afterReset (s : State) : State := { airkissSetScanAllChannel s with accesses := [] }

variable (macIeFind : MacIeFind)

theorem lockEntry_table (macCrc : UInt8) (i : Nat) (s : State) :
    (lockEntry macCrc i s).gMacs = s.gMacs ∧ (lockEntry macCrc i s).accesses = s.accesses ++ [.mac i] := by
  rw [lockEntry]
  split_ifs
  · exact ⟨rfl, rfl⟩
  · exact ⟨rfl, rfl⟩

theorem lockFrom_table (macCrc : UInt8) (n i : Nat) (s : State) :
    (lockFrom macCrc n i s).gMacs = s.gMacs ∧
      (lockFrom macCrc n i s).accesses = s.accesses ++ (List.range' i n).map .mac := by
  induction n generalizing i s with
  | zero => exact ⟨rfl, (List.append_nil _).symm⟩
  | succ n ih =>
    obtain ⟨macs, accesses⟩ := ih (i + 1) (lockEntry macCrc i s)
    obtain ⟨macs', accesses'⟩ := lockEntry_table macCrc i s
    rw [macs'] at macs
    rw [accesses', List.append_assoc] at accesses
    exact ⟨macs, accesses⟩

/-- The length that is passed to the search. -/
def Frame.buflen (f : Frame) : UInt16 :=
  (f.len.toUInt32 - UInt32.ofNat MAC_BEACON_VARIABLE_PART_OFT).toUInt16

theorem not_short {f : Frame} (long : ¬ f.len < AIRKISS_MIN_RX_BUF_SIZE) : f.len ≠ 0 := by
  intro empty
  rw [empty] at long
  exact long (by decide)

theorem step_heard {e : Event} {f : Frame} (heard : e.heard = some f) (s : State) :
    ∃ channel, (step macIeFind s e).gMacs = (countMac s.gMacs f.macCrc channel).1 ∧
      (step macIeFind s e).accesses =
        s.accesses ++ .search f.len f.buflen :: (countMac s.gMacs f.macCrc channel).2 := by
  cases e with
  | packet locked p => exact absurd heard (by simp [Event.heard])
  | frame f' =>
    rw [Event.heard] at heard
    split at heard
    next beacon =>
      obtain rfl := Option.some.inj heard
      rw [Frame.beacon, Bool.and_eq_true, Bool.not_eq_true', decide_eq_false_iff_not] at beacon
      rw [step, airkissMonitorCallback, if_neg beacon.1, airkissCountUsefullPacket, if_neg (not_short beacon.1),
        if_pos beacon.2]
      exact ⟨_, rfl, rfl⟩
    next => exact absurd heard (by simp)

/-- Any other frame, and a packet, leave the table as it is. -/
theorem step_other {e : Event} (other : e.heard = none) (s : State) :
    (step macIeFind s e).gMacs = s.gMacs ∧
      ∃ n ≤ s.gMacs.macCnt.toNat, (step macIeFind s e).accesses = s.accesses ++ (List.range' 0 n).map .mac := by
  cases e with
  | packet locked p =>
    cases locked with
    | false => exact ⟨rfl, 0, Nat.zero_le _, (List.append_nil _).symm⟩
    | true =>
      obtain ⟨macs, accesses⟩ := lockFrom_table p.macCrc s.gMacs.macCnt.toNat 0 s
      exact ⟨macs, s.gMacs.macCnt.toNat, le_refl _, accesses⟩
  | frame f =>
    have quiet : (step macIeFind s (.frame f)).gMacs = s.gMacs ∧
        (step macIeFind s (.frame f)).accesses = s.accesses := by
      -- a frame that is too short is ignored, and any other counts for its channel
      have silent : f.beacon = false := by
        rw [Event.heard] at other
        by_contra beacon
        rw [if_pos (Bool.not_eq_false _ ▸ beacon)] at other
        exact absurd other (by simp)
      rw [step, airkissMonitorCallback]
      split
      next => exact ⟨rfl, rfl⟩
      next long =>
        rw [Frame.beacon, decide_eq_false long, Bool.not_false, Bool.true_and] at silent
        rw [airkissCountUsefullPacket, if_neg (not_short long), silent]
        split
        next impossible => exact absurd impossible (by decide)
        next =>
          split_ifs
          · exact ⟨rfl, rfl⟩
          · exact ⟨rfl, rfl⟩
    exact ⟨quiet.1, 0, Nat.zero_le _, quiet.2.trans (List.append_nil _).symm⟩

/-! ### The bound -/

/-- Between two resets. -/
structure TableRight (s : State) : Prop where
  bound : s.gMacs.macCnt.toNat ≤ MAX_MAC
  once : s.gMacs.senders.Nodup
  access : ∀ i, .mac i ∈ s.accesses → i < MAX_MAC
  search : ∀ size buflen, .search size buflen ∈ s.accesses → (buflen.toNat : Int) = size.toInt - 36

/-- The elements have a length, and it has 16 bits. -/
def Frame.Sized (f : Frame) : Prop := 36 ≤ f.len.toInt ∧ f.len.toInt ≤ 36 + 65535

theorem buflen_iff {f : Frame} (long : ¬ f.len < AIRKISS_MIN_RX_BUF_SIZE) :
    (f.buflen.toNat : Int) = f.len.toInt - 36 ↔ f.Sized := by
  have least : 24 ≤ f.len.toInt := by
    have more := (not_congr Int32.lt_iff_toInt_lt).mp long
    exact Int.not_lt.mp more
  -- the length is not negative, so its bits are the number
  have number : (f.len.toUInt32.toNat : Int) = f.len.toInt := by
    have positive : 0 ≤ f.len := by
      rw [Int32.le_iff_toInt_le]
      exact le_trans (by decide) least
    rw [Int32.toNat_toUInt32_of_le positive, Int32.toNatClampNeg]
    omega
  have bound := f.len.toInt_lt
  rw [Frame.Sized, Frame.buflen, UInt32.toNat_toUInt16, UInt32.toNat_sub]
  have offset : (UInt32.ofNat MAC_BEACON_VARIABLE_PART_OFT).toNat = 36 := rfl
  rw [offset]
  omega

/-- The sender is known or there is an entry for it, and the search gets a length. -/
def Room (s : State) (e : Event) : Prop :=
  ∀ f, e.heard = some f → (f.macCrc ∈ s.gMacs.senders ∨ s.gMacs.macCnt.toNat < MAX_MAC) ∧ f.Sized

theorem heard_long {e : Event} {f : Frame} (heard : e.heard = some f) : ¬ f.len < AIRKISS_MIN_RX_BUF_SIZE := by
  cases e with
  | packet locked p => exact absurd heard (by simp [Event.heard])
  | frame f' =>
    rw [Event.heard] at heard
    split at heard
    next beacon =>
      obtain rfl := Option.some.inj heard
      rw [Frame.beacon, Bool.and_eq_true, Bool.not_eq_true', decide_eq_false_iff_not] at beacon
      exact beacon.1
    next => exact absurd heard (by simp)

theorem TableRight.other {s : State} (right : TableRight s) {e : Event} (other : e.heard = none) :
    TableRight (step macIeFind s e) := by
  obtain ⟨macs, n, few, accesses⟩ := step_other macIeFind other s
  constructor
  · rw [macs]
    exact right.bound
  · rw [macs]
    exact right.once
  · intro i member
    rw [accesses, List.mem_append] at member
    rcases member with old | new
    · exact right.access i old
    · obtain ⟨k, inside, same⟩ := List.mem_map.mp new
      obtain rfl := Access.mac.inj same
      rw [List.mem_range'_1, Nat.zero_add] at inside
      exact lt_of_lt_of_le inside.2 (le_trans few right.bound)
  · intro size buflen member
    rw [accesses, List.mem_append] at member
    rcases member with old | new
    · exact right.search size buflen old
    · obtain ⟨k, -, same⟩ := List.mem_map.mp new
      exact absurd same (by simp)

/-- The accesses of a beacon. -/
theorem mem_countMac {macs : AirkissMac} {macCrc : UInt8} {channel : UInt16} {a : Access}
    (member : a ∈ (countMac macs macCrc channel).2) :
    ∃ k, a = .mac k ∧ (k < macs.macCnt.toNat ∨ k = macs.macCnt.toNat ∧ macCrc ∉ macs.senders) := by
  obtain ⟨-, -, -, -, looked⟩ := findMac_spec macs macCrc macs.macCnt.toNat 0
  rw [countMac_accesses, List.mem_append] at member
  rcases member with old | new
  · obtain ⟨k, inside, same⟩ := looked a old
    exact ⟨k, same, .inl (Nat.zero_add macs.macCnt.toNat ▸ inside)⟩
  · split_ifs at new with known
    · exact absurd new List.not_mem_nil
    · exact ⟨_, List.mem_singleton.mp new, .inr ⟨rfl, known⟩⟩

theorem room_of_silent {e : Event} (silent : e.heard = none) (s : State) : Room s e := by
  intro f heard
  rw [silent] at heard
  exact absurd heard (by simp)

theorem room_iff {e : Event} {f : Frame} (heard : e.heard = some f) (s : State) :
    Room s e ↔ (f.macCrc ∈ s.gMacs.senders ∨ s.gMacs.macCnt.toNat < MAX_MAC) ∧ f.Sized := by
  constructor
  · intro room
    exact room f heard
  · intro room f' same
    rw [heard] at same
    obtain rfl := Option.some.inj same
    exact room

/-- The search that a beacon makes, and the entry that it writes when its sender is new, show what it needs. -/
theorem room_of_right {s : State} {e : Event} {f : Frame} (heard : e.heard = some f)
    (right : TableRight (step macIeFind s e)) : Room s e := by
  obtain ⟨channel, -, accesses⟩ := step_heard macIeFind heard s
  have search : .search f.len f.buflen ∈ (step macIeFind s e).accesses := by
    rw [accesses]
    exact List.mem_append_right _ List.mem_cons_self
  refine (room_iff heard s).mpr ⟨?_, (buflen_iff (heard_long heard)).mp (right.search _ _ search)⟩
  by_cases known : f.macCrc ∈ s.gMacs.senders
  · exact .inl known
  · right
    apply right.access
    rw [accesses, countMac_accesses, if_neg known]
    simp

theorem TableRight.heard {s : State} (right : TableRight s) {e : Event} {f : Frame} (heard : e.heard = some f)
    (room : Room s e) : TableRight (step macIeFind s e) := by
  obtain ⟨channel, macs, accesses⟩ := step_heard macIeFind heard s
  obtain ⟨place, fits⟩ := (room_iff heard s).mp room
  have table : (step macIeFind s e).gMacs.macCnt.toNat ≤ MAX_MAC ∧ (step macIeFind s e).gMacs.senders.Nodup := by
    rw [macs]
    by_cases known : f.macCrc ∈ s.gMacs.senders
    · obtain ⟨count, senders⟩ := countMac_known s.gMacs f.macCrc channel known
      rw [count, senders]
      exact ⟨right.bound, right.once⟩
    · have free := place.resolve_left known
      obtain ⟨count, senders⟩ := countMac_new s.gMacs f.macCrc channel known (lt_trans free (by decide))
      rw [count, senders]
      refine ⟨free, List.Nodup.append right.once (List.nodup_singleton _) ?_⟩
      exact List.disjoint_singleton.mpr known
  constructor
  · exact table.1
  · exact table.2
  · intro i member
    rw [accesses, List.mem_append, List.mem_cons] at member
    rcases member with old | impossible | new
    · exact right.access i old
    · exact absurd impossible (by simp)
    · obtain ⟨k, same, access⟩ := mem_countMac new
      obtain rfl := Access.mac.inj same
      rcases access with low | ⟨rfl, unknown⟩
      · exact lt_of_lt_of_le low right.bound
      · exact place.resolve_left unknown
  · intro size buflen member
    rw [accesses, List.mem_append, List.mem_cons] at member
    rcases member with old | same | new
    · exact right.search size buflen old
    · obtain ⟨rfl, rfl⟩ := Access.search.inj same
      exact (buflen_iff (heard_long heard)).mpr fits
    · obtain ⟨k, same, -⟩ := mem_countMac new
      exact absurd same (by simp)

/-- An event keeps the table right exactly when there is room for it. -/
theorem TableRight.step_iff {s : State} (right : TableRight s) (e : Event) :
    TableRight (step macIeFind s e) ↔ Room s e := by
  cases heard : e.heard with
  | none => exact iff_of_true (right.other macIeFind heard) (room_of_silent heard s)
  | some f =>
    constructor
    · exact room_of_right macIeFind heard
    · exact right.heard macIeFind heard

/-- The senders that are known after a beacon for which there was room. -/
theorem step_senders {s : State} {e : Event} {f : Frame} (heard : e.heard = some f)
    (room : Room s e) :
    (step macIeFind s e).gMacs.senders.toFinset = insert f.macCrc s.gMacs.senders.toFinset := by
  obtain ⟨channel, macs, -⟩ := step_heard macIeFind heard s
  rw [macs]
  by_cases known : f.macCrc ∈ s.gMacs.senders
  · rw [(countMac_known s.gMacs f.macCrc channel known).2]
    exact (Finset.insert_eq_of_mem (List.mem_toFinset.mpr known)).symm
  · have free := (room f heard).1.resolve_left known
    rw [(countMac_new s.gMacs f.macCrc channel known (lt_trans free (by decide))).2, List.toFinset_append,
      Finset.union_comm]
    rfl

/-- The beacons and probe responses among the events. -/
def heardFrames (events : List Event) : List Frame := events.filterMap Event.heard

/-- The senders of beacons, those in the table included, fit the table, and each beacon has a length for
the search. -/
def Fits (known : Finset UInt8) (events : List Event) : Prop :=
  (known ∪ ((heardFrames events).map Frame.macCrc).toFinset).card ≤ MAX_MAC ∧ ∀ f ∈ heardFrames events, f.Sized

theorem TableRight.card_senders {s : State} (right : TableRight s) :
    s.gMacs.senders.toFinset.card = s.gMacs.macCnt.toNat := by
  rw [List.toFinset_card_of_nodup right.once, AirkissMac.length_senders]

theorem fits_cons_silent {e : Event} (silent : e.heard = none) (known : Finset UInt8) (events : List Event) :
    Fits known (e :: events) ↔ Fits known events := by
  have frames : heardFrames (e :: events) = heardFrames events := List.filterMap_cons_none silent
  rw [Fits, Fits, frames]

/-- The sender of a beacon is among the known ones for the rest of the run. -/
theorem fits_cons_heard {e : Event} {f : Frame} (heard : e.heard = some f) (known : Finset UInt8)
    (events : List Event) :
    Fits known (e :: events) ↔ f.Sized ∧ Fits (insert f.macCrc known) events := by
  have frames : heardFrames (e :: events) = f :: heardFrames events := List.filterMap_cons_some heard
  rw [Fits, Fits, frames, List.map_cons, List.toFinset_cons, Finset.union_insert, Finset.insert_union,
    List.forall_mem_cons]
  exact and_left_comm

/-- What fits the table in the end fits it now. -/
theorem Fits.card_le {known : Finset UInt8} {events : List Event} (fits : Fits known events) :
    known.card ≤ MAX_MAC :=
  le_trans (Finset.card_le_card Finset.subset_union_left) fits.1

theorem along_room_iff (events : List Event) {s : State} (right : TableRight s) :
    Along (step macIeFind) Room s events ↔ Fits s.gMacs.senders.toFinset events := by
  induction events generalizing s with
  | nil =>
    apply iff_of_true trivial
    constructor
    · rw [heardFrames, List.filterMap_nil, List.map_nil, List.toFinset_nil, Finset.union_empty,
        right.card_senders]
      exact right.bound
    · exact fun f member => absurd member List.not_mem_nil
  | cons e events ih =>
    rw [Along]
    cases heard : e.heard with
    | none =>
      have later := ih (right.other macIeFind heard)
      rw [(step_other macIeFind heard s).1] at later
      rw [fits_cons_silent heard]
      exact (and_iff_right (room_of_silent heard s)).trans later
    | some f =>
      rw [fits_cons_heard heard]
      constructor
      · rintro ⟨room, along⟩
        have later := (ih (right.heard macIeFind heard room)).mp along
        rw [step_senders macIeFind heard room] at later
        exact ⟨((room_iff heard s).mp room).2, later⟩
      · rintro ⟨sized, later⟩
        have room : Room s e := by
          refine (room_iff heard s).mpr ⟨?_, sized⟩
          -- a new sender is one more than the table has
          by_contra full
          obtain ⟨new, most⟩ := not_or.mp full
          have more := later.card_le
          rw [Finset.card_insert_of_notMem fun member => new (List.mem_toFinset.mp member),
            right.card_senders] at more
          omega
        refine ⟨room, (ih (right.heard macIeFind heard room)).mpr ?_⟩
        rw [step_senders macIeFind heard room]
        exact later

theorem afterReset_right (s : State) : TableRight (afterReset s) where
  bound := Nat.zero_le _
  once := List.nodup_nil
  access _ member := absurd member List.not_mem_nil
  search _ _ member := absurd member List.not_mem_nil

/-- Whatever happens between two resets. -/
theorem mac_table_right_iff (s : State) (events : List Event) :
    (∀ part, part <+: events → TableRight (part.foldl (step macIeFind) (afterReset s))) ↔ Fits ∅ events := by
  have run := always_iff_along (P := TableRight) (fun s e right => right.step_iff macIeFind e)
    (afterReset_right s) events
  exact run.trans (along_room_iff macIeFind events (afterReset_right s))

/-- A beacon of the sender `i`, without elements. -/
def beaconFrom (i : Nat) (len : Int32) : Frame :=
  ⟨fun k => if k = 0 then 0x80 else if k = 10 then UInt8.ofNat i else 0, len⟩

/-- The 51st sender has no entry. -/
theorem crowded_table :
    let events := (List.range 51).map fun i => Event.frame (beaconFrom i 60)
    let s : State := ⟨⟨[], 0, 0, 0, .scanAllChan⟩, ⟨fun _ => ⟨0, 0⟩, 0⟩, 0, 0, []⟩
    (events.foldl (step fun _ _ _ => none) (afterReset s)).gMacs.macCnt = 51 ∧
      ¬ TableRight (events.foldl (step fun _ _ _ => none) (afterReset s)) := by
  intro events s
  have count : (events.foldl (step fun _ _ _ => none) (afterReset s)).gMacs.macCnt = 51 := by
    decide +kernel
  refine ⟨count, fun right => ?_⟩
  have bound := right.bound
  rw [count] at bound
  exact absurd bound (by decide)

end Bk7251.AirkissMain
