import Mathlib.Data.List.Sort
import Bk7251.Airkiss.ChannelScan

/-!
# The channels that a scan selects

The result of a round grows at the front of the array that still holds the channels to come. What is
inserted is an insertion sort by the 8-bit counters.
-/
namespace Bk7251.AirkissMain

open Lib

/-! ### What is rank -/

def beacons (frames : List Frame) : Nat := frames.countP Frame.beacon

def dataFrames (frames : List Frame) : Nat := frames.countP Frame.dataFrame

/-- A beacon is no data frame. -/
theorem isData_of_isBeacon {f : Frame} (beacon : f.isBeacon = true) : f.isData = false := by
  have mask : MAC_FCTRL_TYPESUBTYPE_MASK &&& MAC_FCTRL_TYPE_MASK = MAC_FCTRL_TYPE_MASK := by decide
  have type : f.fctl &&& MAC_FCTRL_TYPE_MASK =
      f.fctl &&& MAC_FCTRL_TYPESUBTYPE_MASK &&& MAC_FCTRL_TYPE_MASK := by
    rw [UInt16.and_assoc, mask]
  rw [Frame.isBeacon, Bool.or_eq_true, beq_iff_eq, beq_iff_eq] at beacon
  rw [Frame.isData, type]
  rcases beacon with same | same
  · rw [← same]
    decide
  · rw [← same]
    decide

/-- `b` beacons and `d` data frames more. -/
def ChanParam.count (b d : Nat) (c : ChanParam) : ChanParam :=
  { c with bcnCnt := c.bcnCnt + UInt8.ofNat b, dataCnt := c.dataCnt + UInt8.ofNat d }

theorem ChanParam.count_zero : ChanParam.count 0 0 = id := by
  funext c
  have none : UInt8.ofNat 0 = 0 := rfl
  simp only [count, none, UInt8.add_zero, id]

theorem ChanParam.count_beacon : ChanParam.count 1 0 = fun c => { c with bcnCnt := c.bcnCnt + 1 } := by
  funext c
  have none : UInt8.ofNat 0 = 0 := rfl
  simp only [count, none, UInt8.add_zero]
  rfl

theorem ChanParam.count_data : ChanParam.count 0 1 = fun c => { c with dataCnt := c.dataCnt + 1 } := by
  funext c
  have none : UInt8.ofNat 0 = 0 := rfl
  simp only [count, none, UInt8.add_zero]
  rfl

theorem ChanParam.count_count (b d b' d' : Nat) :
    ChanParam.count b' d' ∘ ChanParam.count b d = ChanParam.count (b + b') (d + d') := by
  funext c
  simp only [Function.comp, count, UInt8.ofNat_add, UInt8.add_assoc]

variable {macIeFind : MacIeFind}

/-- What a frame does to the channels. -/
theorem monitor_gChans (f : Frame) (s : State) :
    (airkissMonitorCallback macIeFind f s).gChans =
      s.gChans.modify s.gChans.curChanIdx (.count f.beacon.toNat f.dataFrame.toNat) := by
  -- a frame that is not counted adds 0 to both counters
  have same : s.gChans = s.gChans.modify s.gChans.curChanIdx (.count 0 0) := by
    rw [ChanParam.count_zero, AirkissChannel.modify, List.modify_id]
  rw [airkissMonitorCallback, Frame.beacon, Frame.dataFrame]
  split
  next short =>
    simp only [short, decide_true, Bool.not_true, Bool.false_and, Bool.toNat_false]
    exact same
  next long =>
    have size : f.len ≠ 0 := by
      intro empty
      rw [empty] at long
      exact long (by decide)
    simp only [long, decide_false, Bool.not_false, Bool.true_and, airkissCountUsefullPacket, if_neg size]
    split
    next beacon =>
      rw [beacon, isData_of_isBeacon beacon, Bool.toNat_true, Bool.toNat_false, ChanParam.count_beacon]
    next other =>
      rw [Bool.eq_false_iff.mpr other]
      split
      next data => rw [data, Bool.toNat_true, Bool.toNat_false, ChanParam.count_data]
      next neither =>
        rw [Bool.eq_false_iff.mpr neither]
        exact same

theorem monitor_wlanChannel (f : Frame) (s : State) :
    (airkissMonitorCallback macIeFind f s).wlanChannel = s.wlanChannel := by
  rw [airkissMonitorCallback, airkissCountUsefullPacket]
  split_ifs <;> rfl

/-- The frames of a dwell, one after the other. -/
def monitored (macIeFind : MacIeFind) (frames : List Frame) (s : State) : State :=
  frames.foldl (fun s f => airkissMonitorCallback macIeFind f s) s

theorem monitored_wlanChannel (macIeFind : MacIeFind) (frames : List Frame) (s : State) :
    (monitored macIeFind frames s).wlanChannel = s.wlanChannel := by
  induction frames generalizing s with
  | nil => rfl
  | cons f frames ih => exact (ih _).trans (monitor_wlanChannel f s)

theorem monitored_gChans (macIeFind : MacIeFind) (frames : List Frame) (s : State) :
    (monitored macIeFind frames s).gChans =
      s.gChans.modify s.gChans.curChanIdx (.count (beacons frames) (dataFrames frames)) := by
  induction frames generalizing s with
  | nil =>
    rw [beacons, dataFrames, List.countP_nil, List.countP_nil, ChanParam.count_zero, AirkissChannel.modify,
      List.modify_id]
    rfl
  | cons f frames ih =>
    have number (p : Frame → Bool) : (f :: frames).countP p = (p f).toNat + frames.countP p := by
      rw [List.countP_cons, Nat.add_comm]
      cases p f <;> rfl
    have cons : monitored macIeFind (f :: frames) s =
        monitored macIeFind frames (airkissMonitorCallback macIeFind f s) := rfl
    rw [cons, ih, monitor_gChans, beacons, dataFrames, beacons, dataFrames, number, number]
    simp only [AirkissChannel.modify, List.modify_modify_eq, ChanParam.count_count]

/-! ### The order of the result -/

/-- Channels by their counters, the lower channel first where these are the same. -/
def Before (rank : Nat → Nat) (a b : Nat) : Prop :=
  rank b < rank a ∨ rank b = rank a ∧ a ≤ b

instance (rank : Nat → Nat) : DecidableRel (Before rank) :=
  fun a b => inferInstanceAs (Decidable (rank b < rank a ∨ rank b = rank a ∧ a ≤ b))

instance (rank : Nat → Nat) : Std.Total (Before rank) where
  total a b := by
    simp only [Before]
    omega

instance (rank : Nat → Nat) : IsTrans Nat (Before rank) where
  trans a b c := by
    simp only [Before]
    omega

instance (rank : Nat → Nat) : Std.Antisymm (Before rank) where
  antisymm a b := by
    simp only [Before]
    omega

/-- An entry of the array holds a channel with its counter. -/
def Holds (rank : Nat → Nat) (c : ChanParam) (channel : Nat) : Prop :=
  c.channel.toNat = channel ∧ c.dataCnt.toNat = rank channel

variable {rank : Nat → Nat}

theorem modify_place (front back : List ChanParam) (c : ChanParam) (change : ChanParam → ChanParam) :
    (front ++ c :: back).modify front.length change = front ++ change c :: back := by
  induction front with
  | nil => rfl
  | cons d front ih => exact congrArg (d :: ·) ih

theorem getD_place (front back : List ChanParam) (c : ChanParam) :
    (front ++ c :: back).getD front.length .zero = c := by
  rw [List.getD_eq_getElem?_getD, List.getElem?_append_right (le_refl _), Nat.sub_self]
  rfl

/-- The move overwrites the one entry behind the result. -/
theorem memmove_place (front todo rest : List ChanParam) (first old : ChanParam) :
    memmove (front ++ first :: todo ++ old :: rest) (front.length + 1) front.length (first :: todo).length =
      front ++ first :: first :: todo ++ rest := by
  have head : (front ++ first :: todo ++ old :: rest).take (front.length + 1) = front ++ [first] := by
    rw [List.append_assoc, List.take_length_add_append]
    rfl
  have moved : ((front ++ first :: todo ++ old :: rest).drop front.length).take (first :: todo).length =
      first :: todo := by
    rw [List.append_assoc, List.drop_left, List.take_left]
  have tail : (front ++ first :: todo ++ old :: rest).drop (front.length + 1 + (first :: todo).length) = rest := by
    have split : front ++ first :: todo ++ old :: rest = (front ++ first :: todo ++ [old]) ++ rest := by
      rw [List.append_assoc _ [old]]
      rfl
    have length : front.length + 1 + (first :: todo).length = (front ++ first :: todo ++ [old]).length := by
      simp only [List.length_append, List.length_cons, List.length_nil]
      omega
    rw [split, length, List.drop_left]
  rw [memmove, head, moved, tail]
  simp only [List.append_assoc, List.cons_append, List.nil_append]

/-- The loop from an entry on is an ordered insertion, and nothing behind the next entry changes. -/
theorem addFrom_spec (channel dataCnt : UInt8) {todo : List ChanParam} {numbers : List Nat}
    (entries : List.Forall₂ (Holds rank) todo numbers) (last : ∀ n ∈ numbers, n < channel.toNat)
    (count : dataCnt.toNat = rank channel.toNat) (front rest : List ChanParam) (old : ChanParam)
    (g : AirkissChannel) (chan : g.chan = front ++ todo ++ old :: rest)
    (selected : g.selectedChanNums = front.length + todo.length) :
    ∃ placed, List.Forall₂ (Holds rank) placed (numbers.orderedInsert (Before rank) channel.toNat) ∧
      addFrom channel dataCnt todo.length front.length g =
        { g with chan := front ++ placed ++ rest, selectedChanNums := g.selectedChanNums + 1 } := by
  have placed (bcnCnt : UInt8) : Holds rank ⟨bcnCnt, dataCnt, channel.toUInt16⟩ channel.toNat :=
    ⟨UInt8.toNat_toUInt16 channel, count⟩
  induction entries generalizing front with
  | nil =>
    refine ⟨[⟨old.bcnCnt, dataCnt, channel.toUInt16⟩], .cons (placed _) .nil, ?_⟩
    rw [List.append_nil] at chan
    simp only [List.length_nil, addFrom, AirkissChannel.modify, chan, modify_place, List.append_assoc,
      List.cons_append, List.nil_append]
  | @cons t n todo numbers holds entries ih =>
    have cur : g.chan.getD front.length .zero = t := by
      rw [chan, List.append_assoc]
      exact getD_place front (todo ++ old :: rest) t
    have lower : n < channel.toNat := last n List.mem_cons_self
    rw [List.length_cons, addFrom, cur]
    -- the channel goes in front of the first entry with fewer frames
    by_cases more : t.dataCnt < dataCnt
    · have before : Before rank channel.toNat n := by
        left
        rw [← count, ← holds.2]
        exact more
      -- it is not in the result yet, so the entries from here on are moved
      have other : t.channel.toUInt8 ≠ channel := by
        intro same
        have number := congrArg UInt8.toNat same
        rw [UInt16.toNat_toUInt8, holds.1] at number
        omega
      have length : g.selectedChanNums - front.length = (t :: todo).length := by
        rw [selected, Nat.add_sub_cancel_left]
      refine ⟨⟨t.bcnCnt, dataCnt, channel.toUInt16⟩ :: t :: todo, ?_, ?_⟩
      · rw [List.orderedInsert_cons_of_le _ _ before]
        exact .cons (placed t.bcnCnt) (.cons holds entries)
      · simp only [if_pos more, if_pos other, AirkissChannel.modify, chan, length, memmove_place]
        simp only [List.append_assoc, List.cons_append, modify_place]
    · have after : ¬ Before rank channel.toNat n := by
        have below := UInt8.not_lt.mp more
        rw [UInt8.le_iff_toNat_le, count, holds.2] at below
        rintro (more | ⟨same, first⟩)
        · omega
        · omega
      have next : front.length + 1 = (front ++ [t]).length := by simp
      obtain ⟨placed, all, result⟩ := ih (fun n member => last n (List.mem_cons_of_mem _ member)) (front ++ [t])
        (by rw [chan]; simp) (by rw [selected]; simp; omega)
      refine ⟨t :: placed, ?_, ?_⟩
      · rw [List.orderedInsert_of_not_le _ _ after]
        exact .cons holds all
      · rw [if_neg more, next, result]
        simp only [List.append_assoc, List.cons_append, List.nil_append]

/-! ### The round -/

variable {received : Nat → List Frame}

/-- The counters as the callback finds them. -/
def counted (received : Nat → List Frame) (channel : Nat) : Nat := dataFrames (received channel) % 256

def passes (received : Nat → List Frame) (channel : Nat) : Bool :=
  decide (4 ≤ dataFrames (received channel) % 256 ∧ 1 ≤ beacons (received channel) % 256)

/-- What the first `k` channels put at the front. -/
def chosen (received : Nat → List Frame) (k : Nat) : List Nat :=
  ((List.range' 1 k).filter (passes received)).reverse.insertionSort (Before (counted received))

theorem mem_chosen {k channel : Nat} :
    channel ∈ chosen received k ↔ 1 ≤ channel ∧ channel ≤ k ∧ passes received channel = true := by
  rw [chosen, List.mem_insertionSort, List.mem_reverse, List.mem_filter, List.mem_range'_1, and_assoc,
    Nat.add_comm 1, Nat.lt_succ_iff]

theorem chosen_pass {k : Nat} (pass : passes received (k + 1) = true) :
    chosen received (k + 1) = (chosen received k).orderedInsert (Before (counted received)) (k + 1) := by
  rw [chosen, List.range'_1_concat, List.filter_append, List.reverse_append, Nat.add_comm 1,
    List.filter_cons_of_pos pass]
  rfl

theorem chosen_skip {k : Nat} (skip : ¬ passes received (k + 1) = true) :
    chosen received (k + 1) = chosen received k := by
  rw [chosen, List.range'_1_concat, List.filter_append, List.reverse_append, Nat.add_comm 1,
    List.filter_cons_of_neg skip]
  rfl

/-- The channels to come, as `airkiss_set_scan_all_channel` has put them there. -/
def unscanned (k : Nat) : List ChanParam :=
  (List.range' (k + 1) (13 - k)).map (fun channel => ⟨0, 0, UInt16.ofNat channel⟩) ++ [.zero]

theorem unscanned_succ {k : Nat} (bound : k < 13) :
    unscanned k = ⟨0, 0, UInt16.ofNat (k + 1)⟩ :: unscanned (k + 1) := by
  have number : 13 - k = 13 - (k + 1) + 1 := by omega
  rw [unscanned, number, List.range'_succ]
  rfl

/-- The result of `k` channels, entries that are of no use any more, and the channels to come. -/
def Selecting (received : Nat → List Frame) (k : Nat) (g : AirkissChannel) : Prop :=
  ∃ found left, g.chan = found ++ left ++ unscanned k ∧
    List.Forall₂ (Holds (counted received)) found (chosen received k) ∧
    g.selectedChanNums = found.length ∧ found.length + left.length = k

/-- The current channel with its counters. -/
def scannedParam (received : Nat → List Frame) (k : Nat) : ChanParam :=
  ChanParam.count (beacons (received (k + 1))) (dataFrames (received (k + 1))) ⟨0, 0, UInt16.ofNat (k + 1)⟩

theorem Selecting.modify {k : Nat} {g : AirkissChannel} (selecting : Selecting received k g) (bound : k < 13) :
    ∃ found left, (g.modify k (.count (beacons (received (k + 1))) (dataFrames (received (k + 1))))).chan =
        found ++ left ++ scannedParam received k :: unscanned (k + 1) ∧
      List.Forall₂ (Holds (counted received)) found (chosen received k) ∧
      g.selectedChanNums = found.length ∧ found.length + left.length = k := by
  obtain ⟨found, left, chan, entries, selected, length⟩ := selecting
  refine ⟨found, left, ?_, entries, selected, length⟩
  have place : (found ++ left).length = k := by rw [List.length_append, length]
  have change : (found ++ left ++ unscanned k).modify (found ++ left).length
      (.count (beacons (received (k + 1))) (dataFrames (received (k + 1)))) =
        found ++ left ++ scannedParam received k :: unscanned (k + 1) := by
    rw [unscanned_succ bound, modify_place]
    rfl
  rw [place] at change
  rw [AirkissChannel.modify, chan]
  exact change

theorem toNat_scanned (received : Nat → List Frame) {k : Nat} (bound : k < 13) :
    (scannedParam received k).channel.toUInt8.toNat = k + 1 := by
  simp only [scannedParam, ChanParam.count, UInt16.toNat_toUInt8, UInt16.toNat_ofNat']
  omega

theorem scannedParam_counts (received : Nat → List Frame) (k : Nat) :
    (scannedParam received k).bcnCnt.toNat = beacons (received (k + 1)) % 256 ∧
      (scannedParam received k).dataCnt.toNat = dataFrames (received (k + 1)) % 256 := by
  simp [scannedParam, ChanParam.count]

/-- The two comparisons at the head of `airkiss_add_channel`. -/
theorem passes_iff (received : Nat → List Frame) (k : Nat) :
    passes received (k + 1) = true ↔ ¬ (scannedParam received k).dataCnt < MIN_VALID_DATACNT_INCHAN ∧
      ¬ (scannedParam received k).bcnCnt < MIN_VALID_BCNCNT_INCHAN := by
  obtain ⟨bcnCnt, dataCnt⟩ := scannedParam_counts received k
  rw [passes, decide_eq_true_eq, UInt8.lt_iff_toNat_lt, UInt8.lt_iff_toNat_lt, Nat.not_lt, Nat.not_lt, bcnCnt,
    dataCnt]
  exact Iff.rfl

/-- A channel that passes takes the place of an entry that is of no use any more. -/
theorem Selecting.insert {k : Nat} {g : AirkissChannel} (bound : k < 13) {found left : List ChanParam}
    (chan : g.chan = found ++ left ++ scannedParam received k :: unscanned (k + 1))
    (entries : List.Forall₂ (Holds (counted received)) found (chosen received k))
    (selected : g.selectedChanNums = found.length) (length : found.length + left.length = k)
    (pass : passes received (k + 1) = true) :
    ∃ chan', Selecting received (k + 1) { g with chan := chan', selectedChanNums := found.length + 1 } ∧
      addFrom (scannedParam received k).channel.toUInt8 (scannedParam received k).dataCnt found.length 0 g =
        { g with chan := chan', selectedChanNums := found.length + 1 } := by
  have number := toNat_scanned received bound
  have dataCnt := (scannedParam_counts received k).2
  -- the entry behind the result is the one that is overwritten
  obtain ⟨old, rest, split⟩ : ∃ old rest, left ++ [scannedParam received k] = old :: rest :=
    List.exists_cons_of_ne_nil (by simp)
  have behind : g.chan = [] ++ found ++ old :: (rest ++ unscanned (k + 1)) := by
    rw [chan, List.append_assoc, List.nil_append, ← List.cons_append, ← split, List.append_assoc]
    rfl
  have last : ∀ n ∈ chosen received k, n < (scannedParam received k).channel.toUInt8.toNat := by
    intro n member
    rw [number]
    exact Nat.lt_succ_of_le (mem_chosen.mp member).2.1
  obtain ⟨placed, holds, result⟩ := addFrom_spec (scannedParam received k).channel.toUInt8
    (scannedParam received k).dataCnt entries last (by rw [dataCnt, number, counted]) [] _ old g behind
    (by rw [selected, List.length_nil, Nat.zero_add])
  rw [number, ← chosen_pass pass] at holds
  rw [List.length_nil, selected] at result
  have grown : found.length + 1 = placed.length := by
    rw [holds.length_eq, chosen_pass pass, List.orderedInsert_length, entries.length_eq]
  have lengths := congrArg List.length split
  rw [List.length_append, List.length_cons, List.length_cons, List.length_nil] at lengths
  refine ⟨placed ++ (rest ++ unscanned (k + 1)), ⟨placed, rest, ?_, holds, grown, ?_⟩, result⟩
  · exact (List.append_assoc _ _ _).symm
  · omega

/-- One channel more. -/
theorem Selecting.add {k : Nat} {g : AirkissChannel} (bound : k < 13) {found left : List ChanParam}
    (chan : g.chan = found ++ left ++ scannedParam received k :: unscanned (k + 1))
    (entries : List.Forall₂ (Holds (counted received)) found (chosen received k))
    (selected : g.selectedChanNums = found.length) (length : found.length + left.length = k) :
    ∃ chan' selected', Selecting received (k + 1) { g with chan := chan', selectedChanNums := selected' } ∧
      airkissAddChannel (scannedParam received k).channel.toUInt8 (scannedParam received k).bcnCnt
        (scannedParam received k).dataCnt g = { g with chan := chan', selectedChanNums := selected' } := by
  have enough := passes_iff received k
  rw [airkissAddChannel]
  by_cases pass : passes received (k + 1) = true
  · obtain ⟨data, beacon⟩ := enough.mp pass
    obtain ⟨chan', selecting, result⟩ := Selecting.insert bound chan entries selected length pass
    refine ⟨chan', found.length + 1, selecting, ?_⟩
    rw [if_neg data, if_neg beacon, selected]
    exact result
  · -- the channel itself becomes an entry of no use
    refine ⟨g.chan, g.selectedChanNums, ⟨found, left ++ [scannedParam received k], ?_, ?_, selected, ?_⟩, ?_⟩
    · rw [chan, ← List.append_assoc, List.append_assoc _ [_]]
      rfl
    · rw [chosen_skip pass]
      exact entries
    · rw [List.length_append, List.length_cons, List.length_nil, ← Nat.add_assoc, length]
    · split_ifs with data beacon
      · rfl
      · rfl
      · exact absurd (enough.mpr ⟨data, beacon⟩) pass

/-- The frames on a channel, and the timer. -/
def dwell (macIeFind : MacIeFind) (frames : List Frame) (s : State) : State :=
  airkissSwitchChannelCallback (monitored macIeFind frames s)

/-- A round up to the channel `k`, with the frames that each channel receives. -/
def scan (macIeFind : MacIeFind) (received : Nat → List Frame) (s : State) : Nat → State
  | 0 => startScan s
  | k + 1 => dwell macIeFind (received (k + 1)) (scan macIeFind received s k)

/-- What holds when the channel `k + 1` begins. -/
structure Scanning (received : Nat → List Frame) (k : Nat) (s : State) : Prop where
  mode : s.gChans.mode = .scanAllChan
  index : s.gChans.curChanIdx = k
  all : s.gChans.allChanNums = 13
  selecting : Selecting received k s.gChans
  radio : s.wlanChannel.toNat = k + 1

theorem startScan_scanning (s : State) : Scanning received 0 (startScan s) where
  mode := rfl
  index := rfl
  all := rfl
  selecting := ⟨[], [], rfl, .nil, rfl, rfl⟩
  radio := rfl

/-- The frames leave the mode as it is, and the timer goes on with the scan. -/
theorem Scanning.turn (macIeFind : MacIeFind) {k : Nat} {s : State} (scanning : Scanning received k s)
    (frames : List Frame) : (monitored macIeFind frames s).gChans.mode = .scanAllChan := by
  rw [monitored_gChans]
  exact scanning.mode

/-- The callback finds the channel's counters and puts the channel where it belongs. -/
theorem Scanning.added (macIeFind : MacIeFind) {k : Nat} {s : State} (scanning : Scanning received k s)
    (bound : k < 13) :
    ∃ chan' selected', Selecting received (k + 1) { s.gChans with chan := chan', selectedChanNums := selected' } ∧
      let g := (monitored macIeFind (received (k + 1)) s).gChans
      airkissAddChannel g.cur.channel.toUInt8 g.cur.bcnCnt g.cur.dataCnt g =
        { s.gChans with chan := chan', selectedChanNums := selected' } := by
  obtain ⟨found, left, chan, entries, selected, length⟩ := scanning.selecting.modify bound
  obtain ⟨chan', selected', selecting, added⟩ := Selecting.add (g := s.gChans.modify k _) bound chan entries
    selected length
  refine ⟨chan', selected', selecting, ?_⟩
  have cur : (s.gChans.modify k (.count (beacons (received (k + 1))) (dataFrames (received (k + 1))))).cur =
      scannedParam received k := by
    have place : (found ++ left).length = k := by rw [List.length_append, length]
    have index : (s.gChans.modify k
        (.count (beacons (received (k + 1))) (dataFrames (received (k + 1))))).curChanIdx = k := scanning.index
    rw [AirkissChannel.cur, chan, index, ← place]
    exact getD_place (found ++ left) _ _
  intro g
  have counts : g = s.gChans.modify k (.count (beacons (received (k + 1))) (dataFrames (received (k + 1)))) := by
    have counts := monitored_gChans macIeFind (received (k + 1)) s
    rwa [scanning.index] at counts
  rw [counts, cur]
  exact added

theorem Selecting.cur {k : Nat} {g : AirkissChannel} (selecting : Selecting received k g) (bound : k < 13)
    (index : g.curChanIdx = k) : g.cur = ⟨0, 0, UInt16.ofNat (k + 1)⟩ := by
  obtain ⟨found, left, chan, entries, selected, length⟩ := selecting
  have place : (found ++ left).length = k := by rw [List.length_append, length]
  rw [AirkissChannel.cur, chan, index, ← place, place, unscanned_succ bound, ← place]
  exact getD_place (found ++ left) _ _

/-- The channels of the result. -/
def State.listed (s : State) : List Nat :=
  (s.gChans.chan.take s.gChans.selectedChanNums).map fun c => c.channel.toNat

theorem holds_channels {rank : Nat → Nat} {entries : List ChanParam} {numbers : List Nat}
    (holds : List.Forall₂ (Holds rank) entries numbers) : entries.map (fun c => c.channel.toNat) = numbers := by
  induction holds with
  | nil => rfl
  | cons first _ ih => rw [List.map_cons, first.1, ih]

/-- The callback in the mode `AIRKISS_SCAN_ALL_CHAN`. -/
theorem Scanning.switch (macIeFind : MacIeFind) {k : Nat} {s : State} (scanning : Scanning received k s)
    (bound : k < 13) :
    ∃ g : AirkissChannel, Selecting received (k + 1) g ∧ g.mode = .scanAllChan ∧ g.allChanNums = 13 ∧
      switchAll (monitored macIeFind (received (k + 1)) s) =
        let s := monitored macIeFind (received (k + 1)) s
        if 13 ≤ k + 1 then
          if g.selectedChanNums ≠ 0 then
            let g := { g with curChanIdx := 0 }
            ({ s with gChans := { g with mode := .scanSelectedChan } },
              airkissCalcTimeForSelectedChannel g.cur.dataCnt)
          else (airkissSetScanAllChannel s, AIRKISS_SWITCH_TIMER)
        else ({ s with gChans := { g with curChanIdx := k + 1 } }, AIRKISS_SWITCH_TIMER) := by
  obtain ⟨chan', selected', selecting, added⟩ := scanning.added macIeFind bound
  refine ⟨_, selecting, scanning.mode, scanning.all, ?_⟩
  rw [switchAll]
  simp only at added ⊢
  rw [added]
  simp only [scanning.index, scanning.all]
  rfl

/-- The next channel begins. -/
theorem dwell_scanning {k : Nat} {s : State} (scanning : Scanning received k s) (bound : k + 1 < 13) :
    Scanning received (k + 1) (dwell macIeFind (received (k + 1)) s) := by
  obtain ⟨g, selecting, mode, all, switched⟩ := scanning.switch macIeFind (Nat.lt_of_succ_lt bound)
  have turn := scanning.turn macIeFind (received (k + 1))
  simp only [if_neg (Nat.not_le.mpr bound)] at switched
  have next : Selecting received (k + 1) { g with curChanIdx := k + 1 } := selecting
  rw [dwell, airkissSwitchChannelCallback, turn]
  simp only [switched]
  constructor
  · exact mode
  · rfl
  · exact all
  · exact selecting
  · rw [next.cur bound rfl, UInt8.toNat_toUInt16, UInt16.toNat_toUInt8, UInt16.toNat_ofNat']
    omega

/-- The last channel ends. -/
theorem dwell_listed {s : State} (scanning : Scanning received 12 s) :
    (dwell macIeFind (received 13) s).listed = chosen received 13 := by
  obtain ⟨g, selecting, mode, all, switched⟩ := scanning.switch macIeFind (Nat.lt_succ_self 12)
  obtain ⟨found, left, chan, entries, selected, length⟩ := selecting
  have turn := scanning.turn macIeFind (received 13)
  simp only [if_pos (le_refl 13)] at switched
  rw [dwell, airkissSwitchChannelCallback, turn]
  simp only [switched, State.listed]
  split
  next some =>
    simp only
    rw [chan, selected, List.append_assoc, List.take_left]
    exact holds_channels entries
  next none =>
    -- Nothing was selected, and the scan starts again.
    have empty : found = [] := List.length_eq_zero_iff.mp (selected.symm.trans (not_not.mp none))
    rw [empty] at entries
    have nothing := holds_channels entries
    rw [← nothing]
    rfl

theorem scan_scanning (s : State) {k : Nat} (bound : k < 13) :
    Scanning received k (scan macIeFind received s k) := by
  induction k with
  | zero => exact startScan_scanning s
  | succ k ih => exact dwell_scanning (ih (Nat.lt_of_succ_lt bound)) bound

theorem scan_listed (macIeFind : MacIeFind) (received : Nat → List Frame) (s : State) :
    (scan macIeFind received s 13).listed = chosen received 13 :=
  dwell_listed (scan_scanning s (Nat.lt_succ_self 12))

/-- While a channel receives its frames, the radio is on it. -/
theorem scan_radio (s : State) {k : Nat} (bound : k < 13) (frames : List Frame) :
    (monitored macIeFind frames (scan macIeFind received s k)).wlanChannel.toNat = k + 1 := by
  rw [monitored_wlanChannel]
  exact (scan_scanning s bound).radio

/-- A channel with enough frames. -/
def Heard (received : Nat → List Frame) (channel : Nat) : Prop :=
  (1 ≤ channel ∧ channel ≤ 13) ∧ MIN_VALID_BCNCNT_INCHAN.toNat ≤ beacons (received channel) ∧
    MIN_VALID_DATACNT_INCHAN.toNat ≤ dataFrames (received channel)

/-- A round, from its start to its end: the result, and the channels to come after each insertion. -/
structure RoundRight (received : Nat → List Frame) (round : Nat → State) : Prop where
  exactly : ∀ channel, channel ∈ (round 13).listed ↔ Heard received channel
  once : (round 13).listed.Nodup
  ordered : (round 13).listed.Pairwise fun a b => dataFrames (received b) ≤ dataFrames (received a)
  kept : ∀ k < 13, (round k).gChans.chan.drop k = unscanned k

/-- The numbers of frames modulo 256 are enough for the channels that have enough, and order them as the
numbers do. -/
structure CountersFit (received : Nat → List Frame) : Prop where
  enough : ∀ channel, Heard received channel →
    MIN_VALID_BCNCNT_INCHAN.toNat ≤ beacons (received channel) % 256 ∧
      MIN_VALID_DATACNT_INCHAN.toNat ≤ dataFrames (received channel) % 256
  ordered : ∀ a b, Heard received a → Heard received b →
    dataFrames (received b) % 256 < dataFrames (received a) % 256 ∨
      dataFrames (received b) % 256 = dataFrames (received a) % 256 ∧ a < b →
    dataFrames (received b) ≤ dataFrames (received a)

theorem chosen_nodup (k : Nat) : (chosen received k).Nodup := by
  rw [chosen, (List.perm_insertionSort _ _).nodup_iff, List.nodup_reverse]
  exact (List.nodup_range' 1 Nat.one_pos).filter _

theorem chosen_sorted (k : Nat) : (chosen received k).Pairwise (Before (counted received)) :=
  List.pairwise_insertionSort _ _

/-- Two channels stand in the result as their counters are. -/
theorem pair_chosen {k a b : Nat} (first : a ∈ chosen received k) (second : b ∈ chosen received k) (ne : a ≠ b)
    (before : Before (counted received) a b) : [a, b].Sublist (chosen received k) := by
  apply List.pair_sublist_insertionSort' before
  have both : [a, b].Nodup := by simpa using ne
  apply List.subperm_of_subset both
  have perm := List.perm_insertionSort (Before (counted received))
    ((List.range' 1 k).filter (passes received)).reverse
  rintro c member
  apply perm.mem_iff.mp
  rcases List.mem_pair.mp member with rfl | rfl
  · exact first
  · exact second

theorem heard_of_chosen {channel : Nat} (member : channel ∈ chosen received 13) : Heard received channel := by
  obtain ⟨low, high, pass⟩ := mem_chosen.mp member
  obtain ⟨data, beacon⟩ := of_decide_eq_true pass
  exact ⟨⟨low, high⟩, le_trans beacon (Nat.mod_le _ _), le_trans data (Nat.mod_le _ _)⟩

theorem countersFit_of_roundRight {s : State} (right : RoundRight received (scan macIeFind received s)) :
    CountersFit received := by
  have exactly := right.exactly
  have ordered := right.ordered
  rw [scan_listed] at exactly ordered
  constructor
  · intro channel enough
    obtain ⟨low, high, pass⟩ := mem_chosen.mp ((exactly channel).mpr enough)
    exact (of_decide_eq_true pass).symm
  · intro a b first second order
    have ne : a ≠ b := by
      rintro rfl
      exact order.elim (lt_irrefl _) fun equal => lt_irrefl a equal.2
    have before : Before (counted received) a b := order.imp id (And.imp id Nat.le_of_lt)
    -- two channels stand in the result as their counters are, and that has to be the right order
    have pair := pair_chosen ((exactly a).mpr first) ((exactly b).mpr second) ne before
    exact List.pairwise_iff_forall_sublist.mp ordered pair

theorem roundRight_of_countersFit (macIeFind : MacIeFind) (s : State) (fit : CountersFit received) :
    RoundRight received (scan macIeFind received s) := by
  have listed := scan_listed macIeFind received s
  constructor
  · intro channel
    rw [listed]
    constructor
    · exact heard_of_chosen
    · intro enough
      have counters := fit.enough channel enough
      exact mem_chosen.mpr ⟨enough.1.1, enough.1.2, decide_eq_true counters.symm⟩
  · rw [listed]
    exact chosen_nodup 13
  · rw [listed]
    apply List.pairwise_iff_forall_sublist.mpr
    intro a b pair
    have first := heard_of_chosen (pair.subset List.mem_cons_self)
    have second := heard_of_chosen (pair.subset (List.mem_cons_of_mem _ List.mem_cons_self))
    have before := List.pairwise_iff_forall_sublist.mp (chosen_sorted 13) pair
    have ne : a ≠ b := List.pairwise_iff_forall_sublist.mp (chosen_nodup 13) pair
    exact fit.ordered a b first second (before.imp id (And.imp id fun le => lt_of_le_of_ne le ne))
  · intro k bound
    -- the channels to come stand behind those that the round is done with
    obtain ⟨found, left, chan, entries, selected, length⟩ := (scan_scanning s bound).selecting
    have place : (found ++ left).length = k := by rw [List.length_append, length]
    rw [chan, ← place, List.drop_left]

/-- A full round, whatever the channels receive. -/
theorem channel_selection_iff (macIeFind : MacIeFind) (received : Nat → List Frame) (s : State) :
    RoundRight received (scan macIeFind received s) ↔ CountersFit received := by
  constructor
  · exact countersFit_of_roundRight
  · exact roundRight_of_countersFit macIeFind s

/-- A beacon of 40 bytes, and a data frame of 24. -/
def beaconFrame : Frame := ⟨fun i => if i = 0 then 0x80 else 0, 40⟩
def dataFrame : Frame := ⟨fun i => if i = 0 then 0x08 else 0, 24⟩

/-- The memory at the start. -/
def boot : State := ⟨⟨List.replicate MAX_CHANNELS .zero, 0, 0, 0, .scanAllChan⟩, ⟨fun _ => ⟨0, 0⟩, 0⟩, 0, 0, []⟩

/-- Channel 1 receives a beacon and 256 data frames. -/
def busyChannel (channel : Nat) : List Frame :=
  if channel = 1 then beaconFrame :: List.replicate 256 dataFrame else []

/-- It is not in the result. -/
theorem busy_channel_lost :
    (scan (fun _ _ _ => none) busyChannel boot 13).listed = [] ∧
      ¬ RoundRight busyChannel (scan (fun _ _ _ => none) busyChannel boot) := by
  have frames : beacons (busyChannel 1) = 1 ∧ dataFrames (busyChannel 1) = 256 := by
    simp only [beacons, dataFrames, busyChannel, if_true, List.countP_cons, List.countP_replicate]
    decide
  have none : (scan (fun _ _ _ => none) busyChannel boot 13).listed = [] := by
    rw [scan_listed]
    apply List.eq_nil_iff_forall_not_mem.mpr
    intro channel member
    obtain ⟨low, high, pass⟩ := mem_chosen.mp member
    have enough := (of_decide_eq_true pass).1
    by_cases first : channel = 1
    · rw [first, frames.2] at enough
      exact absurd enough (by decide)
    · rw [dataFrames, busyChannel, if_neg first] at enough
      exact absurd enough (by decide)
  constructor
  · exact none
  · intro right
    have heard : Heard busyChannel 1 := by
      rw [Heard, frames.1, frames.2]
      decide
    have member := (right.exactly 1).mpr heard
    rw [none] at member
    exact absurd member List.not_mem_nil

end Bk7251.AirkissMain
