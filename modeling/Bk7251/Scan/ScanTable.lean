import Bk7251.Lib.Machine
import Bk7251.Scan.Ownership

/-!
# What a scan leaves in the table

Frames of one scan collect entries with distinct BSSIDs; an on-channel entry is never given up, and an
off-channel one gives way to an on-channel frame. The full table is the exception: its exit comes
before the BSSID is compared. So is a scan that starts with the results of the last one released but
the last confirmation still noted: its second frame drops what the first one left.
-/
namespace Bk7251.Scan

open Lib

variable (mac : Mac)

/-- The code's `on_channel`, for a frame that passes the country code. -/
def ScanInd.onChannel (ind : ScanInd) : Bool := (ind.scanChannel mac).any (·.2)

/-! ### Tables -/

namespace Table

variable {mac} {t : Table} {e : StaScanRes}

theorem lookup_append (room : t.entries.length < MAX_BSS_LIST) (absent : t.lookup e.bssid = none)
    (bssid : List UInt8) :
    (t.record e).lookup bssid = if bssid = e.bssid then some e else t.lookup bssid := by
  unfold lookup
  rw [record_append room absent, List.find?_append]
  by_cases same : bssid = e.bssid
  · subst same
    rw [if_pos rfl, show t.entries.find? _ = none from absent]
    simp
  · rw [if_neg same]
    have other : [e].find? (·.bssid == bssid) = none := by simpa using Ne.symm same
    rw [other, Option.or_none]

theorem lookup_replace {d : StaScanRes} (found : t.lookup e.bssid = some d) (bssid : List UInt8) :
    (t.replace e).lookup bssid = if bssid = e.bssid then some e else t.lookup bssid := by
  obtain ⟨member, same⟩ := lookup_eq_some.mp found
  by_cases equal : bssid = e.bssid
  · subst equal
    rw [if_pos rfl]
    refine lookup_eq_some.mpr ⟨List.mem_map.mpr ⟨d, member, if_pos same⟩, rfl⟩
  · rw [if_neg equal]
    -- both sides search for entries that the exchange leaves alone
    simp only [lookup, replace, replaced, List.find?_map]
    have test : ((fun d => d.bssid == bssid) ∘ fun d => if d.bssid = e.bssid then e else d) =
        fun d => d.bssid == bssid := by
      funext d
      by_cases here : d.bssid = e.bssid
      · simp [here]
      · simp [here]
    rw [test]
    cases search : t.entries.find? fun d => d.bssid == bssid with
    | none => rfl
    | some d =>
      have name : d.bssid = bssid := by simpa using List.find?_some search
      rw [Option.map_some, if_neg (by rw [name]; exact equal)]

/-- After a record, an on-channel entry is the old one or the new one. -/
theorem record_onChannel {bssid : List UInt8} {d : StaScanRes} (found : t.lookup bssid = some d)
    (on : d.onChannel = true) :
    ∃ d', (t.record e).lookup bssid = some d' ∧ d'.onChannel = true := by
  by_cases room : t.entries.length < MAX_BSS_LIST
  · cases there : t.lookup e.bssid with
    | none =>
      rw [lookup_append room there]
      split
      · next same => rw [← same, found] at there; cases there
      · exact ⟨d, found, on⟩
    | some c =>
      by_cases stays : c.onChannel = true ∨ e.onChannel = false
      · rw [record_keep there stays]
        exact ⟨d, found, on⟩
      · obtain ⟨off, new⟩ : c.onChannel = false ∧ e.onChannel = true := by simpa using stays
        rw [record_replace room there off new, lookup_replace there]
        split
        · exact ⟨e, rfl, new⟩
        · exact ⟨d, found, on⟩
  · rw [record_full room]
    exact ⟨d, found, on⟩

/-- The frame's BSSID has an off-channel entry in a full table. -/
def displaces (entries : List StaScanRes) (bssid : List UInt8) : Bool :=
  decide (MAX_BSS_LIST ≤ entries.length) && entries.any fun d => d.bssid == bssid && !d.onChannel

/-- An on-channel entry is in place once it has been recorded, if it is there at all. -/
theorem record_placed (new : e.onChannel = true) (fits : displaces t.entries e.bssid = false)
    {d : StaScanRes} (found : (t.record e).lookup e.bssid = some d) : d.onChannel = true := by
  by_cases room : t.entries.length < MAX_BSS_LIST
  · cases there : t.lookup e.bssid with
    | none =>
      rw [lookup_append room there, if_pos rfl] at found
      exact Option.some.inj found ▸ new
    | some c =>
      by_cases stays : c.onChannel = true ∨ e.onChannel = false
      · rw [record_keep there stays, there] at found
        exact Option.some.inj found ▸ stays.resolve_right (by simp [new])
      · obtain ⟨off, _⟩ : c.onChannel = false ∧ e.onChannel = true := by simpa using stays
        rw [record_replace room there off new, lookup_replace there, if_pos rfl] at found
        exact Option.some.inj found ▸ new
  · rw [record_full room] at found
    obtain ⟨member, same⟩ := lookup_eq_some.mp found
    have full : MAX_BSS_LIST ≤ t.entries.length := by omega
    simp only [displaces, full, decide_true, Bool.true_and, List.any_eq_false] at fits
    simpa [same] using fits d member

theorem collect_onChannel (ind : ScanInd) {bssid : List UInt8} {d : StaScanRes}
    (found : t.lookup bssid = some d) (on : d.onChannel = true) :
    ∃ d', (t.collect mac ind true).lookup bssid = some d' ∧ d'.onChannel = true := by
  unfold collect
  cases ind.scanChannel mac with
  | none => exact ⟨d, found, on⟩
  | some c => exact record_onChannel found on

theorem collect_placed {ind : ScanInd} (new : ind.onChannel mac = true)
    (fits : displaces t.entries ind.bssid = false) {d : StaScanRes}
    (found : (t.collect mac ind true).lookup ind.bssid = some d) : d.onChannel = true := by
  unfold ScanInd.onChannel at new
  unfold collect at found
  cases channel : ind.scanChannel mac with
  | none => simp [channel] at new
  | some c =>
    obtain ⟨chann, onChannel⟩ := c
    rw [channel] at new found
    exact record_placed (e := ind.item mac chann onChannel) new fits found

/-- The table after the frames of a scan. -/
def collectAll (mac : Mac) (t : Table) (inds : List ScanInd) : Table :=
  inds.foldl (fun t ind => t.collect mac ind true) t

theorem collectAll_onChannel (inds : List ScanInd) {bssid : List UInt8} {d : StaScanRes}
    (found : t.lookup bssid = some d) (on : d.onChannel = true) :
    ∃ d', (t.collectAll mac inds).lookup bssid = some d' ∧ d'.onChannel = true := by
  induction inds generalizing t d with
  | nil => exact ⟨d, found, on⟩
  | cons ind inds ih =>
    obtain ⟨d', found', on'⟩ := collect_onChannel ind found on
    exact ih found' on'

end Table

/-! ### Runs -/

/-- The indications of one scan, with memory for the shell and the items. -/
def scanEvents (inds : List ScanInd) : List Event := inds.map fun ind => .resultInd ind true true

/-- What the scan promises at the end of its frames: the entries fit and are distinct, an on-channel
frame that found a place has an on-channel entry, and the confirmation sorts them. -/
structure ScanHolds (s : State) (inds : List ScanInd) (s' : State) (t : List StaScanRes) : Prop where
  ran : s.run mac (scanEvents inds) = some s'
  table : s'.table = some t
  bounded : t.length ≤ MAX_BSS_LIST
  distinct : (t.map (·.bssid)).Nodup
  onChannel : ∀ part ind rest, inds = part ++ ind :: rest → ind.onChannel mac = true →
    (∃ t₁, (s.run mac (scanEvents (part ++ [ind]))).bind State.table = some t₁ ∧
      ∃ d ∈ t₁, d.bssid = ind.bssid) →
    ∃ d ∈ t, d.bssid = ind.bssid ∧ d.onChannel = true
  sorted : ∃ t', (s'.step mac .startCfm).bind State.table = some t' ∧ t'.Perm t ∧
    t'.Pairwise fun a b => b.level ≤ a.level

/-- An on-channel frame comes whose BSSID has an off-channel entry in the full table of its scan. -/
def State.displaces (s : State) (ind : ScanInd) : Bool :=
  !s.scanCfm && ind.onChannel mac && s.table.any fun t => Table.displaces t ind.bssid

/-- One frame, for a core that may have stopped. -/
def frameStep (s : Option State) (ind : ScanInd) : Option State :=
  s.bind fun s => s.step mac (.resultInd ind true true)

/-- The frame does not find the full table in its way, and its item lies in its block. -/
def Fits (s : Option State) (ind : ScanInd) : Prop :=
  (s.any fun s => s.displaces mac ind || s.overruns mac (.resultInd ind true true)) = false

instance (s : Option State) (ind : ScanInd) : Decidable (Fits mac s ind) :=
  inferInstanceAs (Decidable (_ = _))

namespace Represents

variable {mac} {s : State} {t : Table}

/-- A frame of a scan whose table is its own. -/
theorem frame (rep : Represents s t) (cfm : s.scanCfm = false) (awake : s.coreHung = false)
    {ind : ScanInd} (fits : Fits mac (some s) ind) :
    ∃ s', s.step mac (.resultInd ind true true) = some s' ∧
      Represents s' (t.collect mac ind true) ∧ s'.scanCfm = false ∧ s'.coreHung = false := by
  have inside : Table.overruns mac t.entries ind true = false := by
    have within := (Bool.or_eq_false_iff.mp fits).2
    simpa [State.overruns, State.placed, awake, rep.met_eq (by simp [cfm])] using within
  obtain ⟨s', equal, cfm', more, _⟩ := rep.received mac ind true true (by simp [cfm]) fun _ => inside
  obtain ⟨rep', _, hung⟩ := more (.inr rfl)
  refine ⟨s', ?_, rep', cfm'.trans cfm, hung.trans awake⟩
  simpa only [State.step, State.core, awake, Bool.false_eq_true, if_false] using equal

theorem frames (rep : Represents s t) (cfm : s.scanCfm = false) (awake : s.coreHung = false)
    {inds : List ScanInd} (fits : Along (frameStep mac) (Fits mac) (some s) inds) :
    ∃ s', s.run mac (scanEvents inds) = some s' ∧ Represents s' (t.collectAll mac inds) ∧
      s'.coreHung = false := by
  induction inds generalizing s t with
  | nil => exact ⟨s, rfl, rep, awake⟩
  | cons ind inds ih =>
    obtain ⟨s₁, equal, rep₁, cfm₁, awake₁⟩ := rep.frame cfm awake fits.1
    have later := fits.2
    rw [frameStep, Option.bind_some, equal] at later
    obtain ⟨s₂, rest, rep₂, awake₂⟩ := ih rep₁ cfm₁ awake₁ later
    refine ⟨s₂, ?_, rep₂, awake₂⟩
    rw [scanEvents, List.map_cons, State.run, List.foldlM_cons, equal]
    exact rest

/-- The run of the frames, as far as the table is concerned, is a run of tables. -/
theorem fits_along (rep : Represents s t) (cfm : s.scanCfm = false) (awake : s.coreHung = false)
    {inds : List ScanInd} (fits : Along (frameStep mac) (Fits mac) (some s) inds) :
    Along (fun t ind => t.collect mac ind true)
      (fun t ind => ind.onChannel mac = true → Table.displaces t.entries ind.bssid = false) t
      inds := by
  induction inds generalizing s t with
  | nil => trivial
  | cons ind inds ih =>
    obtain ⟨s₁, equal, rep₁, cfm₁, awake₁⟩ := rep.frame cfm awake fits.1
    refine ⟨fun on => ?_, ih rep₁ cfm₁ awake₁ ?_⟩
    · have there := (Bool.or_eq_false_iff.mp fits.1).1
      simpa [State.displaces, cfm, on, rep.table_eq] using there
    · have later := fits.2
      rwa [frameStep, Option.bind_some, equal] at later

end Represents

/-- Once placed, an on-channel entry is there at the end of the scan. -/
theorem Table.collectAll_placed {t : Table} {part rest : List ScanInd} {ind : ScanInd}
    (fits : Along (fun t ind => Table.collect mac t ind true)
      (fun t ind => ind.onChannel mac = true → Table.displaces t.entries ind.bssid = false) t
      (part ++ ind :: rest))
    (on : ind.onChannel mac = true)
    (there : ∃ d ∈ (t.collectAll mac (part ++ [ind])).entries, d.bssid = ind.bssid) :
    ∃ d ∈ (t.collectAll mac (part ++ ind :: rest)).entries,
      d.bssid = ind.bssid ∧ d.onChannel = true := by
  obtain ⟨d, member, same⟩ := there
  have found : ((t.collectAll mac part).collect mac ind true).lookup ind.bssid = some d := by
    rw [collectAll, List.foldl_append] at member
    exact lookup_eq_some.mpr ⟨member, same⟩
  have placed := collect_placed on (((along_append _ _).mp fits).2.1 on) found
  have kept : ∃ d', (((t.collectAll mac part).collect mac ind true).collectAll mac rest).lookup
      ind.bssid = some d' ∧ d'.onChannel = true := collectAll_onChannel rest found placed
  obtain ⟨d', found', on'⟩ := kept
  obtain ⟨member', same'⟩ := lookup_eq_some.mp found'
  refine ⟨d', ?_, same', on'⟩
  rw [collectAll, List.foldl_append, List.foldl_cons]
  exact member'

/-- The confirmation behind a run of frames. -/
theorem Represents.confirmed {s' : State} {t : Table} (rep : Represents s' t)
    (awake : s'.coreHung = false) :
    ∃ t', (s'.step mac .startCfm).bind State.table = some t' ∧ t'.Perm t.entries ∧
      t'.Pairwise fun a b => b.level ≤ a.level := by
  obtain ⟨s'', t', equal, rep', perm, descend⟩ := rep.startCfm
  refine ⟨t'.entries, ?_, perm, descend⟩
  simp only [State.step, State.core, awake, Bool.false_eq_true, if_false, equal, Option.bind_some,
    rep'.table_eq]

/-- From a state whose table, if any, is the running scan's. -/
theorem scan_holds_open {s : State} {t : Table} (rep : Represents s t) (cfm : s.scanCfm = false)
    (awake : s.coreHung = false) {inds : List ScanInd}
    (fits : Along (frameStep mac) (Fits mac) (some s) inds) :
    ∃ s' t', ScanHolds mac s inds s' t' := by
  obtain ⟨s', ran, rep', awake'⟩ := rep.frames cfm awake fits
  refine ⟨s', _, ran, rep'.table_eq, (t.collectAll mac inds).bounded, (t.collectAll mac inds).distinct,
    ?_, rep'.confirmed mac awake'⟩
  -- what the state shows after `part` is the table that was collected up to there
  rintro part ind rest rfl on ⟨t₁, there, d, member, same⟩
  have begun : Along (frameStep mac) (Fits mac) (some s) (part ++ [ind]) := by
    obtain ⟨before, here⟩ := (along_append _ _).mp fits
    exact (along_append _ _).mpr ⟨before, here.1, trivial⟩
  obtain ⟨s₁, ran₁, rep₁, _⟩ := rep.frames cfm awake begun
  rw [ran₁, Option.bind_some, rep₁.table_eq, Option.some.injEq] at there
  exact Table.collectAll_placed mac (rep.fits_along cfm awake fits) on ⟨d, there ▸ member, same⟩

/-- A state that answers every frame as `s₁` does runs as `s₁` does. -/
theorem run_frames_congr {s s₁ : State}
    (same : ∀ ind, s.step mac (.resultInd ind true true) = s₁.step mac (.resultInd ind true true))
    {inds : List ScanInd} (some_frame : inds ≠ []) :
    s.run mac (scanEvents inds) = s₁.run mac (scanEvents inds) := by
  cases inds with
  | nil => exact absurd rfl some_frame
  | cons ind inds =>
    simp only [scanEvents, List.map_cons, State.run, List.foldlM_cons, same]

theorem scan_table_holds (es : List Event) {s : State} (reached : State.boot.run mac es = some s)
    (awake : s.coreHung = false) (kept : s.scanCfm = true → s.scanRstSetPtr ≠ none)
    {inds : List ScanInd} (fits : Along (frameStep mac) (Fits mac) (some s) inds) :
    ∃ s' t, ScanHolds mac s inds s' t := by
  obtain ⟨t, rep⟩ := represents_boot.run reached
  -- either the table is the running scan's, or the first frame releases it
  cases cfm : s.scanCfm with
  | false => exact scan_holds_open mac rep cfm awake fits
  | true =>
    cases inds with
    | nil =>
      refine ⟨s, t.entries, rfl, rep.table_eq, t.bounded, t.distinct, fun part ind rest split => ?_,
        rep.confirmed mac awake⟩
      simp at split
    | cons ind inds =>
      -- the first frame starts over, so the scan runs as it does from the state without a table
      have stale : (s.scanCfm && s.scanRstSetPtr.isSome) = true := by
        rw [cfm, Bool.true_and]
        exact Option.isSome_iff_ne_none.mpr (kept cfm)
      obtain ⟨s₁, rep₁, cfm₁, awake₁, noSet, same⟩ := rep.received_first stale
      have same_step : ∀ ind,
          s.step mac (.resultInd ind true true) = s₁.step mac (.resultInd ind true true) := by
        intro ind
        simp only [State.step, State.core, awake₁, awake, same, Bool.false_eq_true, if_false]
      have fits₁ : Along (frameStep mac) (Fits mac) (some s₁) (ind :: inds) := by
        refine ⟨?_, ?_⟩
        · have within := (Bool.or_eq_false_iff.mp fits.1).2
          have met : s₁.met = s.met := by
            rw [State.met, State.met, if_pos stale, cfm₁, rep₁.table_eq]
            rfl
          have past : s₁.overruns mac (.resultInd ind true true) = s.overruns mac (.resultInd ind true true) := by
            simp [State.overruns, State.placed, awake, awake₁, met]
          have off : s₁.displaces mac ind = false := by
            simp [State.displaces, rep₁.table_eq, Table.displaces, Table.empty]
          exact Bool.or_eq_false_iff.mpr ⟨off, past.trans within⟩
        · have later := fits.2
          rwa [frameStep, Option.bind_some, same_step] at later
      obtain ⟨s', t', holds⟩ := scan_holds_open mac rep₁ cfm₁ (awake₁.trans awake) fits₁
      refine ⟨s', t', ?_, holds.table, holds.bounded, holds.distinct, ?_, holds.sorted⟩
      · rw [run_frames_congr mac same_step (by simp)]
        exact holds.ran
      · intro part ind' rest split on there
        rw [run_frames_congr mac same_step (by simp)] at there
        exact holds.onChannel part ind' rest split on there

/-! A beacon of one element, and the search for an element that walks from one to the next. -/

def findElement (m : Mem UInt8) (id : UInt8) (length : Nat) : Nat → Nat → Option Nat
  | 0, _ => none
  | fuel + 1, offset =>
    if length < offset + 2 then none
    else if m offset = id then some offset
    else findElement m id length fuel (offset + 2 + (m (offset + 1)).toNat)

def walkingMac : Mac where
  macIeFind m length id := findElement m id length.toNat length.toNat 0
  getSecurityTypeFromIe _ _ _ := 0

/-- Heard on channel 1; `ds` is the channel that the sender names. -/
def beacon (ds last : UInt8) : ScanInd where
  length := 39
  centerFreq := 2412
  rssi := -40
  bssid := [0, 0, 0, 0, 0, last]
  timestamp := List.replicate 8 0
  beaconInt := 100
  capabInfo := 1
  «variable» := fun i => [3, 1, ds].getD i 0
  country := ⟨1, 13, false⟩

theorem scan_table_holds_replacement :
    ∃ s' t, ScanHolds walkingMac State.boot [beacon 2 0, beacon 1 0] s' t :=
  scan_table_holds walkingMac [] rfl rfl (fun impossible => nomatch impossible) (by decide +kernel)

/-- An off-channel beacon, 31 others, and the first access point heard on its own channel. -/
def crowded : List ScanInd :=
  beacon 2 0 :: (List.range 31).map (fun k => beacon 1 (UInt8.ofNat (k + 1))) ++ [beacon 1 0]

theorem crowded_stays_off :
    ((State.boot.run walkingMac (scanEvents crowded)).bind State.table).map
        (fun t => (t.any (·.bssid == [0, 0, 0, 0, 0, 0]),
          t.any fun d => d.bssid == [0, 0, 0, 0, 0, 0] && d.onChannel)) = some (true, false) := by
  decide +kernel

theorem scan_table_fails :
    ¬ ∀ (mac : Mac) (es : List Event) (s : State), State.boot.run mac es = some s →
      s.coreHung = false → ∀ inds, ∃ s' t, ScanHolds mac s inds s' t := by
  intro always
  obtain ⟨s', t, holds⟩ := always walkingMac [] State.boot rfl rfl crowded
  have outcome := crowded_stays_off
  rw [holds.ran, Option.bind_some, holds.table, Option.map_some, Option.some.injEq,
    Prod.mk.injEq] at outcome
  obtain ⟨there, off⟩ := outcome
  obtain ⟨d, member, same⟩ := List.any_eq_true.mp there
  have same' : d.bssid = (beacon 1 0).bssid := eq_of_beq same
  have table : (State.boot.run walkingMac (scanEvents crowded)).bind State.table = some t := by
    rw [holds.ran, Option.bind_some, holds.table]
  obtain ⟨e, inside, name, on⟩ :=
    holds.onChannel _ (beacon 1 0) [] rfl (by decide +kernel) ⟨t, table, d, member, same'⟩
  have found := List.any_eq_false.mp off e inside
  rw [name, on] at found
  exact found rfl

end Bk7251.Scan
