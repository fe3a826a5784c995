import Bk7251.Lib.Machine
import Bk7251.Scan.Table

/-!
# Who owns the scan results

Two modules point at the results and six functions release them. Whatever the order of messages and
calls, the supplicant's pointer is empty or the core's, and no object is used after its release, as long as no frame
that ends before its elements becomes an item.
-/
namespace Bk7251.Scan

open Lib

/-- The entries behind the core's pointer. -/
def State.table (s : State) : Option (List StaScanRes) :=
  match s.scanRstSetPtr with
  | some p => (s.shells.get? p).bind fun res => res.mapM s.items.get?
  | none => some []

/-- The entries that a frame meets: those of a confirmed scan are released first. -/
def State.met (s : State) : List StaScanRes :=
  if s.scanCfm && s.scanRstSetPtr.isSome then [] else s.table.getD []

/-- The frame gets to a table. -/
def State.placed (s : State) (shellAllocated : Bool) : Bool :=
  shellAllocated || s.scanRstSetPtr.isSome && !s.scanCfm

/-- A frame arrives whose item would be written behind its block. -/
def State.overruns (mac : Mac) (s : State) : Event → Bool
  | .resultInd ind shellAllocated itemAllocated =>
    !s.coreHung && (s.placed shellAllocated && Table.overruns mac s.met ind itemAllocated)
  | _ => false

/-- One event, for modules that may have stopped. -/
def eventStep (mac : Mac) (s : Option State) (e : Event) : Option State := s.bind (·.step mac e)

/-- No item is written behind its block. -/
def Inside (mac : Mac) (s : Option State) (e : Event) : Prop := (s.any (·.overruns mac e)) = false

namespace Represents

variable {s : State} {t : Table}

/-- Only the flags differ. -/
theorem flags (rep : Represents s t) (scanCfm coreHung : Bool) :
    Represents { s with scanCfm, coreHung } t :=
  ⟨rep.shared, rep.released, rep.stored⟩

/-- A new shell is an empty table. -/
theorem new_shell (noUpload : s.sScanResultUploadPtr = none) :
    Represents
      { s with shells := s.shells.alloc [], scanRstSetPtr := some s.shells.next } .empty where
  shared := .inl noUpload
  released gone := nomatch gone
  stored p there := by
    obtain rfl : s.shells.next = p := Option.some.inj there
    exact ⟨[], Heap.get?_alloc_self _ _, List.nodup_nil, rfl⟩

theorem no_upload (rep : Represents s t) (noSet : s.scanRstSetPtr = none) :
    s.sScanResultUploadPtr = none := by
  rcases rep.shared with none | same
  · exact none
  · rw [same, noSet]

theorem table_eq (rep : Represents s t) : s.table = some t.entries := by
  unfold State.table
  cases there : s.scanRstSetPtr with
  | none => rw [rep.released there]; rfl
  | some p =>
    obtain ⟨res, shell, stores⟩ := rep.stored p there
    simp only [shell, Option.bind_some]
    exact Heap.mapM_get? stores.content

theorem met_eq (rep : Represents s t) (keeps : (s.scanCfm && s.scanRstSetPtr.isSome) = false) :
    s.met = t.entries := by
  rw [State.met, keeps, rep.table_eq]
  rfl

/-- The frame goes to the table that is there, or to a new one. -/
theorem received (rep : Represents s t) (mac : Mac) (ind : ScanInd) (shellAllocated itemAllocated : Bool)
    (keeps : (s.scanCfm && s.scanRstSetPtr.isSome) = false)
    (fits : s.scanRstSetPtr.isSome ∨ shellAllocated = true → Table.overruns mac t.entries ind itemAllocated = false) :
    ∃ s', s.scanuResultInd mac ind shellAllocated itemAllocated = some s' ∧
      s'.scanCfm = s.scanCfm ∧
      ((s.scanRstSetPtr.isSome ∨ shellAllocated = true) →
        Represents s' (t.collect mac ind itemAllocated) ∧ s'.scanRstSetPtr.isSome ∧
          s'.coreHung = s.coreHung) ∧
      (s.scanRstSetPtr = none → shellAllocated = false → Represents s' t) := by
  cases there : s.scanRstSetPtr with
  | some p =>
    rw [there] at keeps
    obtain ⟨s', equal, rep', set, cfm, hung⟩ :=
      rep.collected there mac ind itemAllocated (fits (.inl (by simp [there])))
    refine ⟨s', ?_, cfm, fun _ => ⟨rep', by simp [set], hung⟩, fun gone => nomatch gone⟩
    simp only [State.scanuResultInd, keeps, Bool.false_eq_true, if_false, there, equal,
      Option.pure_def, Option.bind_eq_bind, Option.bind_some]
  | none =>
    rw [there] at keeps
    obtain rfl := rep.released there
    cases shellAllocated with
    | false =>
      refine ⟨{ s with coreHung := true }, ?_, rfl, fun impossible => by simp at impossible,
        fun _ _ => rep.flags s.scanCfm true⟩
      simp only [State.scanuResultInd, keeps, Bool.false_eq_true, if_false, there, Option.pure_def,
        Option.bind_eq_bind, Option.bind_some, Bool.not_false, if_true]
    | true =>
      have fresh := new_shell (rep.no_upload there)
      obtain ⟨s', equal, rep', set, cfm, hung⟩ := fresh.collected rfl mac ind itemAllocated (fits (.inr rfl))
      refine ⟨s', ?_, cfm, fun _ => ⟨rep', by simp [set], hung⟩, fun _ impossible => nomatch impossible⟩
      simp only [State.scanuResultInd, keeps, Bool.false_eq_true, if_false, there, Option.pure_def,
        Option.bind_eq_bind, Option.bind_some, Bool.not_true, equal]

/-- The first frame behind a confirmation releases the table of the scan before. -/
theorem received_first (rep : Represents s t) (stale : (s.scanCfm && s.scanRstSetPtr.isSome) = true) :
    ∃ s₁, Represents s₁ .empty ∧ s₁.scanCfm = false ∧ s₁.coreHung = s.coreHung ∧ s₁.scanRstSetPtr = none ∧
      ∀ mac ind shellAllocated itemAllocated,
        s.scanuResultInd mac ind shellAllocated itemAllocated =
          s₁.scanuResultInd mac ind shellAllocated itemAllocated := by
  obtain ⟨s', equal, noSet, noUpload, _, hung⟩ := rep.release
  refine ⟨{ s' with scanRstSetPtr := none, scanCfm := false },
    represents_released rfl noUpload, rfl, hung, rfl, fun mac ind shellAllocated itemAllocated => ?_⟩
  simp only [State.scanuResultInd, stale, if_true, equal, Option.pure_def, Option.bind_eq_bind,
    Option.bind_some, Bool.false_and, Bool.false_eq_true, if_false]

/-- A frame that gets to the table and does not fit its block has no result. -/
theorem not_received (rep : Represents s t) (mac : Mac) (ind : ScanInd) (shellAllocated itemAllocated : Bool)
    (keeps : (s.scanCfm && s.scanRstSetPtr.isSome) = false)
    (placed : s.scanRstSetPtr.isSome ∨ shellAllocated = true)
    (beyond : Table.overruns mac t.entries ind itemAllocated = true) :
    s.scanuResultInd mac ind shellAllocated itemAllocated = none := by
  cases there : s.scanRstSetPtr with
  | some p =>
    rw [there] at keeps
    have none := rep.not_collected there mac ind itemAllocated beyond
    simp only [State.scanuResultInd, keeps, Bool.false_eq_true, if_false, there, none, Option.pure_def,
      Option.bind_eq_bind, Option.bind_some]
  | none =>
    rw [there] at keeps
    obtain rfl := rep.released there
    obtain rfl : shellAllocated = true := placed.resolve_left (by simp [there])
    have none := (new_shell (rep.no_upload there)).not_collected rfl mac ind itemAllocated beyond
    simp only [State.scanuResultInd, keeps, Bool.false_eq_true, if_false, there, Option.pure_def,
      Option.bind_eq_bind, Option.bind_some, Bool.not_true, none]

theorem placed_iff (keeps : (s.scanCfm && s.scanRstSetPtr.isSome) = false) (shellAllocated : Bool) :
    s.placed shellAllocated = true ↔ s.scanRstSetPtr.isSome ∨ shellAllocated = true := by
  unfold State.placed
  revert keeps
  generalize s.scanRstSetPtr.isSome = set
  cases s.scanCfm <;> cases set <;> cases shellAllocated <;> simp

/-- The core's handler has a result exactly where no item is written behind its block. -/
theorem resultInd (rep : Represents s t) (mac : Mac) (ind : ScanInd) (shellAllocated itemAllocated : Bool) :
    if s.placed shellAllocated && Table.overruns mac s.met ind itemAllocated then
      s.scanuResultInd mac ind shellAllocated itemAllocated = none
    else ∃ s' t', s.scanuResultInd mac ind shellAllocated itemAllocated = some s' ∧ Represents s' t' := by
  -- after the release, if there is one, nothing is stale
  have plain : ∀ {s t}, Represents s t → (s.scanCfm && s.scanRstSetPtr.isSome) = false →
      if s.placed shellAllocated && Table.overruns mac t.entries ind itemAllocated then
        s.scanuResultInd mac ind shellAllocated itemAllocated = none
      else ∃ s' t', s.scanuResultInd mac ind shellAllocated itemAllocated = some s' ∧
        Represents s' t' := by
    intro s t rep keeps
    split
    next beyond =>
      obtain ⟨there, beyond⟩ := Bool.and_eq_true_iff.mp beyond
      exact rep.not_received mac ind shellAllocated itemAllocated keeps ((placed_iff keeps _).mp there) beyond
    next within =>
      have fits : s.scanRstSetPtr.isSome ∨ shellAllocated = true →
          Table.overruns mac t.entries ind itemAllocated = false := by
        intro there
        simpa [(placed_iff keeps _).mpr there] using within
      obtain ⟨s', equal, _, more, less⟩ := rep.received mac ind shellAllocated itemAllocated keeps fits
      by_cases placed : s.scanRstSetPtr.isSome ∨ shellAllocated = true
      · exact ⟨s', _, equal, (more placed).1⟩
      · obtain ⟨noSet, noShell⟩ : s.scanRstSetPtr = none ∧ shellAllocated = false := by
          simpa using placed
        exact ⟨s', _, equal, less noSet noShell⟩
  cases stale : s.scanCfm && s.scanRstSetPtr.isSome with
  | false =>
    rw [rep.met_eq stale]
    exact plain rep stale
  | true =>
    obtain ⟨s₁, rep₁, cfm, _, noSet, same⟩ := rep.received_first stale
    have shell : s.placed shellAllocated = s₁.placed shellAllocated := by
      have confirmed : s.scanCfm = true := (Bool.and_eq_true_iff.mp stale).1
      simp [State.placed, confirmed, noSet]
    have met : s.met = Table.empty.entries := by
      rw [State.met, stale]
      rfl
    rw [same, shell, met]
    exact plain rep₁ (by simp [cfm])

theorem startCfm (rep : Represents s t) :
    ∃ s' t', s.scanuStartCfm = some s' ∧ Represents s' t' ∧ t'.entries.Perm t.entries ∧
      t'.entries.Pairwise (fun a b => b.level ≤ a.level) := by
  have rep' := rep.flags true s.coreHung
  cases there : s.scanRstSetPtr with
  | none =>
    obtain rfl := rep.released there
    exact ⟨_, _, by simp only [State.scanuStartCfm, State.mhdrScanuStartCfm, there], rep', .refl _,
      List.Pairwise.nil⟩
  | some p =>
    obtain ⟨s', t', equal, rep'', perm, descend, _⟩ := rep'.sorted there
    exact ⟨s', t', equal, rep'', perm, descend⟩

theorem connectInd (rep : Represents s t) :
    ∃ s' t', s.smConnectInd = some s' ∧ Represents s' t' := by
  cases there : s.scanRstSetPtr with
  | none => exact ⟨s, t, by simp only [State.smConnectInd, there], rep⟩
  | some p =>
    obtain ⟨s', equal, _, noUpload, _⟩ := rep.release
    rw [there] at equal
    refine ⟨{ s' with scanRstSetPtr := none }, .empty, ?_, represents_released rfl noUpload⟩
    simp only [State.smConnectInd, there, equal]
    rfl

/-- The way out of `wpa_send_assoc_req`, shared with `wpa_hostapd_release_scan_rst`. -/
theorem release_upload (rep : Represents s t) {p : Nat} (there : s.sScanResultUploadPtr = some p) :
    ∃ s', s.srReleaseScanResults (some p) = some s' ∧
      Represents { s' with sScanResultUploadPtr := none } .empty := by
  obtain ⟨s', equal, noSet, _⟩ := rep.release
  rw [rep.upload_live there] at equal
  exact ⟨s', equal, represents_released noSet rfl⟩

theorem assocReq (rep : Represents s t) :
    ∃ s' t', s.wpaSendAssocReq = some s' ∧ Represents s' t' := by
  cases there : s.sScanResultUploadPtr with
  | none => exact ⟨s, t, by simp only [State.wpaSendAssocReq, there], rep⟩
  | some p =>
    obtain ⟨s', equal, rep'⟩ := rep.release_upload there
    refine ⟨_, _, ?_, rep'⟩
    simp only [State.wpaSendAssocReq, there, equal]
    rfl

theorem releaseScanRst (rep : Represents s t) :
    ∃ s' t', s.wpaHostapdReleaseScanRst = some s' ∧ Represents s' t' := by
  cases there : s.sScanResultUploadPtr with
  | none =>
    obtain ⟨s', equal, noSet, noUpload, _⟩ := rep.release
    exact ⟨s', _, by simp only [State.wpaHostapdReleaseScanRst, there, equal],
      represents_released noSet noUpload⟩
  | some p =>
    obtain ⟨s', equal, rep'⟩ := rep.release_upload there
    refine ⟨_, _, ?_, rep'⟩
    simp only [State.wpaHostapdReleaseScanRst, there, equal]
    rfl

/-- The copies read live items only, however far the memory for them reaches. -/
theorem copyScanRst_reads {items : Heap StaScanRes} {ps : List Nat}
    (live : ∀ p ∈ ps, ∃ d, items.get? p = some d) (room : Nat) (results : List WpaScanRes) :
    ∃ result, copyScanRst items ps room results = some result := by
  -- by induction on the items; the loop stops early without memory or without a channel
  induction ps generalizing room results with
  | nil => exact ⟨_, rfl⟩
  | cons p ps ih =>
    obtain ⟨d, here⟩ := live p (by simp)
    simp only [copyScanRst, here, Option.bind_eq_bind, Option.bind_some, Option.pure_def]
    cases room with
    | zero => exact ⟨_, rfl⟩
    | succ room =>
      cases rwIeee80211GetCentreFrequency d.channel with
      | none => exact ⟨_, rfl⟩
      | some freq => exact ih (fun q member => live q (List.mem_cons_of_mem _ member)) room _

theorem getScanRst (rep : Represents s t) (room : Nat) :
    ∃ result, s.wpaGetScanRst room = some result := by
  cases there : s.sScanResultUploadPtr with
  | none => exact ⟨.done (-1) [], by simp only [State.wpaGetScanRst, there]⟩
  | some p =>
    obtain ⟨res, shell, stores⟩ := rep.stored p (rep.upload_live there)
    obtain ⟨result, equal⟩ := copyScanRst_reads
      (fun q member => (stores.live member).imp fun _ facts => facts.2) room []
    exact ⟨result, by simp only [State.wpaGetScanRst, there, shell, Option.bind_eq_bind,
      Option.bind_some, equal]⟩

theorem apResultNumbers (rep : Represents s t) :
    ∃ number, s.bkWlanGetScanApResultNumbers = some number := by
  cases there : s.scanRstSetPtr with
  | none => exact ⟨0, by simp only [State.bkWlanGetScanApResultNumbers, there]⟩
  | some p =>
    obtain ⟨res, shell, _⟩ := rep.stored p there
    refine ⟨res.length, ?_⟩
    simp only [State.bkWlanGetScanApResultNumbers, there, shell, Option.map_some]

theorem apResult (rep : Represents s t) (getScanuNum : Nat) :
    ∃ s' t' table, s.bkWlanGetScanApResult getScanuNum = some (s', table) ∧ Represents s' t' := by
  obtain ⟨s', equal, noSet, noUpload, _⟩ := rep.release
  have rep' := represents_released noSet noUpload
  cases there : s.scanRstSetPtr with
  | none =>
    rw [there] at equal
    exact ⟨s', _, [], by simp [State.bkWlanGetScanApResult, there, equal], rep'⟩
  | some p =>
    obtain ⟨res, shell, stores⟩ := rep.stored p there
    -- the copies are made before the release, from the first items of a live table
    have read : (res.take getScanuNum).mapM s.items.get? = some (t.entries.take getScanuNum) := by
      apply Heap.mapM_get?
      rw [List.map_take, stores.content, List.map_take]
    rw [there] at equal
    exact ⟨s', _, t.entries.take getScanuNum,
      by simp [State.bkWlanGetScanApResult, there, shell, read, equal], rep'⟩

/-- A core thread that hangs changes nothing. -/
theorem core (rep : Represents s t) {handled : Option State}
    (handles : ∃ s' t', handled = some s' ∧ Represents s' t') :
    ∃ s' t', s.core handled = some s' ∧ Represents s' t' := by
  unfold State.core
  split
  · exact ⟨s, t, rfl, rep⟩
  · exact handles

/-- An event has a result exactly where no item is written behind its block. -/
theorem step (rep : Represents s t) (mac : Mac) (e : Event) :
    if s.overruns mac e then s.step mac e = none else ∃ s' t', s.step mac e = some s' ∧ Represents s' t' := by
  cases e with
  | resultInd ind shellAllocated itemAllocated =>
    cases awake : s.coreHung with
    | true =>
      simp only [State.overruns, awake, Bool.not_true, Bool.false_and, Bool.false_eq_true, if_false, State.step,
        State.core, if_true]
      exact ⟨s, t, rfl, rep⟩
    | false =>
      have handled := rep.resultInd mac ind shellAllocated itemAllocated
      simpa only [State.overruns, awake, Bool.not_false, Bool.true_and, State.step, State.core, Bool.false_eq_true,
        if_false] using handled
  | startCfm =>
    obtain ⟨s', t', equal, rep', _⟩ := rep.startCfm
    exact rep.core ⟨s', t', equal, rep'⟩
  | connectInd => exact rep.core rep.connectInd
  | getScanRst room =>
    obtain ⟨result, equal⟩ := rep.getScanRst room
    exact ⟨s, t, by simp only [State.step, equal, Option.map_some], rep⟩
  | assocReq => exact rep.assocReq
  | releaseScanRst => exact rep.releaseScanRst
  | apResultNumbers =>
    obtain ⟨number, equal⟩ := rep.apResultNumbers
    exact ⟨s, t, by simp only [State.step, equal, Option.map_some], rep⟩
  | apResult getScanuNum =>
    obtain ⟨s', t', table, equal, rep'⟩ := rep.apResult getScanuNum
    exact ⟨s', t', by simp only [State.step, equal, Option.map_some], rep'⟩

/-- Whatever a run has led to stands for a table. -/
theorem run (rep : Represents s t) {mac : Mac} {es : List Event} {s' : State} (ran : s.run mac es = some s') :
    ∃ t', Represents s' t' := by
  -- by induction on the events, with a table for every state on the way
  induction es generalizing s t with
  | nil =>
    cases ran
    exact ⟨t, rep⟩
  | cons e es ih =>
    rw [State.run, List.foldlM_cons] at ran
    obtain ⟨s₁, equal, rest⟩ := Option.bind_eq_some_iff.mp ran
    have stepped := rep.step mac e
    split at stepped
    · rw [stepped] at equal
      cases equal
    · obtain ⟨s₂, t₂, equal₂, rep₂⟩ := stepped
      obtain rfl : s₂ = s₁ := Option.some.inj (equal₂.symm.trans equal)
      exact ih rep₂ rest

/-- The run has a result exactly where no event on its way writes an item behind its block. -/
theorem run_isSome_iff (rep : Represents s t) (mac : Mac) (es : List Event) :
    (s.run mac es).isSome ↔ Along (eventStep mac) (Inside mac) (some s) es := by
  induction es generalizing s t with
  | nil => simp [State.run, Along]
  | cons e es ih =>
    have stepped := rep.step mac e
    rw [State.run, List.foldlM_cons]
    simp only [Along, Inside, eventStep, Option.any_some, Option.bind_some]
    split at stepped
    next beyond =>
      rw [stepped, beyond]
      exact iff_of_false (by simp) (by simp)
    next within =>
      obtain ⟨s₁, t₁, equal, rep₁⟩ := stepped
      rw [equal, Option.bind_eq_bind, Option.bind_some, and_iff_right (Bool.not_eq_true _ ▸ within)]
      exact ih rep₁

end Represents

/-- At most the core's pointer is shared, and it leads to a live table of live items. -/
def State.Owned (s : State) : Prop :=
  ∀ p, s.sScanResultUploadPtr = some p →
    s.scanRstSetPtr = some p ∧ ∃ res, s.shells.get? p = some res ∧ ∀ q ∈ res, (s.items.get? q).isSome

theorem Represents.owned {s : State} {t : Table} (rep : Represents s t) : s.Owned := by
  intro p there
  have set := rep.upload_live there
  obtain ⟨res, shell, stores⟩ := rep.stored p set
  refine ⟨set, res, shell, fun q member => ?_⟩
  obtain ⟨d, _, live⟩ := stores.live member
  simp [live]

/-- A run has a result, so that nothing is used after its release, released twice or written behind its block,
and ends with the pointers in order, exactly where every frame that becomes an item has its fixed part. -/
theorem scan_results_owned_iff (mac : Mac) (es : List Event) :
    (∃ s, State.boot.run mac es = some s ∧ s.Owned) ↔
      Along (eventStep mac) (Inside mac) (some State.boot) es := by
  rw [← represents_boot.run_isSome_iff mac es, Option.isSome_iff_exists]
  refine exists_congr fun s => and_iff_left_of_imp fun ran => ?_
  obtain ⟨t, rep⟩ := represents_boot.run ran
  exact rep.owned

/-- A frame of a header only, heard on channel 1. -/
def headerOnly : ScanInd where
  length := 24
  centerFreq := 2412
  rssi := -40
  bssid := [0, 0, 0, 0, 0, 1]
  timestamp := List.replicate 8 0
  beaconInt := 100
  capabInfo := 1
  «variable» := fun _ => 0
  country := ⟨1, 13, false⟩

/-- Its item takes 64 bytes of a block of 52, and the copy of its elements 4294967284 more. -/
theorem scan_results_owned_fails :
    ¬ ∀ (mac : Mac) (es : List Event), ∃ s, State.boot.run mac es = some s ∧ s.Owned := by
  intro always
  obtain ⟨s, ran, -⟩ := always ⟨fun _ _ _ => none, fun _ _ _ => 0⟩ [.resultInd headerOnly true true]
  have faults : (State.boot.run ⟨fun _ _ _ => none, fun _ _ _ => 0⟩ [.resultInd headerOnly true true]).isSome = false := by
    decide
  rw [ran] at faults
  cases faults

end Bk7251.Scan
