import Bk7251.Driver.DrvModel

/-!
# What the device table is for

A table of devices, each with a name, its operations and the number of times it is open. The code's
table holds exactly that as long as lookups by prefix find what a lookup by name finds, and devices
are closed only when open and leave only when closed.
-/
namespace Bk7251.Driver

open Lib

structure Device where
  name : CStr
  op : DdOperations
  opens : Nat

abbrev Devices := List (Option Device)

def noDevices : Devices := List.replicate DD_MAX_DEV none

/-- The slot holds a device of exactly this name. -/
def named (name : CStr) (slot : Option Device) : Bool := slot.any (·.name = name)

namespace Devices

variable (ds : Devices)

def openDev (name : CStr) (opened : UInt32) : Option (Devices × DdResult) :=
  if name.length > DD_MAX_NAME_LEN then some (ds, ⟨DD_HANDLE_UNVALID, none, none⟩)
  else do
    let i ← ds.findIdx? (named name)
    let d ← ds[i]?.join
    -- the operation is called by the first open only
    let callee := if d.opens = 0 then some (d.op) |>.filter DdOperations.hasOpen else none
    some (ds.set i (some { d with opens := d.opens + 1 }),
      ⟨ddevMakeHandle i, some (if callee.isSome then opened else DRV_FAILURE), callee⟩)

def closeDev (handle : UInt32) : Option (Devices × DdResult) :=
  match ddevGetIdFromHandle handle with
  | none => some (ds, ⟨DRV_FAILURE, none, none⟩)
  | some id => do
    let d ← ds[id]?.join
    -- and by the last close only
    some (ds.set id (some { d with opens := d.opens - 1 }),
      ⟨DRV_SUCCESS, none, if d.opens = 1 then some (d.op) |>.filter DdOperations.hasClose else none⟩)

def registerDev (name : CStr) (op : DdOperations) : Option (Devices × DdResult) := do
  let i ← ds.findIdx? Option.isNone
  some (ds.set i (some ⟨name, op, 0⟩), ⟨DRV_SUCCESS, none, none⟩)

def unregisterDev (name : CStr) : Option (Devices × DdResult) :=
  if name.length > DD_MAX_NAME_LEN then some (ds, ⟨DRV_FAILURE, none, none⟩)
  else do
    let i ← ds.findIdx? (named name)
    some (ds.set i none, ⟨DRV_SUCCESS, none, none⟩)

def step (ds : Devices) : DdCall → Option (Devices × DdResult)
  | .open devName opened => ds.openDev devName opened
  | .close handle => ds.closeDev handle
  | .register devName optr => ds.registerDev devName optr
  | .unregister devName => ds.unregisterDev devName

end Devices

/-- The slot of the code's table for a device. -/
def Device.drvDev (d : Device) : DrvDev :=
  ⟨some d.name, UInt32.ofNat d.opens, if d.opens = 0 then .CLOSED else .OPENED, some d.op⟩

def slotOf : Option Device → DrvDev
  | none => .zero
  | some d => d.drvDev

structure Holds (tbl : DrvDevTbl) (ds : Devices) : Prop where
  slots : tbl = ds.map slotOf
  bounded : ∀ d, some d ∈ ds → d.opens < 2 ^ 32
  short : ∀ d, some d ∈ ds → d.name.length ≤ DD_MAX_NAME_LEN

/-- The device a lookup finds. -/
def firstMatch (tbl : DrvDevTbl) (devName : CStr) : Option DrvDev := tbl.find? (DrvDev.matches devName)

/-- When a call does not reach a defect: the first device whose name starts with the given name has
exactly that name, names fit, only an open device is closed, only a closed one unregistered. -/
def Fine : Option DrvDevTbl → DdCall → Prop
  | some tbl, .open devName _ =>
    (firstMatch tbl devName).all fun dev => dev.name = some devName ∧ dev.useCnt ≠ 0xFFFFFFFF
  | some tbl, .close handle =>
    (ddevGetIdFromHandle handle).all fun id => tbl[id]?.any (·.state = .OPENED)
  | some _, .register devName _ => devName.length ≤ DD_MAX_NAME_LEN
  | some tbl, .unregister devName =>
    devName.length > DD_MAX_NAME_LEN ∨
      (firstMatch tbl devName).any fun dev => dev.name = some devName ∧ dev.state = .CLOSED
  | none, _ => True

instance : (tbl : Option DrvDevTbl) → (c : DdCall) → Decidable (Fine tbl c)
  | some _, .open .. | some _, .close _ | some _, .register .. | some _, .unregister _ | none, _ => by
    unfold Fine
    infer_instance

/-! ### Lookups -/

/-- A weaker test finds the same place if it is met there for the stronger reason. -/
theorem findIdx?_sharpen {α : Type*} {p q : α → Bool} (weaker : ∀ a, p a = true → q a = true)
    (l : List α) (sharp : ∀ a, l.find? q = some a → p a = true) : l.findIdx? q = l.findIdx? p := by
  induction l with
  | nil => rfl
  | cons a l ih =>
    rw [List.findIdx?_cons, List.findIdx?_cons]
    by_cases here : q a = true
    · rw [if_pos here, if_pos (sharp a (List.find?_cons_of_pos here))]
    · rw [if_neg here, if_neg fun strong => here (weaker a strong), ih]
      intro b found
      exact sharp b (by rw [List.find?_cons_of_neg here, found])

theorem getElem?_of_findIdx? {α : Type*} {p : α → Bool} {l : List α} {i : Nat}
    (found : l.findIdx? p = some i) : ∃ a, l[i]? = some a ∧ l.find? p = some a ∧ p a = true := by
  induction l generalizing i with
  | nil => simp at found
  | cons a l ih =>
    rw [List.findIdx?_cons] at found
    by_cases here : p a = true
    · rw [if_pos here] at found
      rw [← Option.some.inj found]
      exact ⟨a, rfl, List.find?_cons_of_pos here, here⟩
    · rw [if_neg here, Option.map_eq_some_iff] at found
      obtain ⟨j, later, rfl⟩ := found
      obtain ⟨b, place, first, holds⟩ := ih later
      exact ⟨b, by simpa using place, by rw [List.find?_cons_of_neg here, first], holds⟩

theorem matches_slotOf (name : CStr) (slot : Option Device) :
    DrvDev.matches name (slotOf slot) = slot.any fun d => name.isPrefixOf d.name := by
  cases slot <;> rfl

theorem matches_of_named {name : CStr} {slot : Option Device} (exact : named name slot = true) :
    DrvDev.matches name (slotOf slot) = true := by
  cases slot with
  | none => simp [named] at exact
  | some d =>
    have same : d.name = name := by simpa [named] using exact
    rw [matches_slotOf, Option.any_some, same]
    exact List.isPrefixOf_iff_prefix.mpr (List.prefix_refl name)

theorem isFree_slotOf (slot : Option Device) : (slotOf slot).isFree = slot.isNone := by
  cases slot with
  | none => rfl
  | some d => simp [slotOf, Device.drvDev, DrvDev.isFree]

variable {ds : Devices}

/-- A lookup finds the device of the name if the first match is exact. -/
theorem findIdx?_matches {name : CStr}
    (exact : ∀ dev, firstMatch (ds.map slotOf) name = some dev → dev.name = some name) :
    (ds.map slotOf).findIdx? (DrvDev.matches name) = ds.findIdx? (named name) := by
  rw [List.findIdx?_map]
  refine findIdx?_sharpen (fun slot => matches_of_named) ds fun slot found => ?_
  have first : firstMatch (ds.map slotOf) name = some (slotOf slot) := by
    have composed : ds.find? (DrvDev.matches name ∘ slotOf) = some slot := found
    rw [firstMatch, List.find?_map, composed]
    rfl
  have known := exact _ first
  cases slot with
  | none => simp [slotOf, DrvDev.zero] at known
  | some d => simpa [named, slotOf, Device.drvDev] using known

/-- The device at the place a lookup by name finds. -/
theorem device_of_findIdx? {name : CStr} {i : Nat} (found : ds.findIdx? (named name) = some i) :
    ∃ d, ds[i]? = some (some d) ∧ d.name = name := by
  obtain ⟨slot, place, _, exact⟩ := getElem?_of_findIdx? found
  cases slot with
  | none => simp [named] at exact
  | some d => exact ⟨d, place, by simpa [named] using exact⟩

/-! ### The calls -/

/-- Putting a device into both tables. -/
theorem Holds.set {tbl : DrvDevTbl} (holds : Holds tbl ds) (i : Nat) {slot : Option Device}
    {dev : DrvDev} (same : dev = slotOf slot) (small : ∀ d, slot = some d → d.opens < 2 ^ 32)
    (short : ∀ d, slot = some d → d.name.length ≤ DD_MAX_NAME_LEN) :
    Holds (tbl.set i dev) (ds.set i slot) where
  slots := by rw [holds.slots, same, List.map_set]
  bounded d member := by
    rcases List.mem_or_eq_of_mem_set member with old | new
    · exact holds.bounded d old
    · exact small d new.symm
  short d member := by
    rcases List.mem_or_eq_of_mem_set member with old | new
    · exact holds.short d old
    · exact short d new.symm

theorem slot_at {tbl : DrvDevTbl} (holds : Holds tbl ds) {i : Nat} {slot : Option Device}
    (place : ds[i]? = some slot) : tbl[i]? = some (slotOf slot) := by
  rw [holds.slots, List.getElem?_map, place]
  rfl

/-- Both steps have a result, and the tables still agree, or neither has. -/
abbrev SameStep (p : Option (DrvDevTbl × DdResult)) (q : Option (Devices × DdResult)) : Prop :=
  Option.Rel (fun x y => Holds x.1 y.1 ∧ x.2 = y.2) p q

private theorem toNat_opens {d : Device} (small : d.opens < 2 ^ 32) :
    (UInt32.ofNat d.opens).toNat = d.opens := by
  rw [UInt32.toNat_ofNat']
  exact Nat.mod_eq_of_lt small

theorem open_refines {tbl : DrvDevTbl} (holds : Holds tbl ds) {name : CStr} {opened : UInt32}
    (fine : Fine (some tbl) (.open name opened)) :
    SameStep (ddevOpen tbl name opened) (ds.openDev name opened) := by
  rw [ddevOpen, Devices.openDev]
  split
  · exact .some ⟨holds, rfl⟩
  have known : ∀ dev, firstMatch tbl name = some dev →
      dev.name = some name ∧ dev.useCnt ≠ 0xFFFFFFFF := fun dev first => by
    simpa [Fine, first] using fine
  -- the prefix search stops where the search for the name does
  have lookup : tbl.findIdx? (DrvDev.matches name) = ds.findIdx? (named name) := by
    rw [holds.slots]
    exact findIdx?_matches fun dev first => (known dev (holds.slots ▸ first)).1
  cases found : ds.findIdx? (named name) with
  | none =>
    rw [lookup, found]
    exact .none
  | some i =>
    obtain ⟨d, place, _⟩ := device_of_findIdx? found
    have small := holds.bounded d (List.mem_of_getElem? place)
    have short := holds.short d (List.mem_of_getElem? place)
    have here := slot_at holds place
    -- the count does not wrap around
    obtain ⟨dev, at_i, first, _⟩ := getElem?_of_findIdx? (lookup.trans found)
    have room : d.opens + 1 < 2 ^ 32 := by
      have limit := (known dev first).2
      rw [here] at at_i
      rw [← Option.some.inj at_i] at limit
      by_contra full
      have last : d.opens = 4294967295 := by omega
      exact limit (by simp [slotOf, Device.drvDev, last])
    rw [lookup, found]
    simp only [Option.bind_eq_bind, Option.bind_some, here, place, Option.join_some]
    -- a closed device: the code sets the count to 1 instead of adding to it
    by_cases first : d.opens = 0
    · simp only [slotOf, Device.drvDev, first, if_true]
      refine .some ⟨holds.set i ?_ ?_ ?_, rfl⟩
      · simp [slotOf, Device.drvDev]
      · rintro _ same
        rw [← Option.some.inj same]
        exact Nat.one_lt_two_pow (by decide)
      · rintro _ same
        rw [← Option.some.inj same]
        exact short
    · simp only [slotOf, Device.drvDev, if_neg first]
      refine .some ⟨holds.set i ?_ ?_ ?_, rfl⟩
      · simp [slotOf, Device.drvDev, UInt32.ofNat_add]
      · rintro _ same
        rw [← Option.some.inj same]
        exact room
      · rintro _ same
        rw [← Option.some.inj same]
        exact short

theorem close_refines {tbl : DrvDevTbl} (holds : Holds tbl ds) {handle : UInt32}
    (fine : Fine (some tbl) (.close handle)) : SameStep (ddevClose tbl handle) (ds.closeDev handle) := by
  rw [ddevClose, Devices.closeDev]
  cases known : ddevGetIdFromHandle handle with
  | none => exact .some ⟨holds, rfl⟩
  | some id =>
    -- the slot holds a device that is open
    obtain ⟨dev, here, opened⟩ : ∃ dev, tbl[id]? = some dev ∧ dev.state = .OPENED := by
      simpa [Fine, known, Option.any_eq_true] using fine
    obtain ⟨slot, place, same⟩ : ∃ slot, ds[id]? = some slot ∧ slotOf slot = dev := by
      rwa [holds.slots, List.getElem?_map, Option.map_eq_some_iff] at here
    subst same
    cases slot with
    | none => simp [slotOf, DrvDev.zero] at opened
    | some d =>
      have positive : d.opens ≠ 0 := by
        intro zero
        simp [slotOf, Device.drvDev, zero] at opened
      have small := holds.bounded d (List.mem_of_getElem? place)
      -- an open device has a positive count, so the subtraction does not wrap
      have less : (slotOf (some d)).useCnt - 1 = UInt32.ofNat (d.opens - 1) := by
        change UInt32.ofNat d.opens - 1 = _
        obtain ⟨k, succ⟩ := Nat.exists_eq_succ_of_ne_zero positive
        rw [succ, Nat.succ_sub_one, Nat.succ_eq_add_one, UInt32.ofNat_add]
        simp
      have kept : ∀ d', some { d with opens := d.opens - 1 } = some d' → d'.opens < 2 ^ 32 := by
        rintro _ same
        rw [← Option.some.inj same]
        exact Nat.lt_of_le_of_lt (Nat.sub_le _ _) small
      have short : ∀ k d', some { d with opens := k } = some d' → d'.name.length ≤ DD_MAX_NAME_LEN := by
        rintro k _ same
        rw [← Option.some.inj same]
        exact holds.short d (List.mem_of_getElem? place)
      simp only [Option.bind_eq_bind, Option.bind_some, here, place, Option.join_some, less]
      -- the last close
      by_cases last : d.opens = 1
      · simp only [last, Nat.sub_self, if_true]
        refine .some ⟨holds.set id ?_ (fun d' same => ?_) (short 0), rfl⟩
        · simp [slotOf, Device.drvDev]
        · rw [← Option.some.inj same]
          exact Nat.two_pow_pos 32
      · have left : UInt32.ofNat (d.opens - 1) ≠ 0 := by
          intro zero
          have count := congrArg UInt32.toNat zero
          rw [UInt32.toNat_ofNat', Nat.mod_eq_of_lt (by omega)] at count
          simp only [UInt32.toNat_zero] at count
          omega
        rw [if_neg left, if_neg last]
        refine .some ⟨holds.set id ?_ kept (short _), rfl⟩
        have more : d.opens - 1 ≠ 0 := by omega
        simp [slotOf, Device.drvDev, positive, more]

theorem register_refines {tbl : DrvDevTbl} (holds : Holds tbl ds) {name : CStr} (op : DdOperations)
    (fine : Fine (some tbl) (.register name op)) :
    SameStep (ddevRegisterDev tbl name op) (ds.registerDev name op) := by
  have lookup : tbl.findIdx? DrvDev.isFree = ds.findIdx? Option.isNone := by
    rw [holds.slots, List.findIdx?_map]
    congr 1
    funext slot
    exact isFree_slotOf slot
  rw [ddevRegisterDev, Devices.registerDev, lookup]
  cases found : ds.findIdx? Option.isNone with
  | none => exact .none
  | some i =>
    obtain ⟨slot, place, _, free⟩ := getElem?_of_findIdx? found
    have here := slot_at holds place
    -- a free slot is as at the start, its use count included
    rw [Option.isNone_iff_eq_none.mp free] at here
    simp only [Option.bind_eq_bind, Option.bind_some, here]
    refine .some ⟨holds.set i rfl (fun d same => ?_) (fun d same => ?_), rfl⟩
    · rw [← Option.some.inj same]
      exact Nat.two_pow_pos 32
    · rw [← Option.some.inj same]
      exact fine

theorem unregister_refines {tbl : DrvDevTbl} (holds : Holds tbl ds) {name : CStr}
    (fine : Fine (some tbl) (.unregister name)) :
    SameStep (ddevUnregisterDev tbl name) (ds.unregisterDev name) := by
  rw [ddevUnregisterDev, Devices.unregisterDev]
  split
  · exact .some ⟨holds, rfl⟩
  next short =>
    obtain ⟨dev, first, exact, closed⟩ :
        ∃ dev, firstMatch tbl name = some dev ∧ dev.name = some name ∧ dev.state = .CLOSED := by
      simpa [Fine, short, Option.any_eq_true] using fine
    have lookup : tbl.findIdx? (DrvDev.matches name) = ds.findIdx? (named name) := by
      rw [holds.slots]
      refine findIdx?_matches fun dev' first' => ?_
      rw [← holds.slots, first] at first'
      rw [← Option.some.inj first']
      exact exact
    rw [lookup]
    cases found : ds.findIdx? (named name) with
    | none => exact .none
    | some i =>
      obtain ⟨d, place, _⟩ := device_of_findIdx? found
      have here := slot_at holds place
      obtain ⟨dev', at_i, first', _⟩ := getElem?_of_findIdx? (lookup.trans found)
      rw [firstMatch, first'] at first
      rw [here, first] at at_i
      -- the device is closed, so its slot is as at the start
      have zero : d.opens = 0 := by
        rw [← Option.some.inj at_i] at closed
        by_contra positive
        simp [slotOf, Device.drvDev, positive] at closed
      simp only [Option.bind_eq_bind, Option.bind_some, here]
      refine .some ⟨holds.set i ?_ (fun _ same => by simp at same) (fun _ same => by simp at same), rfl⟩
      simp [slotOf, Device.drvDev, DrvDev.zero, zero]

theorem step_refines {tbl : DrvDevTbl} (holds : Holds tbl ds) {c : DdCall} (fine : Fine (some tbl) c) :
    SameStep (ddStep tbl c) (ds.step c) := by
  cases c with
  | «open» devName opened => exact open_refines holds fine
  | close handle => exact close_refines holds fine
  | register devName optr => exact register_refines holds optr fine
  | unregister devName => exact unregister_refines holds fine

/-! ### Every run -/

/-- What every reached table satisfies. -/
structure Coherent (tbl : DrvDevTbl) : Prop where
  opened : ∀ dev ∈ tbl, dev.state = .OPENED ↔ 0 < dev.useCnt
  free : ∀ dev ∈ tbl, dev.name = none → dev = .zero

theorem Holds.coherent {tbl : DrvDevTbl} (holds : Holds tbl ds) : Coherent tbl := by
  rw [holds.slots]
  constructor
  · intro dev member
    obtain ⟨slot, inside, rfl⟩ := List.mem_map.mp member
    cases slot with
    | none => decide
    | some d =>
      have small := toNat_opens (holds.bounded d inside)
      rw [UInt32.lt_iff_toNat_lt]
      change (if d.opens = 0 then DdState.CLOSED else .OPENED) = .OPENED ↔ 0 < (UInt32.ofNat d.opens).toNat
      rw [small]
      by_cases zero : d.opens = 0
      · rw [if_pos zero, zero]
        decide
      · rw [if_neg zero]
        exact iff_of_true rfl (Nat.pos_of_ne_zero zero)
  · intro dev member none
    obtain ⟨slot, _, rfl⟩ := List.mem_map.mp member
    cases slot with
    | none => rfl
    | some d => simp [slotOf, Device.drvDev] at none

abbrev codeRun (calls : List DdCall) := Machine.run (Machine.halting ddStep) (some drvModelInit) calls

abbrev deviceRun (calls : List DdCall) :=
  Machine.run (Machine.halting Devices.step) (some noDevices) calls

theorem holds_init : Holds drvModelInit noDevices where
  slots := by decide
  bounded d member := by simp [noDevices] at member
  short d member := by simp [noDevices] at member

/-- A registered name opens the device of exactly that name. -/
theorem open_exact {tbl : DrvDevTbl} (holds : Holds tbl ds) {name : CStr} {opened : UInt32}
    (fine : Fine (some tbl) (.open name opened)) {dev : DrvDev} (member : dev ∈ tbl)
    (registered : dev.name = some name) : ∃ i d tbl' r, tbl[i]? = some d ∧ d.name = some name ∧
      ddevOpen tbl name opened = some (tbl', r) ∧ r.ret = ddevMakeHandle i := by
  -- what the call does is read off the table of named devices
  have step := open_refines holds fine
  obtain ⟨d, inside, same⟩ : ∃ d, some d ∈ ds ∧ d.name = name := by
    rw [holds.slots] at member
    obtain ⟨slot, inside, rfl⟩ := List.mem_map.mp member
    cases slot with
    | none => simp [slotOf, DrvDev.zero] at registered
    | some d => exact ⟨d, inside, by simpa [slotOf, Device.drvDev] using registered⟩
  have short : ¬ name.length > DD_MAX_NAME_LEN := by
    rw [← same]
    exact Nat.not_lt.mpr (holds.short d inside)
  cases found : ds.findIdx? (named name) with
  | none =>
    rw [List.findIdx?_eq_none_iff] at found
    simpa [named, same] using found _ inside
  | some i =>
    obtain ⟨d', place, exact⟩ := device_of_findIdx? found
    rw [Devices.openDev, if_neg short, found] at step
    simp only [Option.bind_eq_bind, Option.bind_some, place, Option.join_some] at step
    generalize outcome : ddevOpen tbl name opened = p at step
    cases step with
    | @some x y related =>
      refine ⟨i, _, x.1, x.2, slot_at holds place, ?_, rfl, ?_⟩
      · simp [slotOf, Device.drvDev, exact]
      · rw [related.2]

/-- In a run whose calls are fine the table is the table of named devices, call by call and result by
result; so every device is open exactly when its count is positive, every free slot is as at the
start, and a registered name opens the device of exactly that name. -/
theorem device_table_coherent (calls : List DdCall)
    (fine : Along (fun s c => (Machine.halting ddStep s c).1) Fine (some drvModelInit) calls) :
    (∀ part, part <+: calls → Option.Rel Holds (codeRun part).1 (deviceRun part).1 ∧
      (codeRun part).2 = (deviceRun part).2) ∧
    (∀ part tbl, part <+: calls → (codeRun part).1 = some tbl → Coherent tbl) ∧
    (∀ part name opened tbl, part ++ [.open name opened] <+: calls → (codeRun part).1 = some tbl →
      ∀ dev ∈ tbl, dev.name = some name → ∃ i d tbl' r, tbl[i]? = some d ∧ d.name = some name ∧
        ddevOpen tbl name opened = some (tbl', r) ∧ r.ret = ddevMakeHandle i) := by
  have refines (part : List DdCall) (inside : part <+: calls) :
      Option.Rel Holds (codeRun part).1 (deviceRun part).1 ∧ (codeRun part).2 = (deviceRun part).2 := by
    obtain ⟨rest, rfl⟩ := inside
    exact Machine.run_halting_refines (g := Devices.step)
      (fun tbl ds c (holds : Holds tbl ds) fine => step_refines holds fine) (.some holds_init)
      ((along_append part rest).mp fine).1
  have reached (part : List DdCall) (tbl : DrvDevTbl) (inside : part <+: calls)
      (here : (codeRun part).1 = some tbl) : ∃ ds, Holds tbl ds := by
    have states := (refines part inside).1
    rw [here] at states
    generalize (deviceRun part).1 = q at states
    cases states with
    | some holds => exact ⟨_, holds⟩
  refine ⟨refines, ?_, ?_⟩
  · intro part tbl inside here
    obtain ⟨ds, holds⟩ := reached part tbl inside here
    exact holds.coherent
  · intro part name opened tbl inside here dev member registered
    obtain ⟨rest, rfl⟩ := inside
    obtain ⟨ds, holds⟩ := reached part tbl ⟨.open name opened :: rest, by simp⟩ here
    rw [List.append_assoc] at fine
    have step := ((along_append part _).mp fine).2.1
    rw [← Machine.run_fst, here] at step
    exact open_exact holds step member registered

/-- Two devices, the second opened twice and closed twice, and the slot of the first used again. -/
def plainCalls : List DdCall :=
  [.register "usb".toList ⟨1, true, true⟩, .register "usb_plug".toList ⟨2, true, false⟩,
    .open "usb_plug".toList 0, .open "usb_plug".toList 0, .close 0xA5A50001, .close 0xA5A50001,
    .unregister "usb".toList, .register "flash".toList ⟨3, false, false⟩, .open "flash".toList 0]

theorem device_table_coherent_plainCalls :
    Along (fun s c => (Machine.halting ddStep s c).1) Fine (some drvModelInit) plainCalls ∧
      (codeRun plainCalls).2 = (deviceRun plainCalls).2 := by
  have fine : Along (fun s c => (Machine.halting ddStep s c).1) Fine (some drvModelInit) plainCalls := by
    decide +kernel
  exact ⟨fine, ((device_table_coherent plainCalls fine).1 plainCalls (List.prefix_refl _)).2⟩

/-- With `usb_plug` in front of it, `usb` opens `usb_plug`. A device that is unregistered while open
leaves its use count to the next one in its slot. -/
theorem device_table_coherent_fails :
    (∃ tbl r, (codeRun [.register "usb_plug".toList ⟨2, true, false⟩,
        .register "usb".toList ⟨1, true, true⟩]).1 = some tbl ∧
      (ddevOpen tbl "usb".toList 0).map Prod.snd = some r ∧ r.ret = ddevMakeHandle 0 ∧
      (tbl[0]?.bind DrvDev.name) = some "usb_plug".toList) ∧
    ∃ tbl, (codeRun [.register "usb".toList ⟨1, true, true⟩, .open "usb".toList 0,
      .unregister "usb".toList, .register "flash".toList ⟨3, false, false⟩]).1 = some tbl ∧
        ¬ ∀ dev ∈ tbl, dev.state = .OPENED ↔ 0 < dev.useCnt := by
  refine ⟨⟨_, _, rfl, rfl, ?_, ?_⟩, _, rfl, ?_⟩
  · decide +kernel
  · decide +kernel
  · decide +kernel

end Bk7251.Driver
