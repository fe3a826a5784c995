import Mathlib.Logic.Function.Basic
import Bk7251.RfCal.Txpwr

/-!
# Fitting the power tables

`manual_cal_fitting_txpwr_tab`: the entries between the base channels become midpoints of entries around them,
one after the other. What has a measured gain is told from the flags, most of which a fit clears again.
-/
namespace Bk7251.RfCal

/-! ### Steps of a fit

The numbers of entries are those of the source, and always inside the table. -/

section

variable {k : Nat} (tab : Vector UInt8 k)

def peek (i : Nat) : UInt8 := tab[i]?.getD 0

def poke (i : Nat) (value : UInt8) : Vector UInt8 k := tab.setIfInBounds i value

def unused (i : Nat) : Bool := getTxpwrFlag (peek tab i) = TXPWR_ELEM_UNUSED

def setFlag (i : Nat) (flag : UInt8) : Vector UInt8 k := poke tab i (setTxpwrFlag (peek tab i) flag)

/-- The gain and the flag of a fitted entry. -/
def setFitted (dst : Nat) (gain : UInt16) : Vector UInt8 k :=
  poke tab dst (setTxpwrFlag (setTxpwrGain (peek tab dst) gain.toUInt32) TXPWR_ELEM_INUSED)

/-- `manual_cal_do_fitting_base`; the quotient is rounded down. -/
def manualCalDoFittingBase (dst srclow srchigh : Nat) : Vector UInt8 k :=
  if unused tab srclow ∨ unused tab srchigh then tab
  else
    let low := (getTxpwrGain (peek tab srclow)).toUInt16
    let high := (getTxpwrGain (peek tab srchigh)).toUInt16
    let gain :=
      if low > high then
        let dist := low - high
        dist / 2 + high
      else
        let dist := high - low
        dist / 2 + low
    setFitted tab dst gain

/-- `manual_cal_do_fitting`; a half is added before the quotient is cut. -/
def manualCalDoFitting (dst srclow srchigh : Nat) : Vector UInt8 k :=
  if unused tab srclow ∨ unused tab srchigh then tab
  else
    let low := (getTxpwrGain (peek tab srclow)).toUInt16
    let high := (getTxpwrGain (peek tab srchigh)).toUInt16
    setFitted tab dst ((low + high + 1) / 2)

/-- Calls of `manual_cal_do_fitting` in order, each with the numbers of the entry and of its two sources. -/
def doFittings (steps : List (Nat × Nat × Nat)) : Vector UInt8 k :=
  steps.foldl (fun tab step => manualCalDoFitting tab step.1 step.2.1 step.2.2) tab

/-- The loop that clears the flags of all entries but those of `kept`. -/
def clearFlags (kept : List Nat) : Vector UInt8 k :=
  (List.range k).foldl (fun tab i => if i ∈ kept then tab else setFlag tab i TXPWR_ELEM_UNUSED) tab

end

/-! ### The tables -/

/-- What is fitted in the tables of b and g: 4 from 1 and 7, 2 from 1 and 4, and so on. -/
def wlanSteps : List (Nat × Nat × Nat) :=
  [(3, 0, 6), (1, 0, 3), (2, 1, 3), (4, 3, 6), (5, 4, 6),
    (9, 6, 12), (7, 6, 9), (8, 7, 9), (10, 9, 12), (11, 10, 12), (13, 12, 12)]

/-- Fitting the table of b, or that of g: the table, and whether it has been fitted. -/
def fitWlan (tab : Vector UInt8 14) : Vector UInt8 14 × Bool :=
  if unused tab 0 ∨ unused tab 12 then (tab, false)
  else
    let tab := if unused tab 6 then manualCalDoFittingBase tab 6 0 12 else tab
    -- the flag of channel 7 is not among those that stay
    (clearFlags (doFittings tab wlanSteps) [0, 12], true)

def n40Steps : List (Nat × Nat × Nat) :=
  [(3, 2, 6), (1, 2, 2), (0, 2, 2), (4, 3, 6), (5, 4, 6),
    (9, 6, 10), (7, 6, 9), (8, 7, 9), (11, 10, 10), (12, 10, 10), (13, 10, 10)]

/-- `manual_cal_fit_txpwr_tab_n_40` -/
def manualCalFitTxpwrTabN40 (tabs : Tabs) (differ : UInt32) : Tabs :=
  { tabs with n40 := tabs.g.map (manualCalAdjustFitting · differ.toUInt16) }

/-- Fitting the table of n40, which is made from that of g where it has no measured gains. -/
def fitN40 (tabs : Tabs) : Tabs × Bool :=
  if unused tabs.n40 2 ∨ unused tabs.n40 10 then (manualCalFitTxpwrTabN40 tabs tabs.difGN40, false)
  else
    let tab := if unused tabs.n40 6 then manualCalDoFittingBase tabs.n40 6 2 10 else tabs.n40
    ({ tabs with n40 := clearFlags (doFittings tab n40Steps) [] }, true)

/-- The loop over the table of BLE: every entry becomes the last of the base entries up to it. Entry 19 is passed
over, with its flag. -/
def spread (bases : List Nat) (tab : Vector UInt8 40) : Vector UInt8 40 :=
  ((List.range BLE_2_4_G_CHANNEL_NUM).foldl (fun (p : Vector UInt8 40 × Nat) i =>
    let base := if i ∈ bases then i else p.2
    if i = 19 then (p.1, base)
    else (setFlag (poke p.1 i (peek p.1 base)) i TXPWR_ELEM_UNUSED, base)) (tab, 0)).1

def ble19Bases : List Nat := [0, 5, 10, 15, 19]

def ble19Steps : List (Nat × Nat × Nat) := [(10, 0, 19), (5, 0, 10), (15, 10, 19)]

def bleAllBases : List Nat := [0, 5, 10, 15, 19, 25, 30, 35, 39]

def bleAllSteps : List (Nat × Nat × Nat) :=
  [(10, 0, 19), (5, 0, 10), (15, 10, 19), (30, 19, 39), (25, 19, 30), (35, 30, 39)]

/-- From channel 19 alone. -/
def fitBle19 (tab : Vector UInt8 40) : Vector UInt8 40 :=
  let tab := poke tab 0 (setTxpwrGain (peek tab 0) ((getTxpwrGain (peek tab 19)).toUInt32 + 4))
  let tab := setFlag tab 0 TXPWR_ELEM_INUSED
  spread ble19Bases (doFittings tab ble19Steps)

/-- From all three base channels. -/
def fitBleAll (tab : Vector UInt8 40) : Vector UInt8 40 := spread bleAllBases (doFittings tab bleAllSteps)

/-- `flag`: which of the three base channels are in use. -/
def bleFlag (tab : Vector UInt8 40) : UInt32 :=
  (if unused tab 0 then 0 else 0x01) ||| (if unused tab 19 then 0 else 0x02) |||
    (if unused tab 39 then 0 else 0x04)

def fitBle (tab : Vector UInt8 40) : Vector UInt8 40 :=
  let flag := bleFlag tab
  if flag = 0 then tab
  else if flag ≠ 0x7 then
    if flag = 0x02 then fitBle19 tab
    else
      setFlag (setFlag (setFlag tab 0 TXPWR_ELEM_UNUSED) 19 TXPWR_ELEM_INUSED) 39 TXPWR_ELEM_UNUSED
  else fitBleAll tab

/-- `manual_cal_fitting_txpwr_tab` with its result. -/
def manualCalFittingTxpwrTab (tabs : Tabs) : Tabs × UInt32 :=
  let (b, fittedB) := fitWlan tabs.b
  let (g, fittedG) := fitWlan tabs.g
  let tabs := { tabs with b, g }
  let tabs := if fittedG then manualCalFitTxpwrTabN20 tabs tabs.difGN20 else tabs
  let (tabs, fittedN40) := fitN40 tabs
  ({ tabs with ble := fitBle tabs.ble }, if fittedB ∨ fittedG ∨ fittedN40 then 1 else 0)

/-! ### What one step does to the gains and the flags -/

section

variable {k : Nat} (tab : Vector UInt8 k)

def gain (i : Nat) : Nat := (getTxpwrGain (peek tab i)).toNat

theorem peek_poke (i j : Nat) (value : UInt8) :
    peek (poke tab i value) j = if i = j ∧ i < k then value else peek tab j := by
  rw [peek, poke, Vector.getElem?_setIfInBounds]
  by_cases same : i = j
  · subst same
    by_cases inside : i < k
    · rw [if_pos rfl, if_pos inside, if_pos ⟨rfl, inside⟩]
      rfl
    · rw [if_pos rfl, if_neg inside, if_neg fun both => inside both.2, peek,
        Vector.getElem?_eq_none (Nat.not_lt.mp inside)]
  · rw [if_neg same, if_neg fun both => same both.1]
    rfl

/-- Inside of the table, a poke is an update; gains and flags follow it. -/
theorem peek_poke_of_lt {i : Nat} (inside : i < k) (value : UInt8) :
    peek (poke tab i value) = Function.update (peek tab) i value := by
  funext j
  rw [peek_poke, Function.update_apply]
  by_cases same : i = j
  · rw [if_pos ⟨same, inside⟩, if_pos same.symm]
  · rw [if_neg fun both => same both.1, if_neg (Ne.symm same)]

theorem gain_poke {i : Nat} (inside : i < k) (value : UInt8) :
    gain (poke tab i value) = Function.update (gain tab) i (getTxpwrGain value).toNat := by
  have moved := Function.comp_update (fun p => (getTxpwrGain p).toNat) (peek tab) i value
  rw [← peek_poke_of_lt tab inside] at moved
  exact moved

theorem unused_poke {i : Nat} (inside : i < k) (value : UInt8) :
    unused (poke tab i value) =
      Function.update (unused tab) i (decide (getTxpwrFlag value = TXPWR_ELEM_UNUSED)) := by
  have moved := Function.comp_update (fun p => decide (getTxpwrFlag p = TXPWR_ELEM_UNUSED)) (peek tab) i value
  rw [← peek_poke_of_lt tab inside] at moved
  exact moved

@[simp] theorem gain_setFlag (i : Nat) (flag : UInt8) : gain (setFlag tab i flag) = gain tab := by
  funext j
  rw [gain, setFlag, peek_poke]
  split
  next both => rw [gain_setTxpwrFlag, both.1, gain]
  next => rfl

theorem unused_setFlag {i : Nat} (inside : i < k) (flag : UInt8) :
    unused (setFlag tab i flag) =
      Function.update (unused tab) i (decide (flag &&& FLAG_MASK = TXPWR_ELEM_UNUSED)) := by
  rw [setFlag, unused_poke tab inside, flag_setTxpwrFlag]

theorem gain_lt_32 (i : Nat) : gain tab i < 32 := gain_lt (peek tab i)

/-- A gain is stored in five bits. -/
theorem toNat_setTxpwrGain (p : UInt8) (value : UInt32) :
    (getTxpwrGain (setTxpwrGain p value)).toNat = value.toNat % 32 := by
  rw [gain_setTxpwrGain]
  refine (toNat_gain value.toUInt8).trans ?_
  rw [UInt32.toNat_toUInt8]
  omega

theorem gain_setFitted {dst : Nat} (inside : dst < k) {value : UInt16} (small : value.toNat < 32) :
    gain (setFitted tab dst value) = Function.update (gain tab) dst value.toNat := by
  rw [setFitted, gain_poke tab inside, gain_setTxpwrFlag, toNat_setTxpwrGain, UInt16.toNat_toUInt32,
    Nat.mod_eq_of_lt small]

theorem unused_setFitted {dst : Nat} (inside : dst < k) (value : UInt16) :
    unused (setFitted tab dst value) = Function.update (unused tab) dst false := by
  rw [setFitted, unused_poke tab inside, flag_setTxpwrFlag]
  rfl

variable {tab} {dst srclow srchigh : Nat}

theorem toNat_wide (i : Nat) : (getTxpwrGain (peek tab i)).toUInt16.toNat = gain tab i :=
  UInt8.toNat_toUInt16 _

/-- A fitted gain is the midpoint, rounded up. -/
theorem doFitting_spec (inside : dst < k) (low : unused tab srclow = false)
    (high : unused tab srchigh = false) :
    gain (manualCalDoFitting tab dst srclow srchigh) =
        Function.update (gain tab) dst ((gain tab srclow + gain tab srchigh + 1) / 2) ∧
      unused (manualCalDoFitting tab dst srclow srchigh) = Function.update (unused tab) dst false := by
  have lowBound := gain_lt_32 tab srclow
  have highBound := gain_lt_32 tab srchigh
  have value : (((getTxpwrGain (peek tab srclow)).toUInt16 + (getTxpwrGain (peek tab srchigh)).toUInt16 + 1) /
      2).toNat = (gain tab srclow + gain tab srchigh + 1) / 2 := by
    have two : (2 : UInt16).toNat = 2 := rfl
    rw [UInt16.toNat_div, UInt16.toNat_add, UInt16.toNat_add, toNat_wide, toNat_wide, UInt16.toNat_one, two]
    omega
  have ready : ¬ (unused tab srclow ∨ unused tab srchigh) := by simp [low, high]
  rw [manualCalDoFitting, if_neg ready]
  constructor
  · rw [gain_setFitted tab inside (by rw [value]; omega), value]
  · rw [unused_setFitted tab inside]

/-- The gain of channel 7 is the midpoint of the outer two, rounded down. -/
theorem doFittingBase_spec (inside : dst < k) (low : unused tab srclow = false)
    (high : unused tab srchigh = false) :
    gain (manualCalDoFittingBase tab dst srclow srchigh) =
        Function.update (gain tab) dst ((gain tab srclow + gain tab srchigh) / 2) ∧
      unused (manualCalDoFittingBase tab dst srclow srchigh) = Function.update (unused tab) dst false := by
  have lowBound := gain_lt_32 tab srclow
  have highBound := gain_lt_32 tab srchigh
  have ready : ¬ (unused tab srclow ∨ unused tab srchigh) := by simp [low, high]
  rw [manualCalDoFittingBase, if_neg ready]
  set a := (getTxpwrGain (peek tab srclow)).toUInt16 with ha
  set b := (getTxpwrGain (peek tab srchigh)).toUInt16 with hb
  have na : a.toNat = gain tab srclow := toNat_wide srclow
  have nb : b.toNat = gain tab srchigh := toNat_wide srchigh
  have two : (2 : UInt16).toNat = 2 := rfl
  have value : (if a > b then (a - b) / 2 + b else (b - a) / 2 + a).toNat =
      (gain tab srclow + gain tab srchigh) / 2 := by
    split
    next less =>
      have lt : b.toNat < a.toNat := UInt16.lt_iff_toNat_lt.mp less
      rw [UInt16.toNat_add, UInt16.toNat_div, UInt16.toNat_sub_of_le _ _ (UInt16.le_of_lt less), na, nb, two]
      omega
    next not =>
      have le : a ≤ b := UInt16.not_lt.mp not
      have le' : a.toNat ≤ b.toNat := UInt16.le_iff_toNat_le.mp le
      rw [UInt16.toNat_add, UInt16.toNat_div, UInt16.toNat_sub_of_le _ _ le, na, nb, two]
      omega
  constructor
  · rw [gain_setFitted tab inside (by rw [value]; omega), value]
  · rw [unused_setFitted tab inside]

/-! ### Steps in a row -/

/-- The gains behind the steps, where every source is in use when its turn comes. -/
def fitGains (g : Nat → Nat) (steps : List (Nat × Nat × Nat)) : Nat → Nat :=
  steps.foldl (fun g step => Function.update g step.1 ((g step.2.1 + g step.2.2 + 1) / 2)) g

/-- Each step takes entries that are known, and makes one more known. -/
def ready (k : Nat) : (known : List Nat) → List (Nat × Nat × Nat) → Bool
  | _, [] => true
  | known, (dst, low, high) :: steps =>
    decide (dst < k) && known.contains low && known.contains high && ready k (dst :: known) steps

theorem doFittings_spec {known : List Nat} (steps : List (Nat × Nat × Nat)) (fits : ready k known steps = true)
    (used : ∀ i ∈ known, unused tab i = false) :
    gain (doFittings tab steps) = fitGains (gain tab) steps ∧
      ∀ i, i ∉ steps.map Prod.fst → unused (doFittings tab steps) i = unused tab i := by
  induction steps generalizing tab known with
  | nil => exact ⟨rfl, fun _ _ => rfl⟩
  | cons step steps ih =>
    obtain ⟨dst, low, high⟩ := step
    simp only [ready, Bool.and_eq_true, decide_eq_true_eq, List.contains_iff_mem] at fits
    obtain ⟨⟨⟨inside, lowKnown⟩, highKnown⟩, later⟩ := fits
    obtain ⟨gains, flags⟩ := doFitting_spec inside (used low lowKnown) (used high highKnown)
    have used' : ∀ i ∈ dst :: known, unused (manualCalDoFitting tab dst low high) i = false := by
      intro i member
      rw [flags, Function.update_apply]
      split
      · rfl
      next other => exact used i ((List.mem_cons.mp member).resolve_left other)
    obtain ⟨rest, kept⟩ := ih later used'
    constructor
    · rw [doFittings, List.foldl_cons]
      refine rest.trans ?_
      rw [gains]
      rfl
    · intro i absent
      rw [List.map_cons, List.mem_cons, not_or] at absent
      refine (kept i absent.2).trans ?_
      rw [flags, Function.update_of_ne absent.1]

theorem fitGains_of_not_mem (steps : List (Nat × Nat × Nat)) {g : Nat → Nat} {i : Nat}
    (absent : i ∉ steps.map Prod.fst) : fitGains g steps i = g i := by
  induction steps generalizing g with
  | nil => rfl
  | cons step steps ih =>
    rw [List.map_cons, List.mem_cons, not_or] at absent
    exact (ih absent.2).trans (Function.update_of_ne absent.1 _ _)

/-- The gain of every step is the midpoint of its sources. -/
def Solved (g : Nat → Nat) (steps : List (Nat × Nat × Nat)) : Prop :=
  ∀ step ∈ steps, g step.1 = (g step.2.1 + g step.2.2 + 1) / 2

theorem Solved.fitGains_eq {g : Nat → Nat} {steps : List (Nat × Nat × Nat)} (solved : Solved g steps) :
    fitGains g steps = g := by
  induction steps with
  | nil => rfl
  | cons step steps ih =>
    have same := solved step List.mem_cons_self
    rw [fitGains, List.foldl_cons, ← same, Function.update_eq_self]
    exact ih fun later member => solved later (List.mem_cons_of_mem step member)

/-- No step writes an entry that it or an earlier one has read or written. -/
def ordered : List (Nat × Nat × Nat) → Bool
  | [] => true
  | (dst, low, high) :: steps =>
    dst != low && dst != high && !(steps.map Prod.fst).contains dst && !(steps.map Prod.fst).contains low &&
      !(steps.map Prod.fst).contains high && ordered steps

theorem solved_fitGains (steps : List (Nat × Nat × Nat)) (g : Nat → Nat) (fits : ordered steps = true) :
    Solved (fitGains g steps) steps := by
  induction steps generalizing g with
  | nil => exact nofun
  | cons step steps ih =>
    obtain ⟨dst, low, high⟩ := step
    simp only [ordered, Bool.and_eq_true, bne_iff_ne, Bool.not_eq_true', ← Bool.not_eq_true,
      List.contains_iff_mem] at fits
    obtain ⟨⟨⟨⟨⟨ne_low, ne_high⟩, dstLater⟩, lowLater⟩, highLater⟩, later⟩ := fits
    intro step member
    rcases List.mem_cons.mp member with rfl | member
    · simp only [fitGains, List.foldl_cons]
      have dst_eq := fitGains_of_not_mem (g := Function.update g dst ((g low + g high + 1) / 2)) steps dstLater
      have low_eq := fitGains_of_not_mem (g := Function.update g dst ((g low + g high + 1) / 2)) steps lowLater
      have high_eq :=
        fitGains_of_not_mem (g := Function.update g dst ((g low + g high + 1) / 2)) steps highLater
      rw [Function.update_self] at dst_eq
      rw [Function.update_of_ne ne_low.symm] at low_eq
      rw [Function.update_of_ne ne_high.symm] at high_eq
      rw [fitGains] at dst_eq low_eq high_eq
      rw [dst_eq, low_eq, high_eq]
    · exact ih _ later step member

/-! ### Clearing the flags -/

theorem clear_spec (kept steps : List Nat) (inside : ∀ i ∈ steps, i < k) :
    let cleared := steps.foldl (fun tab i => if i ∈ kept then tab else setFlag tab i TXPWR_ELEM_UNUSED) tab
    gain cleared = gain tab ∧ ∀ i, unused cleared i = if i ∈ steps ∧ i ∉ kept then true else unused tab i := by
  induction steps generalizing tab with
  | nil => exact ⟨rfl, fun i => by simp⟩
  | cons j steps ih =>
    have here := inside j List.mem_cons_self
    have rest := fun tab => @ih tab fun i member => inside i (List.mem_cons_of_mem j member)
    simp only [List.foldl_cons]
    by_cases stays : j ∈ kept
    · rw [if_pos stays]
      refine ⟨(rest tab).1, fun i => ?_⟩
      rw [(rest tab).2]
      by_cases same : i = j
      · subst same
        simp [stays]
      · simp [same]
    · rw [if_neg stays]
      refine ⟨(rest _).1.trans (gain_setFlag tab j _), fun i => ?_⟩
      rw [(rest _).2, unused_setFlag tab here, Function.update_apply]
      by_cases same : i = j
      · subst same
        have marked : decide (TXPWR_ELEM_UNUSED &&& FLAG_MASK = TXPWR_ELEM_UNUSED) = true := by decide
        simp [stays, marked]
      · simp [same]

theorem clearFlags_spec (kept : List Nat) :
    gain (clearFlags tab kept) = gain tab ∧
      ∀ i < k, unused (clearFlags tab kept) i = if i ∈ kept then unused tab i else true := by
  obtain ⟨gains, flags⟩ := @clear_spec _ tab kept (List.range k) fun i member => List.mem_range.mp member
  refine ⟨gains, fun i inside => (flags i).trans ?_⟩
  by_cases stays : i ∈ kept <;> simp [stays, inside]

end

/-! ### The tables of b and g -/

section

variable (tab : Vector UInt8 14)

/-- The gains that the steps begin with. -/
def wlanBase : Nat → Nat :=
  if unused tab 6 then Function.update (gain tab) 6 ((gain tab 0 + gain tab 12) / 2) else gain tab

variable {tab}

theorem fitWlan_spec (first : unused tab 0 = false) (last : unused tab 12 = false) :
    (fitWlan tab).2 = true ∧ gain (fitWlan tab).1 = fitGains (wlanBase tab) wlanSteps ∧
      unused (fitWlan tab).1 0 = false ∧ unused (fitWlan tab).1 6 = true ∧
      unused (fitWlan tab).1 12 = false := by
  have inUse : ¬ (unused tab 0 ∨ unused tab 12) := by simp [first, last]
  obtain ⟨gains, flags⟩ := @doFittingBase_spec _ tab 6 0 12 (by decide) first last
  -- channel 7 is in use when the steps begin
  obtain ⟨tab', begun, bases, used⟩ : ∃ tab',
      (if unused tab 6 then manualCalDoFittingBase tab 6 0 12 else tab) = tab' ∧ gain tab' = wlanBase tab ∧
        ∀ i ∈ [0, 6, 12], unused tab' i = false := by
    refine ⟨_, rfl, ?_⟩
    rw [wlanBase]
    by_cases seventh : unused tab 6 = true
    · rw [if_pos seventh, if_pos seventh, flags]
      refine ⟨gains, fun i member => ?_⟩
      simp only [List.mem_cons, List.not_mem_nil, or_false] at member
      rcases member with rfl | rfl | rfl
      · exact first
      · rfl
      · exact last
    · rw [if_neg seventh, if_neg seventh]
      refine ⟨rfl, fun i member => ?_⟩
      simp only [List.mem_cons, List.not_mem_nil, or_false] at member
      rcases member with rfl | rfl | rfl
      · exact first
      · exact Bool.eq_false_iff.mpr seventh
      · exact last
  obtain ⟨fitted, kept⟩ := @doFittings_spec _ tab' [0, 6, 12] wlanSteps (by decide) used
  obtain ⟨cleared, flags'⟩ := @clearFlags_spec _ (doFittings tab' wlanSteps) [0, 12]
  have result : fitWlan tab = (clearFlags (doFittings tab' wlanSteps) [0, 12], true) := by
    rw [fitWlan, if_neg inUse, begun]
  rw [result]
  refine ⟨rfl, ?_, ?_, ?_, ?_⟩
  · rw [cleared, fitted, bases]
  · rw [flags' 0 (by decide), if_pos (by decide), kept 0 (by decide)]
    exact used 0 (by decide)
  · rw [flags' 6 (by decide), if_neg (by decide)]
  · rw [flags' 12 (by decide), if_pos (by decide), kept 12 (by decide)]
    exact used 12 (by decide)

theorem fitWlan_of_unused (either : unused tab 0 = true ∨ unused tab 12 = true) : fitWlan tab = (tab, false) :=
  if_pos either

/-- `lo` and `hi` in either order. -/
def Between (g lo hi : Nat) : Prop := min lo hi ≤ g ∧ g ≤ max lo hi

/-- The gains around which the others lie. -/
structure Interpolated (g : Nat → Nat) : Prop where
  lower : ∀ i ∈ [1, 2, 3, 4, 5], Between (g i) (g 0) (g 6)
  upper : ∀ i ∈ [7, 8, 9, 10, 11], Between (g i) (g 6) (g 12)
  last : g 13 = g 12

theorem between_left (lo hi : Nat) : Between lo lo hi := ⟨Nat.min_le_left _ _, Nat.le_max_left _ _⟩

theorem between_right (lo hi : Nat) : Between hi lo hi := ⟨Nat.min_le_right _ _, Nat.le_max_right _ _⟩

theorem Between.mid {g a b lo hi : Nat} (low : Between a lo hi) (high : Between b lo hi) (solved : g = (a + b + 1) / 2) :
    Between g lo hi := by
  obtain ⟨low, low'⟩ := low
  obtain ⟨high, high'⟩ := high
  constructor
  · omega
  · omega

theorem interpolated_of_solved {g : Nat → Nat} (solved : Solved g wlanSteps) : Interpolated g := by
  simp only [Solved, wlanSteps, List.forall_mem_cons, List.not_mem_nil, false_implies, implies_true,
    and_true] at solved
  obtain ⟨e3, e1, e2, e4, e5, e9, e7, e8, e10, e11, e13⟩ := solved
  constructor
  · -- the middle one first, from which the others are found
    have third := (between_left (g 0) (g 6)).mid (between_right (g 0) (g 6)) e3
    have first := (between_left (g 0) (g 6)).mid third e1
    have fourth := third.mid (between_right (g 0) (g 6)) e4
    simp only [List.forall_mem_cons, List.not_mem_nil, false_implies, implies_true, and_true]
    exact ⟨first, first.mid third e2, third, fourth, fourth.mid (between_right (g 0) (g 6)) e5⟩
  · have ninth := (between_left (g 6) (g 12)).mid (between_right (g 6) (g 12)) e9
    have seventh := (between_left (g 6) (g 12)).mid ninth e7
    have tenth := ninth.mid (between_right (g 6) (g 12)) e10
    simp only [List.forall_mem_cons, List.not_mem_nil, false_implies, implies_true, and_true]
    exact ⟨seventh, seventh.mid ninth e8, ninth, tenth, tenth.mid (between_right (g 6) (g 12)) e11⟩
  · rw [e13]
    omega

/-- A base channel keeps the gain that the steps begin with. -/
theorem fitWlan_base (first : unused tab 0 = false) (last : unused tab 12 = false) {i : Nat}
    (base : i ∈ [0, 6, 12]) :
    gain (fitWlan tab).1 i = wlanBase tab i := by
  have absent : i ∉ wlanSteps.map Prod.fst := by
    revert i
    decide
  rw [(fitWlan_spec first last).2.1, fitGains_of_not_mem _ absent]

theorem wlanBase_of_used {i : Nat} (used : unused tab i = false) : wlanBase tab i = gain tab i := by
  rw [wlanBase]
  split
  next seventh =>
    apply Function.update_of_ne
    rintro rfl
    rw [seventh] at used
    cases used
  next => rfl

/-- The measured gains of the base channels stay. -/
theorem fitWlan_keeps {i : Nat} (base : i ∈ [0, 6, 12]) (used : unused tab i = false) :
    gain (fitWlan tab).1 i = gain tab i := by
  by_cases either : unused tab 0 = true ∨ unused tab 12 = true
  · rw [fitWlan_of_unused either]
  · rw [not_or, Bool.not_eq_true, Bool.not_eq_true] at either
    rw [fitWlan_base either.1 either.2 base, wlanBase_of_used used]

/-- Where the table is fitted, all gains lie between those around them. -/
theorem fitWlan_interpolated (fitted : (fitWlan tab).2 = true) :
    Interpolated (gain (fitWlan tab).1) ∧
      (unused tab 6 = true →
        Between (gain (fitWlan tab).1 6) (gain (fitWlan tab).1 0) (gain (fitWlan tab).1 12)) := by
  by_cases either : unused tab 0 = true ∨ unused tab 12 = true
  · rw [fitWlan_of_unused either] at fitted
    cases fitted
  · rw [not_or, Bool.not_eq_true, Bool.not_eq_true] at either
    obtain ⟨first, last⟩ := either
    constructor
    · rw [(fitWlan_spec first last).2.1]
      exact interpolated_of_solved (solved_fitGains wlanSteps _ (by decide))
    · intro seventh
      have low := fitWlan_base first last (i := 0) (by decide)
      have mid := fitWlan_base first last (i := 6) (by decide)
      have high := fitWlan_base first last (i := 12) (by decide)
      rw [wlanBase_of_used first] at low
      rw [wlanBase_of_used last] at high
      rw [wlanBase, if_pos seventh, Function.update_self] at mid
      rw [low, mid, high, Between]
      omega

/-- Channel 7 has no measured gain, or the one that it is fitted to, or the table is not fitted. -/
def WlanSettled (tab : Vector UInt8 14) : Prop :=
  unused tab 0 = true ∨ unused tab 12 = true ∨ unused tab 6 = true ∨
    gain tab 6 = (gain tab 0 + gain tab 12) / 2

instance : Decidable (WlanSettled tab) := inferInstanceAs (Decidable (_ ∨ _ ∨ _ ∨ _))

theorem fitWlan_twice :
    (∀ i < 14, gain (fitWlan (fitWlan tab).1).1 i = gain (fitWlan tab).1 i) ↔ WlanSettled tab := by
  by_cases either : unused tab 0 = true ∨ unused tab 12 = true
  · rw [fitWlan_of_unused either, fitWlan_of_unused either]
    apply iff_of_true
    · exact fun _ _ => rfl
    · rcases either with first | last
      · exact .inl first
      · exact .inr (.inl last)
  · rw [not_or, Bool.not_eq_true, Bool.not_eq_true] at either
    obtain ⟨first, last⟩ := either
    obtain ⟨-, gains, first', seventh', last'⟩ := fitWlan_spec first last
    obtain ⟨-, again, -⟩ := fitWlan_spec first' last'
    have low := fitWlan_base first last (i := 0) (by decide)
    have mid := fitWlan_base first last (i := 6) (by decide)
    have high := fitWlan_base first last (i := 12) (by decide)
    have mid' := fitWlan_base first' last' (i := 6) (by decide)
    rw [wlanBase_of_used first] at low
    rw [wlanBase_of_used last] at high
    have base' : wlanBase (fitWlan tab).1 =
        Function.update (gain (fitWlan tab).1) 6 ((gain tab 0 + gain tab 12) / 2) := by
      rw [wlanBase, if_pos seventh', low, high]
    rw [base', Function.update_self] at mid'
    constructor
    · intro same
      -- the second fit has lost the flag, and fits channel 7 itself
      have fitted := same 6 (by decide)
      rw [mid', mid] at fitted
      by_cases seventh : unused tab 6 = true
      · exact .inr (.inr (.inl seventh))
      · rw [wlanBase, if_neg seventh] at fitted
        exact .inr (.inr (.inr fitted.symm))
    · intro settled i inside
      have value : gain (fitWlan tab).1 6 = (gain tab 0 + gain tab 12) / 2 := by
        rw [mid, wlanBase]
        rcases settled with first | last | seventh | fitted
        · simp_all
        · simp_all
        · rw [if_pos seventh, Function.update_self]
        · split
          · rw [Function.update_self]
          · exact fitted
      have solved : Solved (gain (fitWlan tab).1) wlanSteps := by
        rw [gains]
        exact solved_fitGains wlanSteps _ (by decide)
      rw [again, base', ← value, Function.update_eq_self, solved.fitGains_eq]

end

/-! ### The table of BLE -/

/-- The last of the base entries in front of `i`. -/
def lastBase (bases : List Nat) : Nat → Nat
  | 0 => 0
  | i + 1 => if i ∈ bases then i else lastBase bases i

section

variable {bases : List Nat}

theorem lastBase_mem (zero : 0 ∈ bases) (i : Nat) : lastBase bases i ∈ bases := by
  induction i with
  | zero => exact zero
  | succ i ih =>
    rw [lastBase]
    split
    next base => exact base
    next => exact ih

theorem lastBase_self {i : Nat} (base : i ∈ bases) : lastBase bases (i + 1) = i := if_pos base

variable {tab : Vector UInt8 40}

/-- The loop after `n` entries. -/
theorem spread_loop (zero : 0 ∈ bases) (middle : 19 ∈ bases) {n : Nat} (inside : n ≤ 40) :
    let p := (List.range n).foldl (fun (p : Vector UInt8 40 × Nat) i =>
      let base := if i ∈ bases then i else p.2
      if i = 19 then (p.1, base)
      else (setFlag (poke p.1 i (peek p.1 base)) i TXPWR_ELEM_UNUSED, base)) (tab, 0)
    p.2 = lastBase bases n ∧
      (∀ j, gain p.1 j = if j < n then gain tab (lastBase bases (j + 1)) else gain tab j) ∧
      ∀ j, unused p.1 j = if j < n ∧ j ≠ 19 then true else unused tab j := by
  induction n with
  | zero => exact ⟨rfl, fun j => by simp, fun j => by simp⟩
  | succ n ih =>
    obtain ⟨base, gains, flags⟩ := ih (Nat.le_of_succ_le inside)
    simp only [List.range_succ, List.foldl_append, List.foldl_cons, List.foldl_nil]
    generalize (List.range n).foldl _ (tab, 0) = p at base gains flags ⊢
    have next : (if n ∈ bases then n else p.2) = lastBase bases (n + 1) := by rw [base, lastBase]
    rw [next]
    by_cases passed : n = 19
    · rw [if_pos passed]
      refine ⟨rfl, fun j => ?_, fun j => ?_⟩
      · rw [gains]
        rcases Nat.lt_trichotomy j n with less | rfl | more
        · rw [if_pos less, if_pos (Nat.lt_succ_of_lt less)]
        · have here : lastBase bases (j + 1) = j := lastBase_self (passed ▸ middle)
          rw [if_neg (Nat.lt_irrefl j), if_pos (Nat.lt_succ_self j), here]
        · rw [if_neg (by omega), if_neg (by omega)]
      · rw [flags]
        by_cases same : j = 19
        · simp [same]
        · have alike : j < n ∧ j ≠ 19 ↔ j < n + 1 ∧ j ≠ 19 := by omega
          rw [if_congr alike rfl rfl]
    · rw [if_neg passed]
      -- what is copied has not been changed, but for its flag
      have source : gain p.1 (lastBase bases (n + 1)) = gain tab (lastBase bases (n + 1)) := by
        rw [gains]
        split
        · rw [lastBase_self (lastBase_mem zero _)]
        · rfl
      refine ⟨rfl, fun j => ?_, fun j => ?_⟩
      · rw [gain_setFlag, gain_poke _ inside, Function.update_apply]
        by_cases same : j = n
        · rw [if_pos same, if_pos (by omega), same]
          exact source
        · have alike : j < n ↔ j < n + 1 := by omega
          rw [if_neg same, ← if_congr alike rfl rfl]
          exact gains j
      · rw [unused_setFlag _ inside, unused_poke _ inside, Function.update_idem, Function.update_apply]
        by_cases same : j = n
        · rw [if_pos same, if_pos ⟨by omega, by omega⟩]
          rfl
        · have alike : j < n ∧ j ≠ 19 ↔ j < n + 1 ∧ j ≠ 19 := by omega
          rw [if_neg same, ← if_congr alike rfl rfl]
          exact flags j

theorem spread_spec (zero : 0 ∈ bases) (middle : 19 ∈ bases) :
    (∀ j < 40, gain (spread bases tab) j = gain tab (lastBase bases (j + 1))) ∧
      ∀ j < 40, unused (spread bases tab) j = if j = 19 then unused tab 19 else true := by
  obtain ⟨-, gains, flags⟩ := @spread_loop bases tab zero middle 40 (Nat.le_refl 40)
  refine ⟨fun j inside => (gains j).trans (if_pos inside), fun j inside => (flags j).trans ?_⟩
  by_cases same : j = 19
  · simp [same]
  · simp [same, inside]

/-- The fitted gains are decided by those that are known at the beginning. -/
theorem fitGains_congr {k : Nat} {known : List Nat} (steps : List (Nat × Nat × Nat))
    (fits : ready k known steps = true) {g g' : Nat → Nat} (same : ∀ i ∈ known, g i = g' i) {i : Nat}
    (member : i ∈ known ∨ i ∈ steps.map Prod.fst) : fitGains g steps i = fitGains g' steps i := by
  induction steps generalizing known g g' with
  | nil => exact same i (member.resolve_right nofun)
  | cons step steps ih =>
    obtain ⟨dst, low, high⟩ := step
    simp only [ready, Bool.and_eq_true, decide_eq_true_eq, List.contains_iff_mem] at fits
    obtain ⟨⟨⟨-, lowKnown⟩, highKnown⟩, later⟩ := fits
    refine ih later (fun j known => ?_) ?_
    · simp only [Function.update_apply, same low lowKnown, same high highKnown]
      split
      · rfl
      next other => exact same j ((List.mem_cons.mp known).resolve_left other)
    · rw [List.map_cons, List.mem_cons] at member
      rw [List.mem_cons]
      rcases member with known | rfl | later
      · exact .inl (.inr known)
      · exact .inl (.inl rfl)
      · exact .inr later

/-- The gains of BLE that go with a gain of channel 19: channel 0 has 4 more in its five bits, 10, 5 and 15 are
midpoints between the two, and the others are as the one of these in front of them. -/
def from19 (gain19 : Nat) (j : Nat) : Nat :=
  fitGains (fun i => if i = 0 then (gain19 + 4) % 32 else gain19) ble19Steps (lastBase ble19Bases (j + 1))

theorem fitBle19_spec (middle : unused tab 19 = false) :
    (∀ j < 40, gain (fitBle19 tab) j = from19 (gain tab 19) j) ∧
      unused (fitBle19 tab) 0 = true ∧ unused (fitBle19 tab) 19 = false ∧ unused (fitBle19 tab) 39 = true := by
  obtain ⟨tab', begun, gains, flags⟩ : ∃ tab', setFlag (poke tab 0
      (setTxpwrGain (peek tab 0) ((getTxpwrGain (peek tab 19)).toUInt32 + 4))) 0 TXPWR_ELEM_INUSED = tab' ∧
      gain tab' = Function.update (gain tab) 0 ((gain tab 19 + 4) % 32) ∧
      unused tab' = Function.update (unused tab) 0 false := by
    refine ⟨_, rfl, ?_, ?_⟩
    · have value : ((getTxpwrGain (peek tab 19)).toUInt32 + 4).toNat = gain tab 19 + 4 := by
        have small := gain_lt_32 tab 19
        have four : (4 : UInt32).toNat = 4 := rfl
        rw [UInt32.toNat_add, UInt8.toNat_toUInt32, ← gain, four]
        omega
      rw [gain_setFlag, gain_poke tab (by decide), toNat_setTxpwrGain, value]
    · rw [unused_setFlag _ (by decide), unused_poke tab (by decide), Function.update_idem]
      rfl
  have used : ∀ i ∈ [0, 19], unused tab' i = false := by
    intro i member
    rw [flags, Function.update_apply]
    simp only [List.mem_cons, List.not_mem_nil, or_false] at member
    rcases member with rfl | rfl
    · rfl
    · exact middle
  obtain ⟨fitted, kept⟩ := @doFittings_spec _ tab' [0, 19] ble19Steps (by decide) used
  obtain ⟨spreaded, flags'⟩ := @spread_spec ble19Bases (doFittings tab' ble19Steps) (by decide) (by decide)
  have result : fitBle19 tab = spread ble19Bases (doFittings tab' ble19Steps) := by rw [fitBle19, begun]
  rw [result]
  refine ⟨fun j inside => ?_, ?_, ?_, ?_⟩
  · rw [spreaded j inside, fitted, gains, from19]
    apply @fitGains_congr 40 [0, 19] ble19Steps (by decide)
    · intro i member
      simp only [List.mem_cons, List.not_mem_nil, or_false] at member
      rcases member with rfl | rfl
      · rfl
      · rfl
    · have known : ∀ b ∈ ble19Bases, b ∈ [0, 19] ∨ b ∈ ble19Steps.map Prod.fst := by decide
      exact known _ (lastBase_mem (by decide) _)
  · rw [flags' 0 (by decide), if_neg (by decide)]
  · rw [flags' 19 (by decide), if_pos rfl, kept 19 (by decide)]
    exact used 19 (by decide)
  · rw [flags' 39 (by decide), if_neg (by decide)]

theorem fitBleAll_spec (used : ∀ i ∈ [0, 19, 39], unused tab i = false) :
    (∀ j < 40, gain (fitBleAll tab) j = fitGains (gain tab) bleAllSteps (lastBase bleAllBases (j + 1))) ∧
      unused (fitBleAll tab) 0 = true ∧ unused (fitBleAll tab) 19 = false ∧ unused (fitBleAll tab) 39 = true := by
  obtain ⟨fitted, kept⟩ := @doFittings_spec _ tab [0, 19, 39] bleAllSteps (by decide) used
  obtain ⟨spreaded, flags⟩ := @spread_spec bleAllBases (doFittings tab bleAllSteps) (by decide) (by decide)
  refine ⟨fun j inside => ?_, ?_, ?_, ?_⟩
  · rw [fitBleAll, spreaded j inside, fitted]
  · rw [fitBleAll, flags 0 (by decide), if_neg (by decide)]
  · rw [fitBleAll, flags 19 (by decide), if_pos rfl, kept 19 (by decide)]
    exact used 19 (by decide)
  · rw [fitBleAll, flags 39 (by decide), if_neg (by decide)]

/-- The branch is chosen by the three flags. -/
theorem fitBle_eq (tab : Vector UInt8 40) : fitBle tab =
    match unused tab 0, unused tab 19, unused tab 39 with
    | true, true, true => tab
    | true, false, true => fitBle19 tab
    | false, false, false => fitBleAll tab
    | _, _, _ => setFlag (setFlag (setFlag tab 0 TXPWR_ELEM_UNUSED) 19 TXPWR_ELEM_INUSED) 39 TXPWR_ELEM_UNUSED := by
  unfold fitBle bleFlag
  cases unused tab 0 <;> cases unused tab 19 <;> cases unused tab 39 <;> rfl

/-- Behind the branch that only sets flags. -/
theorem default_spec (tab : Vector UInt8 40) :
    let set := setFlag (setFlag (setFlag tab 0 TXPWR_ELEM_UNUSED) 19 TXPWR_ELEM_INUSED) 39 TXPWR_ELEM_UNUSED
    gain set = gain tab ∧ unused set 0 = true ∧ unused set 19 = false ∧ unused set 39 = true := by
  refine ⟨?_, ?_⟩
  · rw [gain_setFlag, gain_setFlag, gain_setFlag]
  · rw [unused_setFlag _ (by decide), unused_setFlag _ (by decide), unused_setFlag _ (by decide)]
    exact ⟨rfl, rfl, rfl⟩

theorem fitBle19_middle (middle : unused tab 19 = false) : gain (fitBle19 tab) 19 = gain tab 19 :=
  (fitBle19_spec middle).1 19 (by decide)

theorem fitBleAll_base (used : ∀ i ∈ [0, 19, 39], unused tab i = false) {i : Nat} (base : i ∈ [0, 19, 39]) :
    gain (fitBleAll tab) i = gain tab i := by
  have inside : i < 40 ∧ i ∈ bleAllBases ∧ i ∉ bleAllSteps.map Prod.fst := by
    revert i
    decide
  rw [(fitBleAll_spec used).1 i inside.1, lastBase_self inside.2.1, fitGains_of_not_mem _ inside.2.2]

/-- The measured gains of the base channels stay, and so does that of channel 19 in any case. -/
theorem fitBle_keeps {i : Nat} (base : i ∈ [0, 19, 39]) (used : unused tab i = false ∨ i = 19) :
    gain (fitBle tab) i = gain tab i := by
  have middle := default_spec tab
  rw [fitBle_eq]
  split
  next => rfl
  next first middle last =>
    -- only channel 19 is in use
    simp only [List.mem_cons, List.not_mem_nil, or_false] at base
    rcases base with rfl | rfl | rfl
    · simp [first] at used
    · exact fitBle19_middle middle
    · simp [last] at used
  next first middle last =>
    have all : ∀ i ∈ [0, 19, 39], unused tab i = false := by simp [first, middle, last]
    exact fitBleAll_base all base
  next => rw [middle.1]

/-- A fit of any base channel leaves channel 19 in use alone. -/
theorem fitBle_flags (some : ¬ (unused tab 0 = true ∧ unused tab 19 = true ∧ unused tab 39 = true)) :
    unused (fitBle tab) 0 = true ∧ unused (fitBle tab) 19 = false ∧ unused (fitBle tab) 39 = true := by
  have flags := (default_spec tab).2
  rw [fitBle_eq]
  split
  next first middle last => exact absurd ⟨first, middle, last⟩ some
  next first middle last => exact (fitBle19_spec middle).2
  next first middle last =>
    have all : ∀ i ∈ [0, 19, 39], unused tab i = false := by simp [first, middle, last]
    exact (fitBleAll_spec all).2
  next => exact flags

/-- So the next fit goes out from channel 19. -/
theorem fitBle_again (some : ¬ (unused tab 0 = true ∧ unused tab 19 = true ∧ unused tab 39 = true)) {j : Nat}
    (inside : j < 40) : gain (fitBle (fitBle tab)) j = from19 (gain tab 19) j := by
  obtain ⟨first, middle, last⟩ := fitBle_flags some
  have next : fitBle (fitBle tab) = fitBle19 (fitBle tab) := by
    rw [fitBle_eq (fitBle tab), first, middle, last]
  rw [next, (fitBle19_spec middle).1 j inside, fitBle_keeps (by decide) (.inr rfl)]

/-- No base channel is in use, or channel 19 alone; all three, with gains that a fit from channel 19 gives them; or
some, and all gains are the ones that such a fit gives. -/
def BleSettled (tab : Vector UInt8 40) : Prop :=
  match unused tab 0, unused tab 19, unused tab 39 with
  | true, true, true => True
  | true, false, true => True
  | false, false, false => gain tab 0 = (gain tab 19 + 4) % 32 ∧ gain tab 39 = gain tab 19
  | _, _, _ => ∀ j < 40, gain tab j = from19 (gain tab 19) j

/-- With the gains of channels 19 and 39 alike, all entries between them are alike, and those below are the ones
of a fit from channel 19. -/
theorem bleAll_eq_ble19 (low gain19 : Nat) {j : Nat} (inside : j < 40) :
    fitGains (fun i => if i = 0 then low else gain19) bleAllSteps (lastBase bleAllBases (j + 1)) =
      fitGains (fun i => if i = 0 then low else gain19) ble19Steps (lastBase ble19Bases (j + 1)) := by
  have mid : (gain19 + gain19 + 1) / 2 = gain19 := by omega
  have base : (lastBase bleAllBases (j + 1), lastBase ble19Bases (j + 1)) ∈
      [(0, 0), (5, 5), (10, 10), (15, 15), (19, 19), (25, 19), (30, 19), (35, 19), (39, 19)] := by
    revert j
    decide
  revert base
  generalize lastBase bleAllBases (j + 1) = b, lastBase ble19Bases (j + 1) = b'
  intro base
  simp only [List.mem_cons, Prod.mk.injEq, List.not_mem_nil, or_false] at base
  rcases base with ⟨rfl, rfl⟩ | ⟨rfl, rfl⟩ | ⟨rfl, rfl⟩ | ⟨rfl, rfl⟩ | ⟨rfl, rfl⟩ | ⟨rfl, rfl⟩ | ⟨rfl, rfl⟩ | ⟨rfl, rfl⟩ |
    ⟨rfl, rfl⟩ <;>
  simp [fitGains, bleAllSteps, ble19Steps, mid]

/-- Fitting from all three is fitting from channel 19 if the other two go with it. -/
theorem all_from19 (used : ∀ i ∈ [0, 19, 39], unused tab i = false) :
    (∀ j < 40, gain (fitBleAll tab) j = from19 (gain tab 19) j) ↔
      gain tab 0 = (gain tab 19 + 4) % 32 ∧ gain tab 39 = gain tab 19 := by
  constructor
  · intro same
    have first := same 0 (by decide)
    have last := same 39 (by decide)
    rw [fitBleAll_base used (by decide)] at first last
    exact ⟨first, last⟩
  · rintro ⟨first, last⟩ j inside
    rw [(fitBleAll_spec used).1 j inside, from19, ← bleAll_eq_ble19 _ _ inside]
    apply @fitGains_congr 40 [0, 19, 39] bleAllSteps (by decide)
    · intro i member
      simp only [List.mem_cons, List.not_mem_nil, or_false] at member
      rcases member with rfl | rfl | rfl
      · exact first
      · rfl
      · exact last
    · have known : ∀ b ∈ bleAllBases, b ∈ [0, 19, 39] ∨ b ∈ bleAllSteps.map Prod.fst := by decide
      exact known _ (lastBase_mem (by decide) _)

theorem fitBle_twice : (∀ j < 40, gain (fitBle (fitBle tab)) j = gain (fitBle tab) j) ↔ BleSettled tab := by
  by_cases none : unused tab 0 = true ∧ unused tab 19 = true ∧ unused tab 39 = true
  · obtain ⟨first, middle, last⟩ := none
    have same : fitBle tab = tab := by rw [fitBle_eq, first, middle, last]
    rw [same, same, BleSettled, first, middle, last]
    exact iff_of_true (fun _ _ => rfl) trivial
  · have again : (∀ j < 40, gain (fitBle (fitBle tab)) j = gain (fitBle tab) j) ↔
        ∀ j < 40, gain (fitBle tab) j = from19 (gain tab 19) j := by
      apply forall₂_congr
      intro j inside
      rw [fitBle_again none inside, eq_comm]
    have flags := default_spec tab
    rw [again, fitBle_eq, BleSettled]
    split
    next first middle last => exact absurd ⟨first, middle, last⟩ none
    next first middle last => exact iff_of_true (fitBle19_spec middle).1 trivial
    next first middle last => exact all_from19 (by simp [first, middle, last])
    next => rw [flags.1]

end

/-! ### A fit, and one more -/

def fit (tabs : Tabs) : Tabs := (manualCalFittingTxpwrTab tabs).1

theorem fit_tables (tabs : Tabs) : (fit tabs).b = (fitWlan tabs.b).1 ∧ (fit tabs).g = (fitWlan tabs.g).1 ∧
    (fit tabs).ble = fitBle tabs.ble := by
  simp only [fit, manualCalFittingTxpwrTab, fitN40]
  split <;> (split <;> exact ⟨rfl, rfl, rfl⟩)

/-- What a fit does to a table of b or g: the base channels in use keep their gains, and where all are fitted
they lie between those around them. -/
structure WlanFitted (tab tab' : Vector UInt8 14) : Prop where
  keeps : ∀ i ∈ [0, 6, 12], unused tab i = false → gain tab' i = gain tab i
  interpolated : unused tab 0 = false → unused tab 12 = false → Interpolated (gain tab') ∧
    (unused tab 6 = true → Between (gain tab' 6) (gain tab' 0) (gain tab' 12))

theorem wlanFitted (tab : Vector UInt8 14) : WlanFitted tab (fitWlan tab).1 where
  keeps _ base used := fitWlan_keeps base used
  interpolated first last := fitWlan_interpolated (fitWlan_spec first last).1

/-- What has been measured is kept, and the rest of b and g is interpolated. -/
structure Fitted (tabs tabs' : Tabs) : Prop where
  b : WlanFitted tabs.b tabs'.b
  g : WlanFitted tabs.g tabs'.g
  ble : ∀ i ∈ [0, 19, 39], unused tabs.ble i = false → gain tabs'.ble i = gain tabs.ble i

theorem fit_fitted (tabs : Tabs) : Fitted tabs (fit tabs) := by
  obtain ⟨b, g, ble⟩ := fit_tables tabs
  constructor
  · rw [b]
    exact wlanFitted tabs.b
  · rw [g]
    exact wlanFitted tabs.g
  · rw [ble]
    exact fun i base used => fitBle_keeps base (.inl used)

/-- No gain of b, g or BLE is another. -/
def SameGains (tabs tabs' : Tabs) : Prop :=
  (∀ i < 14, gain tabs'.b i = gain tabs.b i) ∧ (∀ i < 14, gain tabs'.g i = gain tabs.g i) ∧
    ∀ i < 40, gain tabs'.ble i = gain tabs.ble i

/-- Channel 7 is settled in b and in g, and BLE is settled. -/
def Settled (tabs : Tabs) : Prop := WlanSettled tabs.b ∧ WlanSettled tabs.g ∧ BleSettled tabs.ble

theorem fit_twice_iff (tabs : Tabs) : SameGains (fit tabs) (fit (fit tabs)) ↔ Settled tabs := by
  obtain ⟨b, g, ble⟩ := fit_tables tabs
  obtain ⟨b', g', ble'⟩ := fit_tables (fit tabs)
  rw [SameGains, b', g', ble', b, g, ble, fitWlan_twice, fitWlan_twice, fitBle_twice, Settled]

/-! ### Saves and fits in any order -/

inductive CalCall
  | save (rate channel pwrGain : UInt32)
  | fitting

def TxPwr.call (s : TxPwr) : CalCall → Option TxPwr
  | .save rate channel pwrGain => s.manualCalSaveTxpwr rate channel pwrGain
  | .fitting => some { s with tabs := fit s.tabs }

/-- The states that the calls lead through. -/
def TxPwr.Reaches (s : TxPwr) (calls : List CalCall) (r : TxPwr) : Prop :=
  ∃ part, part <+: calls ∧ part.foldlM TxPwr.call s = some r

/-- Whatever is saved and fitted before, a fit keeps what has been measured and interpolates the rest. The next
one changes nothing, in all the states that are reached, exactly when all of them are settled. -/
theorem txpwr_fitting_iff (s : TxPwr) (calls : List CalCall) :
    (∀ r, s.Reaches calls r → Fitted r.tabs (fit r.tabs)) ∧
    ((∀ r, s.Reaches calls r → SameGains (fit r.tabs) (fit (fit r.tabs))) ↔
      ∀ r, s.Reaches calls r → Settled r.tabs) :=
  ⟨fun r _ => fit_fitted r.tabs, forall₂_congr fun r _ => fit_twice_iff r.tabs⟩

/-- `INIT_TXPWR_VALUE` for the tables of b and g, which have channels 1 and 13 in use. -/
def wlanDef (gains : Vector UInt8 14) : Vector UInt8 14 :=
  gains.mapIdx fun i gain => (if i = 0 ∨ i = 12 then TXPWR_ELEM_INUSED else TXPWR_ELEM_UNUSED) <<< 7 ||| gain

/-- The tables `gtxpwr_tab_def_*`, with n20 as made from g. -/
def tabsDef : Tabs :=
  manualCalFitTxpwrTabN20
    { b := wlanDef #v[20, 20, 20, 19, 19, 19, 18, 18, 18, 17, 17, 17, 16, 16]
      g := wlanDef #v[16, 16, 16, 15, 15, 15, 14, 14, 14, 13, 13, 13, 12, 12]
      n := .replicate 14 0
      n40 := #v[0x88, 0x88, 0x88, 0x88, 0x88, 0x88, 0x87, 0x87, 0x87, 0x86, 0x85, 0x85, 0x85, 0x85]
      ble := .ofFn fun i => (if i.val = 19 then TXPWR_ELEM_INUSED else TXPWR_ELEM_UNUSED) <<< 7 |||
        (if i.val < 5 then 20 else if i.val < 10 then 19 else if i.val < 15 then 18
          else if i.val < 19 then 17 else 16)
      difGN20 := 2
      difGN40 := 4 } 2

/-- The gain 20 is measured for channel 7 of g. The first fit keeps it, the second puts the midpoint of the outer
channels in its place. -/
theorem second_fit_replaces_measured :
    ∃ s, TxPwr.manualCalSaveTxpwr ⟨tabsDef, 0, 0, 0, 0, 0, false⟩ 54 7 20 = some s ∧
      unused s.tabs.g 6 = false ∧ gain (fit s.tabs).g 6 = 20 ∧ gain (fit (fit s.tabs)).g 6 = 14 ∧
      ¬ SameGains (fit s.tabs) (fit (fit s.tabs)) := by
  refine ⟨_, rfl, by decide +kernel, by decide +kernel, by decide +kernel, fun same => ?_⟩
  exact absurd (same.2.1 6 (by decide)) (by decide +kernel)

end Bk7251.RfCal
