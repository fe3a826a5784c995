import Mathlib.Algebra.Group.Int.Defs
import Mathlib.Algebra.Group.Nat.Defs
import Mathlib.Logic.Function.Basic
import Mathlib.Tactic.Common

/-!
# Compensation of the temperature

`manual_cal_tmp_pwr_init` and `manual_cal_set_tmp_pwr` of `func/bk7011_cal/manual_cal_bk7231U.c`: a table of the
readings that go with the entries of `tmp_pwr_tab`, and an index that follows the readings in it. A pointer into
`tmp_pwr_tab` is the number of the entry.
-/
namespace Bk7251.RfCal

namespace TmpPwr

def TMP_PWR_TAB_LEN : Nat := 39
def ADC_TEMP_VAL_MIN : UInt16 := 50
def ADC_TEMP_VAL_MAX : UInt16 := 500
def DO_SETP : Nat := 10

/-- `TMP_SET_PWR_ST` -/
structure TmpSetPwr where
  indx : Nat
  flag : UInt8
  tempTab : Nat → UInt16
  pwrPtr : Nat

/-- A word taken for an `INT16`. -/
def int16 (w : UInt16) : Int := if w.toNat < 2 ^ 15 then w.toNat else w.toNat - 2 ^ 16

/-! ### The table -/

/-- `temp` of the loop upwards, back in 16 bits. -/
def above (below thre : UInt16) : UInt16 :=
  let temp := below + thre
  if int16 temp > ADC_TEMP_VAL_MAX.toNat then ADC_TEMP_VAL_MAX else temp

/-- `temp` of the loop downwards. -/
def below (above thre : UInt16) : UInt16 :=
  let temp := above - thre
  if int16 temp < ADC_TEMP_VAL_MIN.toNat then ADC_TEMP_VAL_MIN else temp

/-- The loop upwards from `i` on, with `left` entries to go. -/
def upFrom (thre : UInt16) : (left i : Nat) → (Nat → UInt16) → Nat → UInt16
  | 0, _, tab => tab
  | left + 1, i, tab => upFrom thre left (i + 1) (Function.update tab i (above (tab (i - 1)) thre))

/-- The loop downwards over the entries in front of the given one. -/
def downFrom (thre : UInt16) : Nat → (Nat → UInt16) → Nat → UInt16
  | 0, tab => tab
  | i + 1, tab => downFrom thre i (Function.update tab i (below (tab (i + 1)) thre))

/-- The entry where the table begins. -/
def idx : Nat := 13

/-- `manual_cal_tmp_pwr_init`; the flag is set if the detection does not run yet. -/
def manualCalTmpPwrInit (s : TmpSetPwr) (initTemp initThre initDist : UInt16) (tempDetectIsInit : Bool) :
    TmpSetPwr :=
  if initTemp ≥ ADC_TEMP_VAL_MAX then s
  else
    let initTemp := initTemp + initDist
    -- there is no such limit at the lower end
    let initTemp := if initTemp > ADC_TEMP_VAL_MAX then ADC_TEMP_VAL_MAX else initTemp
    let tab : Nat → UInt16 := Function.update (fun _ => 0) idx initTemp
    let tab := upFrom initThre (TMP_PWR_TAB_LEN - (idx + 1)) (idx + 1) tab
    let tab := downFrom initThre idx tab
    { indx := idx
      flag := if tempDetectIsInit then s.flag else 1
      tempTab := tab
      pwrPtr := idx }

/-! ### Following a reading -/

def thre1 (thre : UInt16) : Nat := thre.toNat / 2 + 2

/-- The loop for the greatest `i` whose threshold is reached. -/
def ladder (thre : UInt16) (dist : Nat) : Nat → Option Nat
  | 0 => none
  | i + 1 => if dist ≥ thre1 thre + i * thre.toNat then some i else ladder thre dist i

/-- What a call does besides: what it returns, what it writes through `last`, and which calibrations it does. -/
structure Outcome where
  state : TmpSetPwr
  ret : Option Nat
  last : Option UInt16
  calDpll : Bool
  calBias : Bool

/-- The number of entries to move by, where the distance is `dist`, and whether the DPLL is calibrated. -/
def moves (thre : UInt16) (dist : Nat) : Option (Nat × Bool) :=
  if dist ≥ thre1 thre + (DO_SETP - 1) * thre.toNat then some (DO_SETP, true)
  else if dist ≥ thre1 thre then
    match ladder thre dist (DO_SETP - 1) with
    | some i => some (i + 1, decide (i ≥ 1))
    | none => some (0, false)
  else none

/-- `indx`, `need_cal_dpll` and `need_cal_bais`. -/
def target (s : TmpSetPwr) (curVal thre : UInt16) : Nat × Bool × Bool :=
  let lastVal := s.tempTab s.indx
  if curVal > lastVal then
    match moves thre (curVal.toNat - lastVal.toNat) with
    | some (k, dpll) => (if s.indx + k < TMP_PWR_TAB_LEN then s.indx + k else TMP_PWR_TAB_LEN - 1, dpll, true)
    | none => (s.indx, false, false)
  else if curVal < lastVal then
    match moves thre (lastVal.toNat - curVal.toNat) with
    | some (k, dpll) => (if s.indx > k then s.indx - k else 0, dpll, true)
    | none => (s.indx, false, false)
  else (s.indx, false, false)

/-- `manual_cal_set_tmp_pwr` -/
def manualCalSetTmpPwr (s : TmpSetPwr) (curVal thre : UInt16) : Outcome :=
  let (indx, calDpll, calBias) := target s curVal thre
  if s.indx = indx then ⟨s, none, none, false, false⟩
  else if s.flag ≠ 0 then
    ⟨{ s with indx, pwrPtr := indx }, some indx, some (s.tempTab indx), calDpll, calBias⟩
  else ⟨{ s with indx }, none, none, calDpll, calBias⟩

/-- The state after a sequence of readings. -/
def follow (s : TmpSetPwr) (thre : UInt16) (readings : List UInt16) : TmpSetPwr :=
  readings.foldl (fun s curVal => (manualCalSetTmpPwr s curVal thre).state) s

/-! ### What the loops leave -/

section

variable {thre : UInt16}

theorem upFrom_of_lt (left i : Nat) (tab : Nat → UInt16) {j : Nat} (less : j < i) :
    upFrom thre left i tab j = tab j := by
  induction left generalizing i tab with
  | zero => rfl
  | succ left ih =>
    rw [upFrom, ih (i + 1) _ (Nat.lt_succ_of_lt less), Function.update_of_ne (Nat.ne_of_lt less)]

theorem upFrom_next (left i : Nat) (tab : Nat → UInt16) {j : Nat} (begun : i ≤ j + 1)
    (ends : j + 1 < i + left) :
    upFrom thre left i tab (j + 1) = above (upFrom thre left i tab j) thre := by
  induction left generalizing i tab with
  | zero => omega
  | succ left ih =>
    rw [upFrom]
    rcases Nat.eq_or_lt_of_le begun with rfl | later
    · rw [upFrom_of_lt _ _ _ (Nat.lt_succ_self _), Function.update_self, upFrom_of_lt _ _ _ (by omega),
        Function.update_of_ne (by omega), Nat.add_sub_cancel]
    · exact ih (i + 1) _ later (by omega)

theorem downFrom_of_le (i : Nat) (tab : Nat → UInt16) {j : Nat} (le : i ≤ j) :
    downFrom thre i tab j = tab j := by
  induction i generalizing tab with
  | zero => rfl
  | succ i ih => rw [downFrom, ih _ (by omega), Function.update_of_ne (by omega)]

theorem downFrom_next (i : Nat) (tab : Nat → UInt16) {j : Nat} (less : j < i) :
    downFrom thre i tab j = below (downFrom thre i tab (j + 1)) thre := by
  induction i generalizing tab with
  | zero => omega
  | succ i ih =>
    rw [downFrom]
    -- this entry is stored now, and later ones leave it, or it is stored later
    rcases Nat.eq_or_lt_of_le (Nat.le_of_lt_succ less) with rfl | earlier
    · rw [downFrom_of_le _ _ (Nat.le_refl j), Function.update_self, downFrom_of_le _ _ (Nat.le_succ j),
        Function.update_of_ne (by omega)]
    · exact ih _ earlier

/-- Neighbouring entries: the upper is not below the lower, and not farther from it than a threshold. -/
def Step (thre lower upper : UInt16) : Prop :=
  lower.toNat ≤ upper.toNat ∧ upper.toNat ≤ lower.toNat + thre.toNat

/-- The range of the table. -/
def InRange (w : UInt16) : Prop := 50 ≤ w.toNat ∧ w.toNat ≤ 500

theorem above_spec {w : UInt16} (range : InRange w) (small : thre.toNat ≤ 255) :
    InRange (above w thre) ∧ Step thre w (above w thre) := by
  obtain ⟨lower, upper⟩ := range
  have sum : (w + thre).toNat = w.toNat + thre.toNat := by
    rw [UInt16.toNat_add]
    exact Nat.mod_eq_of_lt (by omega)
  have positive : int16 (w + thre) = (w + thre).toNat := if_pos (by omega)
  have max : ADC_TEMP_VAL_MAX.toNat = 500 := rfl
  simp only [above, positive, sum, InRange, Step, max]
  split
  next great =>
    rw [max]
    omega
  next => omega

theorem below_spec {w : UInt16} (range : InRange w) (small : thre.toNat ≤ 255) :
    InRange (below w thre) ∧ Step thre (below w thre) w := by
  obtain ⟨lower, upper⟩ := range
  have min : ADC_TEMP_VAL_MIN.toNat = 50 := rfl
  -- as a signed number the difference is right, also below zero
  have value : int16 (w - thre) = (w.toNat : Int) - thre.toNat ∧ (thre.toNat ≤ w.toNat →
      (w - thre).toNat = w.toNat - thre.toNat) := by
    have sub := UInt16.toNat_sub w thre
    have bound := thre.toNat_lt
    rw [int16]
    split <;> omega
  simp only [below, value.1, InRange, Step, min]
  split
  next less =>
    rw [min]
    omega
  next enough =>
    rw [value.2 (by omega)]
    omega

/-! ### The table at the start -/

/-- The table does not fall, and no step of it is higher than the threshold. -/
def Graded (thre : UInt16) (tab : Nat → UInt16) : Prop :=
  ∀ i, i + 1 < TMP_PWR_TAB_LEN → Step thre (tab i) (tab (i + 1))

def NonDecreasing (tab : Nat → UInt16) : Prop :=
  ∀ i, i + 1 < TMP_PWR_TAB_LEN → (tab i).toNat ≤ (tab (i + 1)).toNat

/-- The table around a middle entry. -/
def tableFrom (thre middle : UInt16) : Nat → UInt16 :=
  downFrom thre idx
    (upFrom thre (TMP_PWR_TAB_LEN - (idx + 1)) (idx + 1) (Function.update (fun _ => 0) idx middle))

variable {middle : UInt16}

theorem tableFrom_idx : tableFrom thre middle idx = middle := by
  rw [tableFrom, downFrom_of_le _ _ (Nat.le_refl _), upFrom_of_lt _ _ _ (Nat.lt_succ_self _),
    Function.update_self]

theorem tableFrom_up {i : Nat} (upper : idx ≤ i) (inside : i + 1 < TMP_PWR_TAB_LEN) :
    tableFrom thre middle (i + 1) = above (tableFrom thre middle i) thre := by
  rw [tableFrom, downFrom_of_le _ _ upper, downFrom_of_le _ _ (Nat.le_succ_of_le upper),
    upFrom_next _ _ _ (by omega) (by
      rw [TMP_PWR_TAB_LEN, idx] at *
      omega)]

theorem tableFrom_down {i : Nat} (lower : i < idx) :
    tableFrom thre middle i = below (tableFrom thre middle (i + 1)) thre :=
  downFrom_next _ _ lower

theorem tableFrom_upper (range : InRange middle) (small : thre.toNat ≤ 255) {k : Nat}
    (inside : idx + k < TMP_PWR_TAB_LEN) :
    InRange (tableFrom thre middle (idx + k)) := by
  induction k with
  | zero => rwa [Nat.add_zero, tableFrom_idx]
  | succ k ih =>
    rw [← Nat.add_assoc, tableFrom_up (Nat.le_add_right idx k) inside]
    exact (above_spec (ih (Nat.lt_of_succ_lt inside)) small).1

theorem tableFrom_lower (range : InRange middle) (small : thre.toNat ≤ 255) {i k : Nat} (place : i + k = idx) :
    InRange (tableFrom thre middle i) := by
  induction k generalizing i with
  | zero =>
    rw [Nat.add_zero] at place
    rwa [place, tableFrom_idx]
  | succ k ih =>
    rw [tableFrom_down (by omega)]
    exact (below_spec (ih (i := i + 1) (by omega)) small).1

theorem graded_tableFrom (range : InRange middle) (small : thre.toNat ≤ 255) :
    Graded thre (tableFrom thre middle) := by
  intro i inside
  -- the table is built from the middle, downwards and upwards
  by_cases lower : i < idx
  · rw [tableFrom_down lower]
    exact (below_spec (tableFrom_lower range small (i := i + 1) (k := idx - (i + 1)) (by omega)) small).2
  · obtain ⟨k, rfl⟩ := Nat.exists_eq_add_of_le (Nat.not_lt.mp lower)
    rw [tableFrom_up (Nat.le_add_right idx k) inside]
    exact (above_spec (tableFrom_upper range small (Nat.lt_of_succ_lt inside)) small).2

/-- A middle entry below the range has the least entry of the range below it. -/
theorem falling_tableFrom (low : middle.toNat < 50) (positive : 1 ≤ thre.toNat) (small : thre.toNat ≤ 255) :
    ¬ NonDecreasing (tableFrom thre middle) := by
  intro rising
  have step := rising 12 (by decide)
  -- the entry in front of the middle is raised to the range, and the middle is not
  have under : tableFrom thre middle 12 = ADC_TEMP_VAL_MIN := by
    have less : int16 (middle - thre) < ADC_TEMP_VAL_MIN.toNat := by
      have sub := UInt16.toNat_sub middle thre
      have min : ADC_TEMP_VAL_MIN.toNat = 50 := rfl
      rw [int16, min]
      split <;> omega
    rw [tableFrom_down (by decide)]
    change below (tableFrom thre middle idx) thre = _
    rw [tableFrom_idx, below]
    exact if_pos less
  rw [under] at step
  change 50 ≤ (tableFrom thre middle idx).toNat at step
  rw [tableFrom_idx] at step
  omega

/-! ### One reading -/

/-- How many entries the index moves by. -/
def rungs (thre : UInt16) (dist : Nat) : Nat := (moves thre dist).elim 0 Prod.fst

theorem ladder_reached {dist n i : Nat} (found : ladder thre dist n = some i) :
    thre1 thre + i * thre.toNat ≤ dist := by
  -- by induction on the rungs; the highest one that is reached is returned
  induction n with
  | zero => cases found
  | succ n ih =>
    rw [ladder] at found
    split at found
    next reached =>
      obtain rfl := Option.some.inj found
      exact reached
    next => exact ih found

theorem ladder_isSome {dist : Nat} (n : Nat) (reached : thre1 thre ≤ dist) :
    ∃ i, ladder thre dist (n + 1) = some i := by
  induction n with
  | zero =>
    refine ⟨0, ?_⟩
    rw [ladder, if_pos (by omega)]
  | succ n ih =>
    rw [ladder]
    split
    · exact ⟨_, rfl⟩
    · exact ih

/-- A reading that is near keeps the index; a far one moves it, by no more entries than there are whole thresholds in
the distance beyond the first. -/
theorem rungs_spec (thre : UInt16) (dist : Nat) :
    (rungs thre dist = 0 ∧ dist < thre1 thre) ∨
      ∃ i, rungs thre dist = i + 1 ∧ thre1 thre + i * thre.toNat ≤ dist := by
  unfold rungs moves
  split
  next far => exact .inr ⟨9, rfl, far⟩
  next =>
    split
    next reached =>
      obtain ⟨i, found⟩ : ∃ i, ladder thre dist (DO_SETP - 1) = some i := ladder_isSome 8 reached
      rw [found]
      exact .inr ⟨i, rfl, ladder_reached found⟩
    next near => exact .inl ⟨rfl, Nat.not_le.mp near⟩

/-- The index behind a reading. -/
def nextIndx (s : TmpSetPwr) (curVal thre : UInt16) : Nat :=
  if curVal > s.tempTab s.indx then
    min (s.indx + rungs thre (curVal.toNat - (s.tempTab s.indx).toNat)) (TMP_PWR_TAB_LEN - 1)
  else s.indx - rungs thre ((s.tempTab s.indx).toNat - curVal.toNat)

theorem rungs_zero (thre : UInt16) : rungs thre 0 = 0 := by
  rcases rungs_spec thre 0 with ⟨zero, -⟩ | ⟨i, -, reached⟩
  · exact zero
  · rw [thre1] at reached
    omega

theorem target_fst (s : TmpSetPwr) (curVal thre : UInt16) (inside : s.indx < TMP_PWR_TAB_LEN) :
    (target s curVal thre).1 = nextIndx s curVal thre := by
  have last : s.indx ≤ TMP_PWR_TAB_LEN - 1 := Nat.le_sub_one_of_lt inside
  unfold target nextIndx
  -- up, down or the entry itself
  by_cases up : curVal > s.tempTab s.indx
  · rw [if_pos up, if_pos up, rungs]
    cases moves thre (curVal.toNat - (s.tempTab s.indx).toNat) with
    | none => exact (Nat.min_eq_left last).symm
    | some move =>
      simp only [Option.elim_some]
      split <;> omega
  · rw [if_neg up, if_neg up]
    by_cases down : curVal < s.tempTab s.indx
    · rw [if_pos down, rungs]
      cases moves thre ((s.tempTab s.indx).toNat - curVal.toNat) with
      | none => rfl
      | some move =>
        simp only [Option.elim_some]
        split <;> omega
    · have le : (s.tempTab s.indx).toNat ≤ curVal.toNat := UInt16.le_iff_toNat_le.mp (UInt16.not_lt.mp down)
      rw [if_neg down, Nat.sub_eq_zero_of_le le, rungs_zero]
      rfl

/-- What a call does to the state, while the flag is set. -/
theorem set_state (s : TmpSetPwr) (curVal thre : UInt16) (inside : s.indx < TMP_PWR_TAB_LEN)
    (flag : s.flag ≠ 0) (ptr : s.pwrPtr = s.indx) :
    (manualCalSetTmpPwr s curVal thre).state =
      { s with indx := nextIndx s curVal thre, pwrPtr := nextIndx s curVal thre } := by
  rw [← target_fst s curVal thre inside, manualCalSetTmpPwr]
  generalize target s curVal thre = found
  obtain ⟨indx, calDpll, calBias⟩ := found
  by_cases stays : s.indx = indx
  · simp only [if_pos stays]
    subst stays
    obtain ⟨indx, flag', tab, pwrPtr⟩ := s
    obtain rfl : pwrPtr = indx := ptr
    rfl
  · simp only [if_neg stays, if_pos flag]

/-! ### Sequences of readings -/

/-- What holds between the calls. -/
structure Tracking (thre : UInt16) (tab : Nat → UInt16) (s : TmpSetPwr) : Prop where
  table : s.tempTab = tab
  inside : s.indx < TMP_PWR_TAB_LEN
  ptr : s.pwrPtr = s.indx
  flag : s.flag ≠ 0

/-- Between two numbers, either way. -/
def distance (a b : UInt16) : Nat := (a.toNat - b.toNat) + (b.toNat - a.toNat)

/-- A call does not lead away from the reading, and stays only where it is near or at the end of the table. -/
structure Follows (s : TmpSetPwr) (curVal thre : UInt16) : Prop where
  inside : (manualCalSetTmpPwr s curVal thre).state.indx < TMP_PWR_TAB_LEN
  ptr : (manualCalSetTmpPwr s curVal thre).state.pwrPtr = (manualCalSetTmpPwr s curVal thre).state.indx
  nearer : distance curVal (s.tempTab (manualCalSetTmpPwr s curVal thre).state.indx) ≤
    distance curVal (s.tempTab s.indx)
  stays : (manualCalSetTmpPwr s curVal thre).state.indx = s.indx →
    distance curVal (s.tempTab s.indx) < thre.toNat / 2 + 2 ∨
    (curVal > s.tempTab s.indx ∧ s.indx = TMP_PWR_TAB_LEN - 1) ∨ (curVal < s.tempTab s.indx ∧ s.indx = 0)

variable {s : TmpSetPwr} {tab : Nat → UInt16} {curVal : UInt16}

/-- `k` entries higher. -/
theorem graded_climb (graded : Graded thre tab) {i k : Nat} (inside : i + k < TMP_PWR_TAB_LEN) :
    (tab i).toNat ≤ (tab (i + k)).toNat ∧ (tab (i + k)).toNat ≤ (tab i).toNat + k * thre.toNat := by
  induction k with
  | zero => simp
  | succ k ih =>
    obtain ⟨lower, upper⟩ := ih (Nat.lt_of_succ_lt inside)
    obtain ⟨rises, slowly⟩ := graded (i + k) inside
    rw [Nat.succ_mul]
    constructor
    · exact Nat.le_trans lower rises
    · exact Nat.le_trans slowly (by omega)

theorem tracking_set (tracking : Tracking thre tab s) (curVal : UInt16) :
    Tracking thre tab (manualCalSetTmpPwr s curVal thre).state := by
  have inside := tracking.inside
  rw [set_state s curVal thre tracking.inside tracking.flag tracking.ptr]
  refine ⟨tracking.table, ?_, rfl, tracking.flag⟩
  change nextIndx s curVal thre < TMP_PWR_TAB_LEN
  rw [nextIndx]
  split
  · exact Nat.lt_of_le_of_lt (Nat.min_le_right _ _) (by decide)
  · exact Nat.lt_of_le_of_lt (Nat.sub_le _ _) inside

/-- Moving by entries that the distance covers, up to one threshold, does not lead away. -/
theorem nearer_of_reached (moved : Nat) {dist thre i : Nat} (reached : thre / 2 + 2 + i * thre ≤ dist)
    (slowly : moved ≤ (i + 1) * thre) : (dist - moved) + (moved - dist) ≤ dist := by
  rw [Nat.succ_mul] at slowly
  omega

theorem nearer_up (graded : Graded thre tab) {indx : Nat} (inside : indx < TMP_PWR_TAB_LEN)
    (up : (tab indx).toNat < curVal.toNat) :
    distance curVal (tab (min (indx + rungs thre (curVal.toNat - (tab indx).toNat)) (TMP_PWR_TAB_LEN - 1))) ≤
      distance curVal (tab indx) := by
  have last : indx ≤ TMP_PWR_TAB_LEN - 1 := Nat.le_sub_one_of_lt inside
  rcases rungs_spec thre (curVal.toNat - (tab indx).toNat) with ⟨zero, -⟩ | ⟨i, moves, reached⟩
  · exact Nat.le_of_eq (by rw [zero, Nat.add_zero, Nat.min_eq_left last])
  · rw [moves]
    -- the index stops at the end of the table, so `m` entries are passed and no more
    obtain ⟨m, place, few⟩ : ∃ m, min (indx + (i + 1)) (TMP_PWR_TAB_LEN - 1) = indx + m ∧ m ≤ i + 1 :=
      ⟨min (indx + (i + 1)) (TMP_PWR_TAB_LEN - 1) - indx, by omega, by omega⟩
    have within : indx + m < TMP_PWR_TAB_LEN := by
      rw [← place]
      exact Nat.lt_of_le_of_lt (Nat.min_le_right _ _) (by decide)
    obtain ⟨rises, slowly⟩ := graded_climb graded within
    -- no step is higher than a threshold, and each is covered by the distance
    have most : m * thre.toNat ≤ (i + 1) * thre.toNat := Nat.mul_le_mul_right _ few
    have nearer := nearer_of_reached ((tab (indx + m)).toNat - (tab indx).toNat) reached (by omega)
    rw [place, distance, distance]
    omega

theorem nearer_down (graded : Graded thre tab) {indx : Nat} (inside : indx < TMP_PWR_TAB_LEN)
    (down : curVal.toNat ≤ (tab indx).toNat) :
    distance curVal (tab (indx - rungs thre ((tab indx).toNat - curVal.toNat))) ≤
      distance curVal (tab indx) := by
  rcases rungs_spec thre ((tab indx).toNat - curVal.toNat) with ⟨zero, -⟩ | ⟨i, moves, reached⟩
  · exact Nat.le_of_eq (by rw [zero, Nat.sub_zero])
  · rw [moves]
    obtain ⟨m, place, few⟩ : ∃ m, indx - (i + 1) + m = indx ∧ m ≤ i + 1 :=
      ⟨min (i + 1) indx, by omega, by omega⟩
    generalize indx - (i + 1) = lower at place ⊢
    subst place
    obtain ⟨rises, slowly⟩ := graded_climb graded inside
    have most : m * thre.toNat ≤ (i + 1) * thre.toNat := Nat.mul_le_mul_right _ few
    have nearer := nearer_of_reached ((tab (lower + m)).toNat - (tab lower).toNat) reached (by omega)
    rw [distance, distance]
    omega

theorem follows_set (graded : Graded thre tab) (tracking : Tracking thre tab s) (curVal : UInt16) :
    Follows s curVal thre := by
  have next := tracking_set tracking curVal
  have state := set_state s curVal thre tracking.inside tracking.flag tracking.ptr
  have indx : (manualCalSetTmpPwr s curVal thre).state.indx = nextIndx s curVal thre := by rw [state]
  have inside := tracking.inside
  obtain rfl := tracking.table
  refine ⟨next.inside, next.ptr, ?_, ?_⟩
  · rw [indx, nextIndx]
    split
    next up => exact nearer_up graded inside (UInt16.lt_iff_toNat_lt.mp up)
    next not_up => exact nearer_down graded inside (UInt16.le_iff_toNat_le.mp (UInt16.not_lt.mp not_up))
  · rw [indx, nextIndx, distance]
    have last : s.indx ≤ TMP_PWR_TAB_LEN - 1 := Nat.le_sub_one_of_lt inside
    split
    next up =>
      have less := UInt16.lt_iff_toNat_lt.mp up
      intro stays
      -- the index stays where the reading is near, or where there is no entry above
      rcases rungs_spec thre (curVal.toNat - (s.tempTab s.indx).toNat) with ⟨-, near⟩ | ⟨i, moves, -⟩
      · rw [thre1] at near
        omega
      · rw [moves] at stays
        exact .inr (.inl ⟨up, by omega⟩)
    next not_up =>
      have le := UInt16.le_iff_toNat_le.mp (UInt16.not_lt.mp not_up)
      intro stays
      -- or no entry below
      rcases rungs_spec thre ((s.tempTab s.indx).toNat - curVal.toNat) with ⟨-, near⟩ | ⟨i, moves, reached⟩
      · rw [thre1] at near
        omega
      · rw [moves] at stays
        refine .inr (.inr ⟨UInt16.lt_iff_toNat_lt.mpr ?_, by omega⟩)
        rw [thre1] at reached
        omega

/-- The invariant holds after any readings. -/
theorem tracking_follow (tracking : Tracking thre tab s) (readings : List UInt16) :
    Tracking thre tab (follow s thre readings) := by
  -- by induction on the readings
  induction readings generalizing s with
  | nil => exact tracking
  | cons curVal readings ih => exact ih (tracking_set tracking curVal)

end

/-- The table does not fall, and from the state behind it every reading is followed. -/
def Tracks (s : TmpSetPwr) (thre : UInt16) : Prop :=
  NonDecreasing s.tempTab ∧ ∀ readings curVal, Follows (follow s thre readings) curVal thre

theorem init_eq (s : TmpSetPwr) (initThre : UInt16) (tempDetectIsInit : Bool) {initTemp initDist : UInt16}
    (low : initTemp < ADC_TEMP_VAL_MAX) (fits : initTemp.toNat + initDist.toNat < 2 ^ 16) :
    ∃ middle : UInt16, middle.toNat = min (initTemp.toNat + initDist.toNat) 500 ∧
      manualCalTmpPwrInit s initTemp initThre initDist tempDetectIsInit =
        ⟨idx, if tempDetectIsInit then s.flag else 1, tableFrom initThre middle, idx⟩ := by
  have sum : (initTemp + initDist).toNat = initTemp.toNat + initDist.toNat := by
    rw [UInt16.toNat_add]
    exact Nat.mod_eq_of_lt fits
  have max : ADC_TEMP_VAL_MAX.toNat = 500 := rfl
  refine ⟨if initTemp + initDist > ADC_TEMP_VAL_MAX then ADC_TEMP_VAL_MAX else initTemp + initDist, ?_, ?_⟩
  · split
    next great =>
      have less := UInt16.lt_iff_toNat_lt.mp great
      omega
    next not_great =>
      have le := UInt16.le_iff_toNat_le.mp (UInt16.not_lt.mp not_great)
      omega
  · have passes : ¬ initTemp ≥ ADC_TEMP_VAL_MAX := UInt16.not_le.mpr low
    rw [manualCalTmpPwrInit, if_neg passes]
    rfl

/-- The table does not fall exactly when it begins at the lower end of the range or above, and the same makes
the compensation track the temperature while the flag is set. -/
theorem tmp_pwr_tracks_iff (s : TmpSetPwr) (initTemp initThre initDist : UInt16) (tempDetectIsInit : Bool)
    (low : initTemp < ADC_TEMP_VAL_MAX) (fits : initTemp.toNat + initDist.toNat < 2 ^ 16)
    (positive : 1 ≤ initThre.toNat) (small : initThre.toNat ≤ 255) :
    (NonDecreasing (manualCalTmpPwrInit s initTemp initThre initDist tempDetectIsInit).tempTab ↔
      ADC_TEMP_VAL_MIN.toNat ≤ initTemp.toNat + initDist.toNat) ∧
    ((manualCalTmpPwrInit s initTemp initThre initDist tempDetectIsInit).flag ≠ 0 →
      (Tracks (manualCalTmpPwrInit s initTemp initThre initDist tempDetectIsInit) initThre ↔
        ADC_TEMP_VAL_MIN.toNat ≤ initTemp.toNat + initDist.toNat)) := by
  obtain ⟨middle, value, state⟩ := init_eq s initThre tempDetectIsInit low fits
  have min : ADC_TEMP_VAL_MIN.toNat = 50 := rfl
  have graded (enough : ADC_TEMP_VAL_MIN.toNat ≤ initTemp.toNat + initDist.toNat) :
      Graded initThre (tableFrom initThre middle) := graded_tableFrom ⟨by omega, by omega⟩ small
  have enough (rising : NonDecreasing (tableFrom initThre middle)) :
      ADC_TEMP_VAL_MIN.toNat ≤ initTemp.toNat + initDist.toNat := by
    apply Nat.not_lt.mp
    intro less
    exact falling_tableFrom (by omega) positive small rising
  rw [state]
  constructor
  · exact ⟨enough, fun least i inside => (graded least i inside).1⟩
  · refine fun flag => ⟨fun tracks => enough tracks.1, fun least => ?_⟩
    refine ⟨fun i inside => (graded least i inside).1, fun readings curVal => ?_⟩
    have start : Tracking initThre (tableFrom initThre middle)
        ⟨idx, if tempDetectIsInit then s.flag else 1, tableFrom initThre middle, idx⟩ :=
      ⟨rfl, (by decide : idx < TMP_PWR_TAB_LEN), rfl, flag⟩
    exact follows_set (graded least) (tracking_follow start readings) curVal

/-- Before the first call. -/
def zeroed : TmpSetPwr := ⟨0, 0, fun _ => 0, 0⟩

theorem tmp_pwr_tracks_280 : Tracks (manualCalTmpPwrInit zeroed 280 22 0 false) 22 :=
  ((tmp_pwr_tracks_iff zeroed 280 22 0 false (by decide) (by decide) (by decide) (by decide)).2
    (by decide)).mpr (by decide)

/-- From 40 on, the entry in front of the middle is 50. -/
theorem low_start_falls :
    (manualCalTmpPwrInit zeroed 40 22 0 false).tempTab 12 = 50 ∧
      (manualCalTmpPwrInit zeroed 40 22 0 false).tempTab 13 = 40 ∧
      ¬ Tracks (manualCalTmpPwrInit zeroed 40 22 0 false) 22 := by
  refine ⟨by decide, by decide, fun tracks => ?_⟩
  exact absurd (tracks.1 12 (by decide)) (by decide)

end TmpPwr

end Bk7251.RfCal
