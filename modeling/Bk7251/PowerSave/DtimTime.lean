import Mathlib.Data.List.Basic
import Bk7251.Clock.FakeClock

/-!
# The time to the next DTIM

`power_save_time_to_sleep` with the setters of the fields it multiplies (`func/power_save/power_save.c`).
Only some of the setters look at what they store.
-/
namespace Bk7251.PowerSave

open Clock

inductive PsListenMode where
  | DTIM
  | INTERVAL
deriving DecidableEq

/-- The fields of `bk_ps_info` that the setters store to. -/
structure PsInfo where
  psDtimPeriod : UInt8
  psDtimCount : UInt8
  psDtimMulti : UInt8
  psBeaconInt : UInt16
  sleepMs : UInt16
  listonInt : UInt8
  listonMode : PsListenMode

namespace PsInfo

/-- The values that `bk_ps_info` is initialised with. -/
def init : PsInfo where
  psDtimPeriod := 1
  psDtimCount := 0
  psDtimMulti := 1
  psBeaconInt := 0
  sleepMs := 300
  listonInt := 1
  listonMode := .DTIM

variable (s : PsInfo)

def powerSaveSetDtimPeriod (period : UInt8) : PsInfo := { s with psDtimPeriod := period }

def powerSaveSetDtimCount (count : UInt8) : PsInfo := { s with psDtimCount := count }

def powerSaveSetDtimMulti (multi : UInt8) : PsInfo :=
  { s with
    psDtimMulti := if multi > 0 ∧ multi < 100 then multi else 1
    listonMode := .DTIM }

def powerSaveCalBcnListonInt (bcnInt : UInt16) : PsInfo :=
  if bcnInt ≠ 0 then
    { s with
      psBeaconInt := bcnInt
      listonInt :=
        if bcnInt ≥ s.sleepMs then 1
        else if s.sleepMs % bcnInt = 0 then (s.sleepMs / bcnInt).toUInt8
        else (s.sleepMs / bcnInt + 1).toUInt8 }
  else s

/-- `tm`, which is calculated as an `int`. -/
def tm : UInt32 :=
  UInt32.ofInt <|
    if s.psDtimCount = 0 then (s.psDtimPeriod.toNat : Int) * s.psDtimMulti.toNat * s.psBeaconInt.toNat
    else ((s.psDtimPeriod.toNat : Int) * ((s.psDtimMulti.toNat : Int) - 1) + s.psDtimCount.toNat) *
      s.psBeaconInt.toNat

/-- `power_save_time_to_sleep`; there is no result where it divides by zero. -/
def powerSaveTimeToSleep (lastWkTick : UInt32) (clock : FakeClock) : Option UInt32 :=
  if s.tm = 0 then none
  else
    let passed := (clock.fclkGetTick.toUInt64 - lastWkTick.toUInt64) * FCLK_DURATION_MS.toUInt64
    let less : Int32 := (s.tm.toUInt64 - passed % s.tm.toUInt64).toUInt32.toInt32
    some less.toUInt32

/-- A call of one of the setters. -/
inductive Call where
  | setDtimPeriod (period : UInt8)
  | setDtimCount (count : UInt8)
  | setDtimMulti (multi : UInt8)
  | calBcnListonInt (bcnInt : UInt16)
deriving DecidableEq

def step : Call → PsInfo
  | .setDtimPeriod period => s.powerSaveSetDtimPeriod period
  | .setDtimCount count => s.powerSaveSetDtimCount count
  | .setDtimMulti multi => s.powerSaveSetDtimMulti multi
  | .calBcnListonInt bcnInt => s.powerSaveCalBcnListonInt bcnInt

/-! ### The interval -/

/-- The listen interval, as a number. -/
def interval : Nat :=
  if s.psDtimCount = 0 then s.psDtimPeriod.toNat * s.psDtimMulti.toNat * s.psBeaconInt.toNat
  else (s.psDtimPeriod.toNat * (s.psDtimMulti.toNat - 1) + s.psDtimCount.toNat) * s.psBeaconInt.toNat

/-- The multiplier that `power_save_set_dtim_multi` lets through. -/
def MultiFits : Prop := 1 ≤ s.psDtimMulti.toNat ∧ s.psDtimMulti.toNat ≤ 99

variable {s}

/-- The `int` does not overflow, for any period, count and beacon interval. -/
theorem interval_lt (fits : s.MultiFits) : s.interval < 2 ^ 31 := by
  obtain ⟨-, most⟩ := fits
  have period : s.psDtimPeriod.toNat ≤ 255 := Nat.le_of_lt_succ s.psDtimPeriod.toNat_lt
  have count : s.psDtimCount.toNat ≤ 255 := Nat.le_of_lt_succ s.psDtimCount.toNat_lt
  have beacon : s.psBeaconInt.toNat ≤ 65535 := Nat.le_of_lt_succ s.psBeaconInt.toNat_lt
  rw [interval]
  split
  · calc s.psDtimPeriod.toNat * s.psDtimMulti.toNat * s.psBeaconInt.toNat
        ≤ 255 * 99 * 65535 := Nat.mul_le_mul (Nat.mul_le_mul period most) beacon
      _ < 2 ^ 31 := by decide
  · calc (s.psDtimPeriod.toNat * (s.psDtimMulti.toNat - 1) + s.psDtimCount.toNat) * s.psBeaconInt.toNat
        ≤ (255 * 98 + 255) * 65535 :=
          Nat.mul_le_mul (Nat.add_le_add (Nat.mul_le_mul period (Nat.sub_le_sub_right most 1)) count) beacon
      _ < 2 ^ 31 := by decide

theorem toNat_tm (fits : s.MultiFits) : s.tm.toNat = s.interval := by
  have small := interval_lt fits
  have number : s.tm = UInt32.ofInt (s.interval : Int) := by
    rw [tm, interval]
    congr 1
    split
    · push_cast
      rfl
    · rw [Nat.cast_mul, Nat.cast_add, Nat.cast_mul, Nat.cast_sub fits.1]
      rfl
  rw [number, UInt32.ofInt, UInt32.toNat_ofNat']
  omega

/-- The milliseconds since the wake-up. -/
def elapsed (lastWkTick : UInt32) (clock : FakeClock) : Nat := 2 * (clock.fclkGetTick.toNat - lastWkTick.toNat)

/-- There is a result: what is left of the interval that has begun. -/
def TimeRight (interval elapsed : Nat) (result : Option UInt32) : Prop :=
  ∃ time, result = some time ∧ 0 < time.toNat ∧ time.toNat ≤ interval ∧
    elapsed + time.toNat = (elapsed / interval + 1) * interval

theorem toNat_passed {lastWkTick : UInt32} {clock : FakeClock} (after : lastWkTick ≤ clock.fclkGetTick) :
    ((clock.fclkGetTick.toUInt64 - lastWkTick.toUInt64) * FCLK_DURATION_MS.toUInt64).toNat =
      elapsed lastWkTick clock := by
  -- the difference of the ticks does not wrap, nor does its double in 64 bits
  have order : lastWkTick.toUInt64 ≤ clock.fclkGetTick.toUInt64 := by
    rw [UInt64.le_iff_toNat_le, UInt32.toNat_toUInt64, UInt32.toNat_toUInt64]
    exact UInt32.le_iff_toNat_le.mp after
  have bound := clock.fclkGetTick.toNat_lt
  have duration : FCLK_DURATION_MS.toUInt64.toNat = 2 := rfl
  rw [UInt64.toNat_mul, UInt64.toNat_sub_of_le _ _ order, UInt32.toNat_toUInt64, UInt32.toNat_toUInt64, duration,
    elapsed]
  omega

/-- The result is right exactly when there is an interval. -/
theorem timeToSleep_right_iff (fits : s.MultiFits) {lastWkTick : UInt32} {clock : FakeClock}
    (after : lastWkTick ≤ clock.fclkGetTick) :
    TimeRight s.interval (elapsed lastWkTick clock) (s.powerSaveTimeToSleep lastWkTick clock) ↔
      0 < s.interval := by
  have tm := toNat_tm fits
  have small := interval_lt fits
  rw [powerSaveTimeToSleep]
  constructor
  · rintro ⟨time, -, positive, bounded, -⟩
    exact lt_of_lt_of_le positive bounded
  · intro some
    have divisor : s.tm ≠ 0 := by
      intro zero
      rw [zero] at tm
      exact absurd tm (Nat.ne_of_lt some)
    have rest := Nat.mod_lt (elapsed lastWkTick clock) some
    have remainder : (((clock.fclkGetTick.toUInt64 - lastWkTick.toUInt64) * FCLK_DURATION_MS.toUInt64) %
        s.tm.toUInt64).toNat = elapsed lastWkTick clock % s.interval := by
      rw [UInt64.toNat_mod, toNat_passed after, UInt32.toNat_toUInt64, tm]
    -- what is left of the interval fits 32 bits
    have time : (s.tm.toUInt64 - ((clock.fclkGetTick.toUInt64 - lastWkTick.toUInt64) *
        FCLK_DURATION_MS.toUInt64) % s.tm.toUInt64).toUInt32.toNat =
        s.interval - elapsed lastWkTick clock % s.interval := by
      rw [UInt64.toNat_toUInt32, UInt64.toNat_sub, remainder, UInt32.toNat_toUInt64, tm]
      omega
    rw [if_neg divisor]
    refine ⟨_, rfl, ?_⟩
    simp only [UInt32.toUInt32_toInt32, time]
    refine ⟨Nat.sub_pos_of_lt rest, Nat.sub_le _ _, ?_⟩
    -- the intervals that are over, and the one that has begun
    have split := Nat.div_add_mod' (elapsed lastWkTick clock) s.interval
    rw [Nat.succ_mul]
    omega

/-! ### The setters -/

/-- The arguments of the last calls, and what there was before. -/
def lastPeriod (period : UInt8) (calls : List Call) : UInt8 :=
  calls.foldl (fun period call => match call with
    | .setDtimPeriod period => period
    | _ => period) period

def lastCount (count : UInt8) (calls : List Call) : UInt8 :=
  calls.foldl (fun count call => match call with
    | .setDtimCount count => count
    | _ => count) count

theorem multiFits_step (fits : s.MultiFits) (call : Call) : (s.step call).MultiFits := by
  cases call with
  | setDtimPeriod period => exact fits
  | setDtimCount count => exact fits
  | setDtimMulti multi =>
    rw [MultiFits, step, powerSaveSetDtimMulti]
    simp only
    split
    next inside =>
      obtain ⟨low, high⟩ := inside
      exact ⟨UInt8.lt_iff_toNat_lt.mp low, Nat.le_of_lt_succ (UInt8.lt_iff_toNat_lt.mp high)⟩
    next => exact ⟨le_refl 1, by decide⟩
  | calBcnListonInt bcnInt =>
    rw [step, powerSaveCalBcnListonInt]
    split
    next => exact fits
    next => exact fits

/-- A beacon interval of 0 is not stored. -/
theorem calBcnListonInt_frame (s : PsInfo) (bcnInt : UInt16) :
    (s.powerSaveCalBcnListonInt bcnInt).psDtimPeriod = s.psDtimPeriod ∧
      (s.powerSaveCalBcnListonInt bcnInt).psDtimCount = s.psDtimCount ∧
      (s.powerSaveCalBcnListonInt bcnInt).psBeaconInt = if bcnInt ≠ 0 then bcnInt else s.psBeaconInt := by
  rw [powerSaveCalBcnListonInt]
  split
  next => exact ⟨rfl, rfl, rfl⟩
  next => exact ⟨rfl, rfl, rfl⟩

theorem run_multiFits (fits : s.MultiFits) (calls : List Call) : (calls.foldl step s).MultiFits := by
  induction calls generalizing s with
  | nil => exact fits
  | cons call calls ih => exact ih (multiFits_step fits call)

theorem run_period (s : PsInfo) (calls : List Call) :
    (calls.foldl step s).psDtimPeriod = lastPeriod s.psDtimPeriod calls := by
  induction calls generalizing s with
  | nil => rfl
  | cons call calls ih =>
    rw [List.foldl_cons, ih]
    cases call with
    | calBcnListonInt bcnInt =>
      rw [step, (calBcnListonInt_frame s bcnInt).1]
      rfl
    | _ => rfl

theorem run_count (s : PsInfo) (calls : List Call) :
    (calls.foldl step s).psDtimCount = lastCount s.psDtimCount calls := by
  induction calls generalizing s with
  | nil => rfl
  | cons call calls ih =>
    rw [List.foldl_cons, ih]
    cases call with
    | calBcnListonInt bcnInt =>
      rw [step, (calBcnListonInt_frame s bcnInt).2.1]
      rfl
    | _ => rfl

/-- A call that stores a beacon interval. -/
def SetsBeaconInt (calls : List Call) : Prop := ∃ bcnInt, bcnInt ≠ 0 ∧ Call.calBcnListonInt bcnInt ∈ calls

theorem setsBeaconInt_cons {call : Call} {calls : List Call} :
    SetsBeaconInt (call :: calls) ↔
      (∃ bcnInt, bcnInt ≠ 0 ∧ call = .calBcnListonInt bcnInt) ∨ SetsBeaconInt calls := by
  constructor
  · rintro ⟨bcnInt, some, member⟩
    rcases List.mem_cons.mp member with first | later
    · exact .inl ⟨bcnInt, some, first.symm⟩
    · exact .inr ⟨bcnInt, some, later⟩
  · rintro (⟨bcnInt, some, rfl⟩ | ⟨bcnInt, some, later⟩)
    · exact ⟨bcnInt, some, List.mem_cons_self⟩
    · exact ⟨bcnInt, some, List.mem_cons_of_mem _ later⟩

theorem step_beaconInt (s : PsInfo) (call : Call) :
    (s.step call).psBeaconInt ≠ 0 ↔
      s.psBeaconInt ≠ 0 ∨ ∃ bcnInt, bcnInt ≠ 0 ∧ call = .calBcnListonInt bcnInt := by
  cases call with
  | calBcnListonInt bcnInt =>
    rw [step, (calBcnListonInt_frame s bcnInt).2.2]
    by_cases none : bcnInt = 0
    · simp [none]
    · simp [none]
  | _ => simp [step, powerSaveSetDtimPeriod, powerSaveSetDtimCount, powerSaveSetDtimMulti]

theorem run_beaconInt (s : PsInfo) (calls : List Call) :
    (calls.foldl step s).psBeaconInt ≠ 0 ↔ s.psBeaconInt ≠ 0 ∨ SetsBeaconInt calls := by
  induction calls generalizing s with
  | nil => simp [SetsBeaconInt]
  | cons call calls ih => rw [List.foldl_cons, ih, step_beaconInt, setsBeaconInt_cons, or_assoc]

theorem interval_pos_iff (fits : s.MultiFits) :
    0 < s.interval ↔ s.psBeaconInt ≠ 0 ∧ (s.psDtimCount ≠ 0 ∨ s.psDtimPeriod ≠ 0) := by
  have multi : s.psDtimMulti.toNat ≠ 0 := Nat.pos_iff_ne_zero.mp fits.1
  have beacon : s.psBeaconInt.toNat ≠ 0 ↔ s.psBeaconInt ≠ 0 := not_congr (UInt16.toNat_inj (b := 0))
  have number (x : UInt8) : x.toNat ≠ 0 ↔ x ≠ 0 := not_congr (UInt8.toNat_inj (b := 0))
  rw [interval, Nat.pos_iff_ne_zero]
  split
  next none =>
    rw [Nat.mul_ne_zero_iff, Nat.mul_ne_zero_iff, beacon, number s.psDtimPeriod, and_iff_left multi]
    simp only [none, ne_eq, not_true, false_or]
    exact and_comm
  next some =>
    -- a count is enough, whatever the period is
    have factor : s.psDtimPeriod.toNat * (s.psDtimMulti.toNat - 1) + s.psDtimCount.toNat ≠ 0 := by
      have count := (number s.psDtimCount).mpr some
      omega
    rw [Nat.mul_ne_zero_iff, beacon, and_iff_right factor]
    exact (and_iff_left (.inl some)).symm

/-- A beacon interval has been set, and a count or a period that is not 0. -/
def IntervalSet (calls : List Call) : Prop :=
  SetsBeaconInt calls ∧ (lastCount 0 calls ≠ 0 ∨ lastPeriod 1 calls ≠ 0)

/-- After any calls of the setters, and at any tick not before the wake-up. -/
theorem time_to_sleep_iff (calls : List Call) (lastWkTick : UInt32) (clock : FakeClock)
    (after : lastWkTick ≤ clock.fclkGetTick) :
    TimeRight (calls.foldl step init).interval (elapsed lastWkTick clock)
      ((calls.foldl step init).powerSaveTimeToSleep lastWkTick clock) ↔ IntervalSet calls := by
  have initial : init.MultiFits := ⟨le_refl 1, by decide⟩
  have fits := run_multiFits initial calls
  rw [timeToSleep_right_iff fits after, interval_pos_iff fits, run_beaconInt, run_count, run_period, IntervalSet]
  have none : ¬ init.psBeaconInt ≠ 0 := not_not_intro rfl
  rw [or_iff_right none]
  rfl

/-- A beacon interval of 100 and a period of 3: after 50 ticks there are 200 ms left. -/
theorem time_to_sleep_three :
    TimeRight ([Call.calBcnListonInt 100, .setDtimPeriod 3].foldl step init).interval
      (elapsed 7 ⟨57, 0, 0⟩)
      (([Call.calBcnListonInt 100, .setDtimPeriod 3].foldl step init).powerSaveTimeToSleep 7 ⟨57, 0, 0⟩) := by
  apply (time_to_sleep_iff [.calBcnListonInt 100, .setDtimPeriod 3] 7 ⟨57, 0, 0⟩ (by decide)).mpr
  exact ⟨⟨100, by decide, List.mem_cons_self⟩, .inr (by decide)⟩

/-- A period of 0, from an access point that says so. -/
theorem zero_period_divides :
    ([Call.calBcnListonInt 100, .setDtimPeriod 0].foldl step init).powerSaveTimeToSleep 0 ⟨5, 0, 0⟩ = none ∧
      ¬ TimeRight ([Call.calBcnListonInt 100, .setDtimPeriod 0].foldl step init).interval (elapsed 0 ⟨5, 0, 0⟩)
        (([Call.calBcnListonInt 100, .setDtimPeriod 0].foldl step init).powerSaveTimeToSleep 0 ⟨5, 0, 0⟩) := by
  have none : ([Call.calBcnListonInt 100, .setDtimPeriod 0].foldl step init).powerSaveTimeToSleep 0 ⟨5, 0, 0⟩ =
      none := by decide
  refine ⟨none, ?_⟩
  rw [none]
  rintro ⟨time, impossible, -⟩
  exact absurd impossible (by simp)

end PsInfo

end Bk7251.PowerSave
