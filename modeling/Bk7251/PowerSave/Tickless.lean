import Bk7251.PowerSave.LostTicks

/-!
# How long a sleep is made to have been

`mcu_power_save` tells the scheduler how many ticks it missed. It goes to sleep two milliseconds less than it was
asked to, and gives two ticks back for them.
-/
namespace Bk7251.PowerSave

open Lib Clock

namespace McuPs

/-- The MAC timer is found ahead of the clock by up to five seconds. -/
def Behind (s : McuPs) (machw : UInt32) : Prop := ∃ lost, s.machwLost machw = some lost ∧ 0 < lost ∧ lost ≤ 5000

/-- By how much the MAC timer is then found ahead. -/
def behindBy (s : McuPs) (machw : UInt32) : Nat :=
  match s.machwLost machw with
  | some lost => if 0 < lost ∧ lost ≤ 5000 then lost.toNat else 0
  | none => 0

/-- What a wake-up has to make up for, in ticks: the periods of the 32 kHz clock that were slept, and those of the
early wake-up. -/
def missedTicks (w : WakeUp) (sleepPwmT : UInt32) : Nat :=
  let period := 32
  let wastage := if w.wkupType = 1 then 24 else 0
  let slept :=
    if w.pwm0IntStatus then sleepPwmT.toNat + wastage
    else if w.rfSleep then wastage
    else 0
  (slept + FCLK_DURATION_MS.toNat * period) / (FCLK_DURATION_MS.toNat * period)

/-- No more is returned than was asked for, nothing without a sleep, and the ticks that are missed, corrected by
the drift, with one. -/
structure NeverOvershoots (s : McuPs) (w : WakeUp) (sleepTick : UInt32) : Prop where
  slept : s.slept w sleepTick ≠ none → (s.mcuPowerSave w sleepTick).2 ≤ sleepTick
  awake : s.slept w sleepTick = none → (s.mcuPowerSave w sleepTick).2 = 0
  converted : ∀ sleepPwmT, s.slept w sleepTick = some sleepPwmT →
    ((s.mcuPowerSave w sleepTick).2.toNat : Int) =
      max 0 (missedTicks w sleepPwmT + usedDrift (s.wake w sleepPwmT).1.increaseTick)

/-- The ticks that the full sleep is taken for. -/
def fullTicks (sleepTick : UInt32) : Nat := (sleepTick.toNat - 1) % 2 ^ 26

/-- Where the ticks fit, by what ended the sleep. -/
def Fits (s : McuPs) (w : WakeUp) (sleepTick : UInt32) : Prop :=
  if w.pwm0IntStatus then fullTicks sleepTick + 2 + usedDrift s.increaseTick ≤ sleepTick.toNat
  else w.rfSleep = false ∧ s.Behind w.machw ∨ 2 + usedDrift s.increaseTick ≤ sleepTick.toNat

/-- Where the drift takes everything off, so that the tick too many makes no difference. -/
def Settles (s : McuPs) (w : WakeUp) (sleepTick : UInt32) : Prop :=
  let missed :=
    if w.pwm0IntStatus then fullTicks sleepTick
    else if w.rfSleep then 0
    else s.behindBy w.machw
  missed + 2 + usedDrift s.increaseTick ≤ 0

variable {s : McuPs} {w : WakeUp} {sleepTick : UInt32}

/-! ### The correction by the drift -/

/-- A drift that was used is gone, or what is left of it is negative. -/
theorem mcuPsCalIncreaseTick_drift {lost : UInt32} (pos : 0 < int32 lost) :
    (s.mcuPsCalIncreaseTick lost).1.increaseTick ≤ 0 := by
  rw [mcuPsCalIncreaseTick_eq]
  split
  next early =>
    rcases early with none | zero
    · exact absurd none (Int.not_le.mpr pos)
    · exact Int.le_of_eq zero
  next =>
    split
    next negative => exact Int.le_of_lt negative
    next => exact Int.le_refl 0

theorem mcuPsMachwCal_behind {machw : UInt32} (machw' : UInt32) (behind : s.Behind machw) :
    (s.mcuPsMachwCal machw machw').increaseTick = min 0 (s.behindBy machw + usedDrift s.increaseTick) := by
  obtain ⟨lost, result, pos, small⟩ := behind
  have value : s.behindBy machw = lost.toNat := by
    rw [behindBy, result]
    exact if_pos ⟨pos, small⟩
  rw [value]
  exact (machwCal_spec machw' lost result (UInt32.lt_iff_toNat_lt.mp pos) (UInt32.le_iff_toNat_le.mp small)).2

theorem mcuPsMachwCal_drift_of_behind {machw : UInt32} (machw' : UInt32) (behind : s.Behind machw) :
    (s.mcuPsMachwCal machw machw').increaseTick ≤ 0 := by
  rw [mcuPsMachwCal_behind machw' behind]
  exact Int.min_le_left 0 _

theorem mcuPsMachwCal_not_behind {machw : UInt32} (machw' : UInt32) (ahead : ¬s.Behind machw) :
    (s.mcuPsMachwCal machw machw').increaseTick = s.increaseTick ∧ s.behindBy machw = 0 := by
  constructor
  · refine (machwCal_nothing machw machw' fun lost result range => ahead ⟨lost, result, ?_, ?_⟩).2
    · exact UInt32.lt_iff_toNat_lt.mpr range.1
    · exact UInt32.le_iff_toNat_le.mpr range.2
  · rw [behindBy]
    split
    next lost result => exact if_neg fun range => ahead ⟨lost, result, range⟩
    next => rfl

theorem behindBy_le (s : McuPs) (machw : UInt32) : s.behindBy machw ≤ 5000 := by
  rw [behindBy]
  split
  next =>
    split
    next range => exact UInt32.le_iff_toNat_le.mp range.2
    next => exact Nat.zero_le 5000
  next => exact Nat.zero_le 5000

/-! ### The length of the sleep -/

/-- The sleep in periods of the 32 kHz clock is a whole number of ticks, one less than asked for. -/
theorem sleepPwmT_spec {p : UInt32} (sleeps : sleepPwmT sleepTick = some p) :
    p.toNat = 64 * fullTicks sleepTick ∧ p.toNat < 2 ^ 31 ∧ 2 ≤ fullTicks sleepTick := by
  have two : (2 : UInt32).toNat = 2 := rfl
  have periods : (32 : UInt32).toNat = 32 := rfl
  rw [sleepPwmT] at sleeps
  split at sleeps
  next => cases sleeps
  next long =>
    have more : 2 < (BK_TICKS_TO_MS sleepTick).toNat := UInt32.lt_iff_toNat_lt.mp (UInt32.not_le.mp long)
    have ms : (BK_TICKS_TO_MS sleepTick).toNat = sleepTick.toNat * 2 % 2 ^ 32 := UInt32.toNat_mul _ _
    have early : (BK_TICKS_TO_MS sleepTick - FCLK_DURATION_MS).toNat = (BK_TICKS_TO_MS sleepTick).toNat - 2 :=
      toNat_sub _ _ (Nat.le_of_lt more)
    have count : ((BK_TICKS_TO_MS sleepTick - FCLK_DURATION_MS) * 32).toNat = 64 * fullTicks sleepTick := by
      rw [UInt32.toNat_mul, early, ms, periods, fullTicks]
      omega
    dsimp only at sleeps
    generalize (BK_TICKS_TO_MS sleepTick - FCLK_DURATION_MS) * 32 = q at sleeps count
    split at sleeps
    next => cases sleeps
    next enough =>
      -- a count that is negative as an `int` is turned down as well
      rw [int32] at enough
      split at enough
      next small =>
        have sixtyFour : (64 : UInt32).toNat = 64 := rfl
        have least : ¬q < 64 := by
          rw [UInt32.lt_iff_toNat_lt, sixtyFour]
          omega
        rw [if_neg least] at sleeps
        obtain rfl := Option.some.inj sleeps
        omega
      next big =>
        have bound := q.toNat_lt
        omega

theorem fullTicks_lt (sleepTick : UInt32) (some : 2 ≤ fullTicks sleepTick) : fullTicks sleepTick < sleepTick.toNat := by
  rw [fullTicks] at *
  omega

/-- What `wake` hands to the correction. -/
theorem wake_spec {p : UInt32} (sleeps : sleepPwmT sleepTick = some p) :
    (s.wake w p).2.toNat = (if w.pwm0IntStatus then fullTicks sleepTick else 0) + 2 ∧
      (s.wake w p).1 =
        if w.pwm0IntStatus ∨ w.rfSleep then s else s.mcuPsMachwCal w.machw w.machw' := by
  obtain ⟨count, small, -⟩ := sleepPwmT_spec sleeps
  have two : FCLK_DURATION_MS.toNat = 2 := rfl
  have unit : (FCLK_DURATION_MS * 32).toNat = 64 := rfl
  have shifted : (0 : UInt32) >>> 5 = 0 := rfl
  have wastage : (if w.wkupType = 1 then (24 : UInt32) else 0).toNat ≤ 24 := by
    split
    · exact Nat.le_refl 24
    · exact Nat.zero_le 24
  rw [wake]
  generalize (if w.wkupType = 1 then (24 : UInt32) else 0) = waste at wastage
  dsimp only
  rw [shifted]
  cases int : w.pwm0IntStatus with
  | true =>
    refine ⟨?_, by simp⟩
    have sum : (p + 0 + waste).toNat = p.toNat + waste.toNat := by
      rw [UInt32.add_zero]
      apply toNat_add
      omega
    -- the count is whole ticks, so the wastage of 24 periods makes no tick
    have quotient : ((p + 0 + waste) / (FCLK_DURATION_MS * 32)).toNat = fullTicks sleepTick := by
      rw [UInt32.toNat_div, sum, unit, count]
      omega
    simp only [if_true]
    rw [toNat_add, quotient, two]
    rw [quotient, two]
    omega
  | false =>
    -- without the interrupt the wastage is all there is
    have none : ((0 + waste) / (FCLK_DURATION_MS * 32)).toNat = 0 := by
      rw [UInt32.toNat_div, UInt32.zero_add, unit]
      omega
    cases rf : w.rfSleep with
    | true =>
      refine ⟨?_, by simp⟩
      simp only [Bool.false_eq_true, Bool.not_true, if_false]
      rw [toNat_add, none, two]
      rw [none, two]
      omega
    | false =>
      refine ⟨rfl, by simp⟩

theorem sleepPwmT_of_slept {p : UInt32} (slept : s.slept w sleepTick = some p) : sleepPwmT sleepTick = some p := by
  rw [McuPs.slept] at slept
  split at slept
  next => exact slept
  next => cases slept

theorem mcuPowerSave_none (awake : s.slept w sleepTick = none) : s.mcuPowerSave w sleepTick = (s, 0) := by
  rw [mcuPowerSave, awake]
  exact mcuPsCalIncreaseTick_zero s

/-- What is returned behind a sleep. -/
theorem mcuPowerSave_some {p : UInt32} (slept : s.slept w sleepTick = some p) :
    ((s.mcuPowerSave w sleepTick).2.toNat : Int) =
      max 0 (((if w.pwm0IntStatus then fullTicks sleepTick else 0 : Nat) : Int) + 2 +
        usedDrift (s.wake w p).1.increaseTick) := by
  have sleeps := sleepPwmT_of_slept slept
  obtain ⟨count, small, -⟩ := sleepPwmT_spec sleeps
  obtain ⟨missed, -⟩ := wake_spec (s := s) (w := w) sleeps
  have bound : (if w.pwm0IntStatus then fullTicks sleepTick else 0) ≤ fullTicks sleepTick := by
    split
    · exact Nat.le_refl _
    · exact Nat.zero_le _
  rw [mcuPowerSave, slept]
  dsimp only
  rw [(mcuPsCalIncreaseTick_spec _ _).1, missed]
  · push_cast
    rfl
  · omega
  · omega

theorem slept_fits_iff {p : UInt32} (slept : s.slept w sleepTick = some p) :
    (s.mcuPowerSave w sleepTick).2 ≤ sleepTick ↔ s.Fits w sleepTick := by
  have sleeps := sleepPwmT_of_slept slept
  obtain ⟨-, -, several⟩ := sleepPwmT_spec sleeps
  have longer := fullTicks_lt sleepTick several
  have value := mcuPowerSave_some slept
  have state := (wake_spec (s := s) (w := w) sleeps).2
  rw [UInt32.le_iff_toNat_le, Fits]
  cases int : w.pwm0IntStatus with
  | true =>
    rw [int] at value state
    rw [state] at value
    simp only [if_true, true_or] at value ⊢
    omega
  | false =>
    rw [int] at value state
    cases rf : w.rfSleep with
    | true =>
      rw [rf] at state
      rw [state] at value
      simp only [Bool.false_eq_true, if_false, false_or, or_true, if_true, Bool.true_eq_false, false_and] at value ⊢
      omega
    | false =>
      rw [rf] at state
      simp only [Bool.false_eq_true, if_false, or_self] at state
      rw [state] at value
      simp only [Bool.false_eq_true, if_false, true_and] at value ⊢
      -- the MAC timer may use up the drift first
      by_cases behind : s.Behind w.machw
      · have nonpos := usedDrift_nonpos (mcuPsMachwCal_drift_of_behind w.machw' behind)
        refine iff_of_true ?_ (.inl behind)
        omega
      · rw [(mcuPsMachwCal_not_behind w.machw' behind).1] at value
        constructor
        · intro le
          refine .inr ?_
          omega
        · intro fits
          have rest := fits.resolve_left behind
          omega

/-- In one unit the early wake-up is one tick. -/
theorem missedTicks_eq {p : UInt32} (sleeps : sleepPwmT sleepTick = some p) :
    missedTicks w p = (if w.pwm0IntStatus then fullTicks sleepTick else 0) + 1 := by
  obtain ⟨count, -, -⟩ := sleepPwmT_spec sleeps
  have two : FCLK_DURATION_MS.toNat = 2 := rfl
  have wastage : (if w.wkupType = 1 then 24 else 0) ≤ 24 := by
    split
    · exact Nat.le_refl 24
    · exact Nat.zero_le 24
  rw [missedTicks, two, count]
  generalize (if w.wkupType = 1 then 24 else 0) = waste at wastage
  split
  · omega
  · split
    · omega
    · omega

/-- Nothing is left for the scheduler where the drift takes it all. -/
theorem settles_iff {p : UInt32} (slept : s.slept w sleepTick = some p) :
    ((if w.pwm0IntStatus then fullTicks sleepTick else 0 : Nat) : Int) + 2 +
      usedDrift (s.wake w p).1.increaseTick ≤ 0 ↔ s.Settles w sleepTick := by
  have state := (wake_spec (s := s) (w := w) (sleepPwmT_of_slept slept)).2
  rw [Settles]
  cases int : w.pwm0IntStatus with
  | true =>
    rw [int] at state
    simp only [true_or, if_true] at state ⊢
    rw [state]
  | false =>
    rw [int] at state
    cases rf : w.rfSleep with
    | true =>
      rw [rf] at state
      simp only [or_true, if_true] at state
      simp only [Bool.false_eq_true, if_false, if_true]
      rw [state]
    | false =>
      rw [rf] at state
      simp only [Bool.false_eq_true, if_false, or_self] at state ⊢
      rw [state]
      -- what the MAC timer makes up for is taken off the drift first
      by_cases behind : s.Behind w.machw
      · have bounds := usedDrift_bounds s.increaseTick
        have most := behindBy_le s w.machw
        have kept : usedDrift (min 0 (s.behindBy w.machw + usedDrift s.increaseTick)) =
            min 0 (s.behindBy w.machw + usedDrift s.increaseTick) := usedDrift_of_le (by omega) (by omega)
        rw [mcuPsMachwCal_behind w.machw' behind, kept]
        omega
      · obtain ⟨kept, none⟩ := mcuPsMachwCal_not_behind w.machw' behind
        rw [kept, none]

theorem slept_converted_iff {p : UInt32} (slept : s.slept w sleepTick = some p) :
    ((s.mcuPowerSave w sleepTick).2.toNat : Int) =
        max 0 (missedTicks w p + usedDrift (s.wake w p).1.increaseTick) ↔ s.Settles w sleepTick := by
  rw [mcuPowerSave_some slept, missedTicks_eq (sleepPwmT_of_slept slept), ← settles_iff slept]
  omega

/-! ### Runs -/

/-- The functions that touch the drift or the readings, and the tick. -/
inductive McuPsOp where
  | hdl
  | machwReset
  | machwInit (machwTime : UInt32)
  | increaseClr
  | machwCal (machw machw' : UInt32)
  | tsfCal (tsf : UInt64) (machw : UInt32)
  | powerSave (w : WakeUp) (sleepTick : UInt32)
deriving DecidableEq

def step (s : McuPs) : McuPsOp → McuPs
  | .hdl => { s with clock := s.clock.fclkHdl }
  | .machwReset => s.mcuPsMachwReset
  | .machwInit machwTime => s.mcuPsMachwInit machwTime
  | .increaseClr => s.mcuPsIncreaseClr
  | .machwCal machw machw' => s.mcuPsMachwCal machw machw'
  | .tsfCal tsf machw => s.mcuPsTsfCal tsf machw
  | .powerSave w sleepTick => (s.mcuPowerSave w sleepTick).1

theorem mcuPsMachwCal_drift (machw machw' : UInt32) (nonpos : s.increaseTick ≤ 0) :
    (s.mcuPsMachwCal machw machw').increaseTick ≤ 0 := by
  by_cases behind : s.Behind machw
  · exact mcuPsMachwCal_drift_of_behind machw' behind
  · rw [(mcuPsMachwCal_not_behind machw' behind).1]
    exact nonpos

theorem wake_drift (w : WakeUp) (p : UInt32) (nonpos : s.increaseTick ≤ 0) :
    (s.wake w p).1.increaseTick ≤ 0 := by
  rw [wake]
  dsimp only
  split
  · exact nonpos
  · split
    · exact mcuPsMachwCal_drift w.machw w.machw' nonpos
    · exact nonpos

theorem mcuPsTsfCal_drift (tsf : UInt64) (machw : UInt32) (nonpos : s.increaseTick ≤ 0) :
    (s.mcuPsTsfCal tsf machw).increaseTick ≤ 0 := by
  have moved : (if s.fclk < s.firstTick then { s with firstTick := s.fclk, firstTsf := tsf } else s).increaseTick =
      s.increaseTick := by
    split
    · rfl
    · rfl
  rw [mcuPsTsfCal]
  split
  next => exact nonpos
  next word result =>
    dsimp only
    generalize (if s.fclk < s.firstTick then { s with firstTick := s.fclk, firstTsf := tsf } else s) = t at moved
    split
    · split
      · exact Int.le_trans (Int.le_of_eq moved) nonpos
      · exact Int.le_refl 0
    · split
      next negative =>
        split
        · exact Int.le_trans (Int.le_of_eq moved) nonpos
        · exact Int.le_of_lt negative
      next => exact Int.le_trans (Int.le_of_eq moved) nonpos

theorem mcuPsCalIncreaseTick_nonpos (lost : UInt32) (nonpos : s.increaseTick ≤ 0) :
    (s.mcuPsCalIncreaseTick lost).1.increaseTick ≤ 0 := by
  by_cases pos : 0 < int32 lost
  · exact mcuPsCalIncreaseTick_drift pos
  · rw [mcuPsCalIncreaseTick_eq, if_pos (.inl (Int.not_lt.mp pos))]
    exact nonpos

theorem step_drift (op : McuPsOp) (nonpos : s.increaseTick ≤ 0) : (s.step op).increaseTick ≤ 0 := by
  cases op with
  | hdl => exact nonpos
  | machwReset => exact nonpos
  | machwInit machwTime => exact nonpos
  | increaseClr => exact Int.le_refl 0
  | machwCal machw machw' => exact mcuPsMachwCal_drift machw machw' nonpos
  | tsfCal tsf machw => exact mcuPsTsfCal_drift tsf machw nonpos
  | powerSave w sleepTick =>
    apply mcuPsCalIncreaseTick_nonpos
    split
    next p _ => exact wake_drift w p nonpos
    next => exact nonpos

/-- No run makes the drift positive. -/
theorem foldl_drift (ops : List McuPsOp) (nonpos : s.increaseTick ≤ 0) : (ops.foldl step s).increaseTick ≤ 0 := by
  induction ops generalizing s with
  | nil => exact nonpos
  | cons op ops ih =>
    rw [List.foldl_cons]
    exact ih (step_drift op nonpos)

/-- So in a run only a sleep that the PWM has ended can be overshot, and only by one tick. -/
theorem foldl_overshoots (ops : List McuPsOp) (nonpos : s.increaseTick ≤ 0) (w : WakeUp) (sleepTick : UInt32) :
    let t := ops.foldl step s
    (¬(t.mcuPowerSave w sleepTick).2 ≤ sleepTick →
      w.pwm0IntStatus ∧ (t.mcuPowerSave w sleepTick).2.toNat = sleepTick.toNat + 1) := by
  intro t exceeds
  -- without a positive drift only the two ticks too many are left
  have settled : t.increaseTick ≤ 0 := foldl_drift ops nonpos
  cases slept : t.slept w sleepTick with
  | none =>
    rw [mcuPowerSave_none slept] at exceeds
    exact absurd UInt32.zero_le exceeds
  | some p =>
    obtain ⟨-, -, several⟩ := sleepPwmT_spec (sleepPwmT_of_slept slept)
    have longer := fullTicks_lt sleepTick several
    have value := mcuPowerSave_some slept
    have drift := usedDrift_nonpos (wake_drift w p settled)
    rw [UInt32.le_iff_toNat_le] at exceeds
    cases int : w.pwm0IntStatus with
    | true =>
      rw [int] at value
      simp only [if_true] at value
      refine ⟨rfl, ?_⟩
      omega
    | false =>
      rw [int] at value
      simp only [Bool.false_eq_true, if_false] at value
      omega

end McuPs

open McuPs

/-- Alone the bound holds where the ticks of the sleep with two more and the drift fit. -/
theorem bounded_iff (s : McuPs) (w : WakeUp) (sleepTick : UInt32) :
    (s.mcuPowerSave w sleepTick).2 ≤ sleepTick ↔ s.slept w sleepTick = none ∨ s.Fits w sleepTick := by
  cases slept : s.slept w sleepTick with
  | none =>
    rw [mcuPowerSave_none slept]
    exact iff_of_true UInt32.zero_le (.inl rfl)
  | some p =>
    rw [slept_fits_iff slept]
    constructor
    · exact .inr
    · rintro (none | fits)
      · cases none
      · exact fits

/-- The scheduler is told of the ticks it missed, and of no more than it asked for, exactly where the MCU does not
sleep at all, or the drift takes everything off. -/
theorem never_overshoots_iff (s : McuPs) (w : WakeUp) (sleepTick : UInt32) :
    s.NeverOvershoots w sleepTick ↔ s.slept w sleepTick = none ∨ s.Settles w sleepTick := by
  cases slept : s.slept w sleepTick with
  | none =>
    have nothing := mcuPowerSave_none slept
    refine iff_of_true ⟨fun sleeps => absurd slept sleeps, fun _ => ?_, fun p sleeps => ?_⟩ (.inl rfl)
    · rw [nothing]
    · rw [slept] at sleeps
      cases sleeps
  | some p =>
    constructor
    · intro never
      exact .inr ((slept_converted_iff slept).mp (never.converted p slept))
    · rintro (none | settles)
      · cases none
      · have converted := (slept_converted_iff slept).mpr settles
        have value := mcuPowerSave_some slept
        have nothing := (settles_iff slept).mpr settles
        refine ⟨fun _ => ?_, fun none => ?_, fun q sleeps => ?_⟩
        · rw [UInt32.le_iff_toNat_le]
          omega
        · rw [slept] at none
          cases none
        · obtain rfl := Option.some.inj (slept.symm.trans sleeps)
          exact converted

/-- A sleep of ten ticks to its end is taken for eleven. -/
theorem never_overshoots_fails :
    ¬McuPs.NeverOvershoots ⟨⟨0, 0, 500⟩, 1, 0, 0, 0, 0, 0, 0, 0⟩ ⟨true, 0, true, true, 0, 0⟩ 10 := by
  intro never
  exact absurd (never.slept (by decide)) (by decide)

end Bk7251.PowerSave
