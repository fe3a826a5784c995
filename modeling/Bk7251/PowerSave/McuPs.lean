import Bk7251.Clock.FakeClock
import Bk7251.Lib.Elapsed

/-!
# MCU power save

`func/power_save/mcu_ps.c` as built for the BK7221U with FreeRTOS: the sleep of the MCU between ticks, and the
two corrections of the fake clock, by the MAC's timer and by the TSF in the beacons. What is read from the
hardware (the MAC timer, the cause of a wake-up, the state of the radio) is an input. The scheduler is left out.
-/
namespace Bk7251.PowerSave

open Lib Clock

/-- A word taken for an `int`. -/
def int32 (w : UInt32) : Int := if w.toNat < 2 ^ 31 then w.toNat else w.toNat - 2 ^ 32

/-- The clock, `mcu_ps_info`, `mcu_ps_tsf_save`, `mcu_ps_machw_save` and `increase_tick`. -/
structure McuPs where
  clock : FakeClock
  mcuPsOn : UInt8
  periBusyCount : UInt32
  mcuPrevent : UInt32
  firstTick : UInt32
  firstTsf : UInt64
  fclkTick : UInt32
  machwTm : UInt32
  increaseTick : Int

namespace McuPs

variable (s : McuPs)

/-- The fake clock in milliseconds, which wraps in 32 bits. -/
def fclk : UInt32 := BK_TICKS_TO_MS s.clock.fclkGetTick

/-- `fclk_update_tick`, which also steps the scheduler. -/
def fclkUpdateTick (tick : UInt32) : McuPs := { s with clock := s.clock.fclkFreertosUpdateTick tick }

/-- `mcu_ps_machw_reset` -/
def mcuPsMachwReset : McuPs := { s with fclkTick := 0, machwTm := 0 }

/-- `mcu_ps_machw_init` -/
def mcuPsMachwInit (machwTime : UInt32) : McuPs := { s with fclkTick := s.fclk, machwTm := machwTime }

/-- `mcu_ps_increase_clr` -/
def mcuPsIncreaseClr : McuPs := { s with increaseTick := 0 }

/-- `mcu_ps_cal_increase_tick`: the new state and the corrected `*lost_p`. -/
def mcuPsCalIncreaseTick (lostP : UInt32) : McuPs × UInt32 :=
  let lost := int32 lostP
  if lost ≤ 0 ∨ s.increaseTick = 0 then (s, lostP)
  else
    let increaseTick := if s.increaseTick < -5000 ∨ s.increaseTick > 5000 then 0 else s.increaseTick
    let lost := lost + increaseTick
    if lost < 0 then ({ s with increaseTick := lost }, 0)
    else ({ s with increaseTick := 0 }, UInt32.ofInt lost)

/-! ### By the timer of the MAC -/

/-- `lost` of `mcu_ps_machw_cal`; none where it starts anew without comparing the clocks. -/
def machwLost (machw : UInt32) : Option UInt32 :=
  if s.machwTm = 0 ∨ s.machwTm = 0xdead5555 then none
  else
    let tmp1 := handDiff s.machwTm machw
    if machw < s.machwTm ∧ (tmp1 > 5000000 ∨ s.machwTm < 0xFF000000) then none
    else
      let tmp2 := handDiff s.fclkTick s.fclk
      let tmp1 := tmp1 / 1000
      -- the smaller of the two is taken away in the way of a wrap
      some (handDiff tmp2 tmp1)

/-- `mcu_ps_machw_cal`, with the time it reads and the time that `mcu_ps_machw_init` reads. -/
def mcuPsMachwCal (machw machw' : UInt32) : McuPs :=
  match s.machwLost machw with
  | none => s.mcuPsMachwInit machw'
  | some lost =>
    if lost < (0xFFFFFFFF : UInt32) >>> 1 ∧ lost > 0 then
      if lost > 5000 then s.mcuPsMachwInit machw'
      else
        let r := s.mcuPsCalIncreaseTick lost
        (r.1.fclkUpdateTick (BK_MS_TO_TICKS r.2)).mcuPsMachwInit machw'
    else s

/-! ### By the TSF -/

/-- `loss` of `mcu_ps_tsf_cal`, cut to 32 bits; none where it starts anew without comparing the clocks. -/
def tsfLoss (tsf : UInt64) : Option UInt32 :=
  if tsf = 0 ∨ s.firstTsf = 0 then none
  else if tsf < s.firstTsf then none
  else
    let tmp1 := tsf - s.firstTsf
    let tmp2 := handDiff s.firstTick s.fclk
    let tmp1 := tmp1 / 1000
    let loss :=
      if tmp1 < tmp2.toUInt64 then 0xFFFFFFFFFFFFFFFF - tmp2.toUInt64 + tmp1 else tmp1 - tmp2.toUInt64
    some loss.toUInt32

/-- The end of `mcu_ps_tsf_cal` at `TFS_RESET`. -/
def tsfReset (tsf : UInt64) : McuPs := { s with firstTsf := tsf, firstTick := s.fclk }

/-- `mcu_ps_tsf_cal`, with the time that `mcu_ps_machw_init` reads. -/
def mcuPsTsfCal (tsf : UInt64) (machw : UInt32) : McuPs :=
  match s.tsfLoss tsf with
  | none => s.tsfReset tsf
  | some word =>
    let loss := int32 word
    -- behind a wrap of the clock the comparison starts from here
    let s := if s.fclk < s.firstTick then { s with firstTick := s.fclk, firstTsf := tsf } else s
    if loss > 0 then
      if loss > 5000 then s.tsfReset tsf
      else { (s.fclkUpdateTick (BK_MS_TO_TICKS word)).mcuPsMachwInit machw with increaseTick := 0 }
    else if loss < 0 then
      if loss < -50000 then s.tsfReset tsf else { s with increaseTick := loss }
    else s

end McuPs

/-! ### The sleep -/

/-- What `mcu_power_save` finds: whether `txl_sleep_check` lets it sleep, the cause of the wake-up, whether the
PWM's interrupt is pending, whether the radio sleeps, and the two readings of the MAC timer. -/
structure WakeUp where
  txlSleepCheck : Bool
  wkupType : UInt32
  pwm0IntStatus : Bool
  rfSleep : Bool
  machw : UInt32
  machw' : UInt32
deriving DecidableEq

namespace McuPs

variable (s : McuPs) (w : WakeUp)

/-- The time to sleep in periods of the 32 kHz clock, where the MCU goes to sleep at all. -/
def sleepPwmT (sleepTick : UInt32) : Option UInt32 :=
  let sleepMs := BK_TICKS_TO_MS sleepTick
  if sleepMs ≤ 2 then none
  else
    let sleepMs := sleepMs - FCLK_DURATION_MS
    let sleepPwmT := sleepMs * 32
    if int32 sleepPwmT ≤ 64 then none
    else some (if sleepPwmT < 64 then 64 else sleepPwmT)

/-- The checks in front of the sleep. -/
def maySleep : Bool := s.mcuPsOn = 1 ∧ s.periBusyCount = 0 ∧ s.mcuPrevent = 0 ∧ w.txlSleepCheck

/-- What follows the wake-up: the state and `miss_ticks`. -/
def wake (sleepPwmT : UInt32) : McuPs × UInt32 :=
  let uartMissUs : UInt32 := 0
  let wastage : UInt32 := if w.wkupType = 1 then 24 else 0
  let r :=
    if w.pwm0IntStatus then (s, (sleepPwmT + (uartMissUs >>> 5) + wastage) / (FCLK_DURATION_MS * 32))
    else if !w.rfSleep then (s.mcuPsMachwCal w.machw w.machw', 0)
    else (s, ((uartMissUs >>> 5) + wastage) / (FCLK_DURATION_MS * 32))
  -- for the early wake-up
  (r.1, r.2 + FCLK_DURATION_MS)

/-- The time the MCU sleeps, if it does. -/
def slept (sleepTick : UInt32) : Option UInt32 := if s.maySleep w then sleepPwmT sleepTick else none

/-- `mcu_power_save`: the state and the returned ticks. -/
def mcuPowerSave (sleepTick : UInt32) : McuPs × UInt32 :=
  let r :=
    match s.slept w sleepTick with
    | some sleepPwmT => s.wake w sleepPwmT
    | none => (s, 0)
  r.1.mcuPsCalIncreaseTick r.2

end McuPs

/-! ### Words as integers -/

theorem int32_of_lt {w : UInt32} (small : w.toNat < 2 ^ 31) : int32 w = w.toNat := if_pos small

/-- The one number with the word's remainder between `-2 ^ 31` and `2 ^ 31`. -/
theorem int32_spec (w : UInt32) : int32 w % 2 ^ 32 = w.toNat ∧ -2 ^ 31 ≤ int32 w ∧ int32 w < 2 ^ 31 := by
  have bound := w.toNat_lt
  rw [int32]
  split <;> omega

/-! ### The correction by the drift -/

/-- The drift that `mcu_ps_cal_increase_tick` takes into account. -/
def usedDrift (increaseTick : Int) : Int := if increaseTick < -5000 ∨ increaseTick > 5000 then 0 else increaseTick

theorem usedDrift_bounds (increaseTick : Int) :
    -5000 ≤ usedDrift increaseTick ∧ usedDrift increaseTick ≤ 5000 := by
  rw [usedDrift]
  split <;> omega

theorem usedDrift_nonpos {increaseTick : Int} (nonpos : increaseTick ≤ 0) : usedDrift increaseTick ≤ 0 := by
  rw [usedDrift]
  split <;> omega

/-- A drift within the bounds is used as it is. -/
theorem usedDrift_of_le {increaseTick : Int} (low : -5000 ≤ increaseTick) (high : increaseTick ≤ 5000) :
    usedDrift increaseTick = increaseTick := by
  apply if_neg
  omega

namespace McuPs

variable {s : McuPs}

theorem mcuPsCalIncreaseTick_eq (s : McuPs) (lost : UInt32) :
    s.mcuPsCalIncreaseTick lost =
      if int32 lost ≤ 0 ∨ s.increaseTick = 0 then (s, lost)
      else if int32 lost + usedDrift s.increaseTick < 0 then
        ({ s with increaseTick := int32 lost + usedDrift s.increaseTick }, 0)
      else ({ s with increaseTick := 0 }, UInt32.ofInt (int32 lost + usedDrift s.increaseTick)) := rfl

theorem mcuPsCalIncreaseTick_zero (s : McuPs) : s.mcuPsCalIncreaseTick 0 = (s, 0) := by
  rw [mcuPsCalIncreaseTick_eq]
  exact if_pos (.inl (Int.le_refl 0))

theorem mcuPsCalIncreaseTick_clock (lost : UInt32) : (s.mcuPsCalIncreaseTick lost).1.clock = s.clock := by
  rw [mcuPsCalIncreaseTick_eq]
  split
  · rfl
  · split
    · rfl
    · rfl

/-- What comes out is the sum, and nothing less than zero; the rest is the drift from then on. -/
theorem mcuPsCalIncreaseTick_spec {lost : UInt32} (pos : 0 < lost.toNat) (small : lost.toNat + 5000 < 2 ^ 31) :
    ((s.mcuPsCalIncreaseTick lost).2.toNat : Int) = max 0 (lost.toNat + usedDrift s.increaseTick) ∧
      (s.mcuPsCalIncreaseTick lost).1.increaseTick = min 0 (lost.toNat + usedDrift s.increaseTick) := by
  have word : int32 lost = lost.toNat := int32_of_lt (by omega)
  obtain ⟨low, high⟩ := usedDrift_bounds s.increaseTick
  rw [mcuPsCalIncreaseTick_eq, word]
  by_cases settled : s.increaseTick = 0
  · rw [if_pos (.inr settled), settled]
    have none : usedDrift 0 = 0 := rfl
    rw [none]
    dsimp only
    omega
  · have drifts : ¬((lost.toNat : Int) ≤ 0 ∨ s.increaseTick = 0) := by
      rintro (none | zero)
      · omega
      · exact settled zero
    rw [if_neg drifts]
    split
    -- more drift than ticks: the rest of it is kept
    next negative =>
      have zero : (0 : UInt32).toNat = 0 := rfl
      dsimp only
      rw [zero]
      omega
    next =>
      dsimp only
      rw [UInt32.ofInt, UInt32.toNat_ofNat']
      omega

end McuPs

end Bk7251.PowerSave
