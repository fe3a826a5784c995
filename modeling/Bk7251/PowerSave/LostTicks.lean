import Bk7251.PowerSave.McuPs

/-!
# Ticks that were lost

What `mcu_ps_machw_cal` and `mcu_ps_tsf_cal` make of the time that the fake clock is behind. Each distance that
spans a wrap is counted one short, and so is each negative difference; and the clock moves by whole ticks.
-/
namespace Bk7251.PowerSave

open Lib Clock

namespace McuPs

variable (s : McuPs)

/-- The milliseconds on the MAC timer since the clocks were read together. -/
def machwElapsed (machw : UInt32) : UInt32 := (machw - s.machwTm) / 1000

/-- The milliseconds on the fake clock since then. -/
def fclkElapsed (before : UInt32) : UInt32 := s.fclk - before

/-- The milliseconds of the TSF since the clocks were read together. -/
def tsfElapsed (tsf : UInt64) : UInt64 := (tsf - s.firstTsf) / 1000

/-- By how much the fake clock is behind the MAC timer, modulo the wrap. -/
def machwDiff (machw : UInt32) : Int := int32 (s.machwElapsed machw - s.fclkElapsed s.fclkTick)

/-- By how much it is behind the TSF. -/
def tsfDiff (tsf : UInt64) : Int := int32 ((s.tsfElapsed tsf).toUInt32 - s.fclkElapsed s.firstTick)

/-- The milliseconds that the fake clock is moved by. -/
def advance (s' : McuPs) : Int := int32 (s'.fclk - s.fclk)

/-- Where the clocks have been read before, the clock is moved by what it is behind, less what goes to the
drift. -/
def MachwRight (machw machw' : UInt32) : Prop :=
  s.machwTm ≠ 0 → s.machwTm ≠ 0xdead5555 →
    let s' := s.mcuPsMachwCal machw machw'
    s.advance s' + (usedDrift s'.increaseTick - usedDrift s.increaseTick) = s.machwDiff machw

/-- The same for the TSF, whose difference replaces the drift where it is negative. -/
def TsfRight (tsf : UInt64) (machw : UInt32) : Prop :=
  tsf ≠ 0 → s.firstTsf ≠ 0 →
    let s' := s.mcuPsTsfCal tsf machw
    if s.tsfDiff tsf < 0 then s.advance s' = 0 ∧ s'.increaseTick = s.tsfDiff tsf
    else s.advance s' = s.tsfDiff tsf ∧ (s'.increaseTick = 0 ∨ s'.increaseTick = s.increaseTick)

/-- The MAC timer has wrapped, and after a whole number of milliseconds. -/
def MachwShort (machw : UInt32) : Prop := machw < s.machwTm ∧ 1000 ∣ (machw - s.machwTm).toNat

/-- The fake clock has wrapped. -/
def FclkShort (before : UInt32) : Prop := s.fclk < before

instance (machw : UInt32) : Decidable (s.MachwShort machw) := by
  unfold MachwShort
  infer_instance

instance (before : UInt32) : Decidable (s.FclkShort before) := by
  unfold FclkShort
  infer_instance

/-- By how much the cases taken apart by hand miss the difference. -/
def machwError (machw : UInt32) : Int :=
  let w := (decide (s.FclkShort s.fclkTick)).toNat
  let m := (decide (s.MachwShort machw)).toNat
  w - m - (decide ((s.machwElapsed machw).toNat + w < (s.fclkElapsed s.fclkTick).toNat + m)).toNat

def tsfError (tsf : UInt64) : Int :=
  let w := (decide (s.FclkShort s.firstTick)).toNat
  w - (decide ((s.tsfElapsed tsf).toNat + w < (s.fclkElapsed s.firstTick).toNat)).toNat

/-- The calls of `mcu_ps_machw_cal` that compare the clocks. -/
def MachwCompares (machw : UInt32) : Prop :=
  machw < s.machwTm → (machw - s.machwTm).toNat ≤ 5000001 ∧ 0xFF000000 ≤ s.machwTm

instance (machw : UInt32) : Decidable (s.MachwCompares machw) := by
  unfold MachwCompares
  infer_instance

/-- Where the errors cancel, or are what the tick cuts off. -/
def MachwFits (machw : UInt32) : Prop :=
  let lost := s.machwDiff machw + s.machwError machw
  let due := s.machwDiff machw + usedDrift s.increaseTick
  if s.MachwCompares machw ∧ 0 < lost ∧ lost ≤ 5000 then
    (s.machwError machw = 0 ∧ due < 0) ∨ ((s.machwError machw = 0 ∨ s.machwError machw = 1) ∧ 0 ≤ due ∧ 2 ∣ due)
  -- nothing is done
  else s.machwDiff machw = 0

instance (machw : UInt32) : Decidable (s.MachwFits machw) := by
  unfold MachwFits
  infer_instance

def TsfFits (tsf : UInt64) : Prop :=
  let loss := s.tsfDiff tsf + s.tsfError tsf
  if s.firstTsf ≤ tsf ∧ 0 < loss ∧ loss ≤ 5000 then
    (s.tsfError tsf = 0 ∨ s.tsfError tsf = 1) ∧ 2 ∣ s.tsfDiff tsf
  else if s.firstTsf ≤ tsf ∧ loss < 0 ∧ -50000 ≤ loss then s.tsfError tsf = 0
  -- nothing is done, so the drift must be there already
  else s.tsfDiff tsf = 0 ∨ (s.tsfDiff tsf < 0 ∧ s.increaseTick = s.tsfDiff tsf)

variable {s}

/-! ### The differences -/

theorem handDiff_div (before now : UInt32) :
    (handDiff before now / 1000).toNat + (decide (now < before ∧ 1000 ∣ (now - before).toNat)).toNat =
      ((now - before) / 1000).toNat := by
  have short := toNat_handDiff_add before now
  have thousand : (1000 : UInt32).toNat = 1000 := rfl
  rw [UInt32.toNat_div, UInt32.toNat_div, thousand]
  by_cases wraps : now < before
  · rw [decide_eq_true wraps, Bool.toNat_true] at short
    have pred : (handDiff before now).toNat = (now - before).toNat - 1 := by omega
    have pos : 0 < (now - before).toNat := by omega
    rw [pred]
    by_cases whole : 1000 ∣ (now - before).toNat
    · -- the missing unit is the one that completes the thousand
      rw [decide_eq_true ⟨wraps, whole⟩, Bool.toNat_true]
      omega
    · rw [decide_eq_false fun h => whole h.2, Bool.toNat_false, Nat.add_zero]
      exact (pred_div_eq_iff pos (by decide)).mpr whole
  · rw [decide_eq_false wraps, Bool.toNat_false, Nat.add_zero] at short
    rw [short, decide_eq_false fun h => wraps h.1, Bool.toNat_false, Nat.add_zero]

/-- Which of the calls compare the clocks. -/
theorem machwLost_eq (machw : UInt32) (zero : s.machwTm ≠ 0) (dead : s.machwTm ≠ 0xdead5555) :
    s.machwLost machw =
      if s.MachwCompares machw then
        some (handDiff (handDiff s.fclkTick s.fclk) (handDiff s.machwTm machw / 1000))
      else none := by
  have short := toNat_handDiff_add s.machwTm machw
  have limit : (5000000 : UInt32).toNat = 5000000 := rfl
  rw [machwLost, if_neg (not_or.mpr ⟨zero, dead⟩)]
  dsimp only
  split
  next resets =>
    refine (if_neg fun compares => ?_).symm
    obtain ⟨close, high⟩ := compares resets.1
    rw [decide_eq_true resets.1, Bool.toNat_true] at short
    -- too far for a wrap, or too early
    rcases resets.2 with far | low
    · have more := UInt32.lt_iff_toNat_lt.mp far
      omega
    · exact absurd high (UInt32.not_le.mpr low)
  next compares =>
    refine (if_pos fun wraps => ?_).symm
    rw [decide_eq_true wraps, Bool.toNat_true] at short
    constructor
    · by_contra far
      refine compares ⟨wraps, .inl (UInt32.lt_iff_toNat_lt.mpr ?_)⟩
      omega
    · by_contra low
      exact compares ⟨wraps, .inr (UInt32.not_le.mp low)⟩

/-- The loss is the difference with the error. -/
theorem toNat_machwLost (s : McuPs) (machw : UInt32) :
    ((handDiff (handDiff s.fclkTick s.fclk) (handDiff s.machwTm machw / 1000)).toNat : Int) =
      (s.machwDiff machw + s.machwError machw) % 2 ^ 32 := by
  have first : (handDiff s.machwTm machw / 1000).toNat + (decide (s.MachwShort machw)).toNat =
      (s.machwElapsed machw).toNat := handDiff_div s.machwTm machw
  have second : (handDiff s.fclkTick s.fclk).toNat + (decide (s.FclkShort s.fclkTick)).toNat =
      (s.fclkElapsed s.fclkTick).toNat := toNat_handDiff_add s.fclkTick s.fclk
  obtain ⟨diff, -, -⟩ := int32_spec (s.machwElapsed machw - s.fclkElapsed s.fclkTick)
  rw [UInt32.toNat_sub] at diff
  have bound := (s.fclkElapsed s.fclkTick).toNat_lt
  rw [toNat_handDiff_short first second, machwDiff, machwError]
  omega

/-- The same in 64 bits, cut to 32; here the first distance is never short. -/
theorem toNat_tsfLoss (s : McuPs) (tsf : UInt64) :
    (((if s.tsfElapsed tsf < (handDiff s.firstTick s.fclk).toUInt64 then
        0xFFFFFFFFFFFFFFFF - (handDiff s.firstTick s.fclk).toUInt64 + s.tsfElapsed tsf
      else s.tsfElapsed tsf - (handDiff s.firstTick s.fclk).toUInt64).toUInt32.toNat : Nat) : Int) =
      (s.tsfDiff tsf + s.tsfError tsf) % 2 ^ 32 := by
  have ones : (0xFFFFFFFFFFFFFFFF : UInt64).toNat = 2 ^ 64 - 1 := rfl
  have short := toNat_handDiff_add s.firstTick s.fclk
  change _ + (decide (s.FclkShort s.firstTick)).toNat = (s.fclkElapsed s.firstTick).toNat at short
  have word : (handDiff s.firstTick s.fclk).toUInt64.toNat = (handDiff s.firstTick s.fclk).toNat :=
    UInt32.toNat_toUInt64 _
  have boundFirst := (s.tsfElapsed tsf).toNat_lt
  have boundSecond := (s.fclkElapsed s.firstTick).toNat_lt
  obtain ⟨diff, -, -⟩ := int32_spec ((s.tsfElapsed tsf).toUInt32 - s.fclkElapsed s.firstTick)
  rw [UInt32.toNat_sub, UInt64.toNat_toUInt32] at diff
  rw [UInt64.toNat_toUInt32, tsfDiff, tsfError]
  by_cases below : s.tsfElapsed tsf < (handDiff s.firstTick s.fclk).toUInt64
  · -- the borrow of the 64 bits is one short, and the cut to 32 bits keeps that
    have less := UInt64.lt_iff_toNat_lt.mp below
    rw [word] at less
    have negative : (s.tsfElapsed tsf).toNat + (decide (s.FclkShort s.firstTick)).toNat <
        (s.fclkElapsed s.firstTick).toNat := by omega
    rw [if_pos below, UInt64.toNat_add, UInt64.toNat_sub, ones, word, decide_eq_true negative, Bool.toNat_true]
    omega
  · have le := Nat.not_lt.mp (UInt64.lt_iff_toNat_lt.not.mp below)
    rw [word] at le
    have positive : ¬(s.tsfElapsed tsf).toNat + (decide (s.FclkShort s.firstTick)).toNat <
        (s.fclkElapsed s.firstTick).toNat := by omega
    rw [if_neg below, UInt64.toNat_sub, word, decide_eq_false positive, Bool.toNat_false]
    omega

/-! ### What is done with them -/

theorem fclkFreertosUpdateTick_currentClock (c : FakeClock) (tick : UInt32) :
    (c.fclkFreertosUpdateTick tick).currentClock = c.currentClock + tick := by
  rw [FakeClock.fclkFreertosUpdateTick]
  dsimp only
  split
  · rfl
  · rfl

theorem advance_of_clock {s' : McuPs} (same : s'.clock = s.clock) : s.advance s' = 0 := by
  rw [advance, fclk, fclk, same, UInt32.sub_self]
  rfl

/-- The clock moves by the whole ticks. -/
theorem advance_update (s s' : McuPs) (ms : UInt32) (small : ms.toNat < 2 ^ 31)
    (moved : s'.clock = s.clock.fclkFreertosUpdateTick (BK_MS_TO_TICKS ms)) :
    s.advance s' = ms.toNat - ms.toNat % 2 := by
  have two : (2 : UInt32).toNat = 2 := rfl
  have sum : (s'.fclk - s.fclk).toNat = ms.toNat / 2 * 2 := by
    rw [fclk, fclk, FakeClock.fclkGetTick, FakeClock.fclkGetTick, moved, fclkFreertosUpdateTick_currentClock,
      BK_TICKS_TO_MS, BK_TICKS_TO_MS, BK_MS_TO_TICKS, FCLK_DURATION_MS, UInt32.toNat_sub, UInt32.toNat_mul,
      UInt32.toNat_mul, UInt32.toNat_add, UInt32.toNat_div, two]
    omega
  rw [advance, int32_of_lt (by omega), sum]
  omega

theorem machwError_bounds (s : McuPs) (machw : UInt32) : -2 ≤ s.machwError machw ∧ s.machwError machw ≤ 1 := by
  have fclk := Bool.toNat_le (decide (s.FclkShort s.fclkTick))
  have timer := Bool.toNat_le (decide (s.MachwShort machw))
  rw [machwError]
  generalize (decide (s.FclkShort s.fclkTick)).toNat = w at *
  generalize (decide (s.MachwShort machw)).toNat = m at *
  have less := Bool.toNat_le (decide ((s.machwElapsed machw).toNat + w < (s.fclkElapsed s.fclkTick).toNat + m))
  omega

theorem tsfError_bounds (s : McuPs) (tsf : UInt64) : -1 ≤ s.tsfError tsf ∧ s.tsfError tsf ≤ 1 := by
  have fclk := Bool.toNat_le (decide (s.FclkShort s.firstTick))
  rw [tsfError]
  generalize (decide (s.FclkShort s.firstTick)).toNat = w at *
  have less := Bool.toNat_le (decide ((s.tsfElapsed tsf).toNat + w < (s.fclkElapsed s.firstTick).toNat))
  omega

/-- Clocks that agree are not one short, as the smaller of the distances is then that of the fake clock. -/
theorem tsfError_of_diff (tsf : UInt64) (agree : s.tsfDiff tsf = 0) : 0 ≤ s.tsfError tsf := by
  obtain ⟨diff, -, -⟩ := int32_spec ((s.tsfElapsed tsf).toUInt32 - s.fclkElapsed s.firstTick)
  have boundSecond := (s.fclkElapsed s.firstTick).toNat_lt
  change s.tsfDiff tsf % 2 ^ 32 = _ at diff
  rw [agree, UInt32.toNat_sub, UInt64.toNat_toUInt32] at diff
  rw [tsfError]
  by_cases less : (s.tsfElapsed tsf).toNat + (decide (s.FclkShort s.firstTick)).toNat <
      (s.fclkElapsed s.firstTick).toNat
  · omega
  · rw [decide_eq_false less, Bool.toNat_false]
    omega

/-- A loss of up to five seconds goes to the clock, with the drift; nothing else does. -/
theorem machwCal_spec {machw : UInt32} (machw' : UInt32) (lost : UInt32) (result : s.machwLost machw = some lost)
    (pos : 0 < lost.toNat) (small : lost.toNat ≤ 5000) :
    let s' := s.mcuPsMachwCal machw machw'
    let sum : Int := lost.toNat + usedDrift s.increaseTick
    s.advance s' = max 0 sum - max 0 sum % 2 ∧ s'.increaseTick = min 0 sum := by
  have half : lost < (0xFFFFFFFF : UInt32) >>> 1 :=
    UInt32.lt_of_le_of_lt (UInt32.le_iff_toNat_le.mpr small : lost ≤ 5000) (by decide)
  have more : lost > 0 := UInt32.lt_iff_toNat_lt.mpr pos
  have few : ¬lost > 5000 := UInt32.not_lt.mpr (UInt32.le_iff_toNat_le.mpr small)
  obtain ⟨ticks, drift⟩ := mcuPsCalIncreaseTick_spec (s := s) pos (by omega)
  obtain ⟨-, high⟩ := usedDrift_bounds s.increaseTick
  rw [mcuPsMachwCal, result]
  dsimp only
  rw [if_pos ⟨half, more⟩, if_neg few]
  constructor
  · have moved : s.advance _ = _ := advance_update s
      (((s.mcuPsCalIncreaseTick lost).1.fclkUpdateTick
        (BK_MS_TO_TICKS (s.mcuPsCalIncreaseTick lost).2)).mcuPsMachwInit machw')
      (s.mcuPsCalIncreaseTick lost).2 (by omega)
      (by rw [mcuPsMachwInit, fclkUpdateTick, mcuPsCalIncreaseTick_clock])
    rw [moved, ticks]
  · exact drift

theorem machwCal_nothing (machw machw' : UInt32)
    (none : ∀ lost, s.machwLost machw = some lost → ¬(0 < lost.toNat ∧ lost.toNat ≤ 5000)) :
    (s.mcuPsMachwCal machw machw').clock = s.clock ∧
      (s.mcuPsMachwCal machw machw').increaseTick = s.increaseTick := by
  rw [mcuPsMachwCal]
  cases result : s.machwLost machw with
  | none => exact ⟨rfl, rfl⟩
  | some lost =>
    dsimp only
    split
    next range =>
      split
      next => exact ⟨rfl, rfl⟩
      next few =>
        have pos := UInt32.lt_iff_toNat_lt.mp range.2
        have small := UInt32.le_iff_toNat_le.mp (UInt32.not_lt.mp few)
        exact absurd ⟨pos, small⟩ (none lost result)
    next => exact ⟨rfl, rfl⟩

/-- Whole ticks and a drift below 0 come to the difference if what is due has no odd millisecond. -/
theorem whole_ticks_iff (diff error drift : Int) :
    max 0 (diff + error + drift) - max 0 (diff + error + drift) % 2 +
        (min 0 (diff + error + drift) - drift) = diff ↔
      (error = 0 ∧ diff + drift < 0) ∨ ((error = 0 ∨ error = 1) ∧ 0 ≤ diff + drift ∧ 2 ∣ diff + drift) := by
  rcases Int.le_total 0 (diff + error + drift) with due | owed
  · rw [max_eq_right due, min_eq_left due]
    omega
  · rw [max_eq_left owed, min_eq_right owed]
    omega

theorem machwCal_right_iff (machw machw' : UInt32) :
    s.MachwRight machw machw' ↔ s.machwTm = 0 ∨ s.machwTm = 0xdead5555 ∨ s.MachwFits machw := by
  by_cases zero : s.machwTm = 0
  · exact iff_of_true (fun set => absurd zero set) (.inl zero)
  by_cases dead : s.machwTm = 0xdead5555
  · exact iff_of_true (fun _ set => absurd dead set) (.inr (.inl dead))
  rw [or_iff_right zero, or_iff_right dead]
  have right : s.MachwRight machw machw' ↔
      s.advance (s.mcuPsMachwCal machw machw') +
        (usedDrift (s.mcuPsMachwCal machw machw').increaseTick - usedDrift s.increaseTick) = s.machwDiff machw :=
    ⟨fun all => all zero dead, fun equal _ _ => equal⟩
  have value := toNat_machwLost s machw
  have result := machwLost_eq machw zero dead
  obtain ⟨-, low, high⟩ := int32_spec (s.machwElapsed machw - s.fclkElapsed s.fclkTick)
  change -2 ^ 31 ≤ s.machwDiff machw at low
  change s.machwDiff machw < 2 ^ 31 at high
  obtain ⟨lowError, highError⟩ := machwError_bounds s machw
  obtain ⟨lowDrift, highDrift⟩ := usedDrift_bounds s.increaseTick
  generalize handDiff (handDiff s.fclkTick s.fclk) (handDiff s.machwTm machw / 1000) = lost at value result
  rw [right, MachwFits]
  by_cases applies : s.MachwCompares machw ∧ 0 < s.machwDiff machw + s.machwError machw ∧
      s.machwDiff machw + s.machwError machw ≤ 5000
  · have word : (lost.toNat : Int) = s.machwDiff machw + s.machwError machw := by omega
    rw [if_pos applies.1] at result
    obtain ⟨moved, drift⟩ := machwCal_spec machw' lost result (by omega) (by omega)
    have kept : usedDrift (min 0 (lost.toNat + usedDrift s.increaseTick)) =
        min 0 (lost.toNat + usedDrift s.increaseTick) := usedDrift_of_le (by omega) (by omega)
    rw [if_pos applies, moved, drift, kept, word]
    exact whole_ticks_iff _ _ _
  · rw [if_neg applies]
    obtain ⟨clock, drift⟩ := machwCal_nothing (s := s) machw machw' (by
      intro lost' some' range
      rw [result] at some'
      split at some'
      next compares =>
        obtain rfl := Option.some.inj some'
        refine applies ⟨compares, ?_, ?_⟩
        · omega
        · omega
      next => cases some')
    rw [advance_of_clock clock, drift, Int.sub_self, Int.zero_add]
    exact eq_comm

/-! ### By the TSF -/

theorem tsfLoss_eq {tsf : UInt64} (zero : tsf ≠ 0) (first : s.firstTsf ≠ 0) :
    s.tsfLoss tsf =
      if s.firstTsf ≤ tsf then
        some (if s.tsfElapsed tsf < (handDiff s.firstTick s.fclk).toUInt64 then
          0xFFFFFFFFFFFFFFFF - (handDiff s.firstTick s.fclk).toUInt64 + s.tsfElapsed tsf
          else s.tsfElapsed tsf - (handDiff s.firstTick s.fclk).toUInt64).toUInt32
      else none := by
  rw [tsfLoss, if_neg (not_or.mpr ⟨zero, first⟩)]
  by_cases back : tsf < s.firstTsf
  · rw [if_pos back, if_neg (UInt64.not_le.mpr back)]
  · rw [if_neg back, if_pos (UInt64.not_lt.mp back)]
    rfl

/-- A loss of up to five seconds goes to the clock, and settles the drift, -/
theorem tsfCal_applies {tsf : UInt64} (machw : UInt32) {word : UInt32} (result : s.tsfLoss tsf = some word)
    (pos : 0 < int32 word) (small : int32 word ≤ 5000) :
    s.advance (s.mcuPsTsfCal tsf machw) = int32 word - int32 word % 2 ∧
      (s.mcuPsTsfCal tsf machw).increaseTick = 0 := by
  obtain ⟨rest, low, high⟩ := int32_spec word
  rw [mcuPsTsfCal, result]
  dsimp only
  rw [if_pos pos, if_neg (Int.not_lt.mpr small)]
  refine ⟨?_, rfl⟩
  rw [advance_update s _ word (by omega)]
  · omega
  · split
    · rfl
    · rfl

/-- a negative one, of up to fifty seconds, is kept as the drift, -/
theorem tsfCal_stores {tsf : UInt64} (machw : UInt32) {word : UInt32} (result : s.tsfLoss tsf = some word)
    (negative : int32 word < 0) (small : -50000 ≤ int32 word) :
    s.advance (s.mcuPsTsfCal tsf machw) = 0 ∧ (s.mcuPsTsfCal tsf machw).increaseTick = int32 word := by
  rw [mcuPsTsfCal, result]
  dsimp only
  rw [if_neg (Int.not_lt.mpr (Int.le_of_lt negative)), if_pos negative, if_neg (Int.not_lt.mpr small)]
  refine ⟨advance_of_clock ?_, rfl⟩
  split
  · rfl
  · rfl

/-- and nothing else is done. -/
theorem tsfCal_nothing (tsf : UInt64) (machw : UInt32)
    (none : ∀ word, s.tsfLoss tsf = some word → int32 word < -50000 ∨ int32 word = 0 ∨ 5000 < int32 word) :
    (s.mcuPsTsfCal tsf machw).clock = s.clock ∧ (s.mcuPsTsfCal tsf machw).increaseTick = s.increaseTick := by
  rw [mcuPsTsfCal]
  cases result : s.tsfLoss tsf with
  | none => exact ⟨rfl, rfl⟩
  | some word =>
    have range := none word result
    have same : (if s.fclk < s.firstTick then { s with firstTick := s.fclk, firstTsf := tsf } else s).clock =
        s.clock ∧
        (if s.fclk < s.firstTick then { s with firstTick := s.fclk, firstTsf := tsf } else s).increaseTick =
          s.increaseTick := by
      split
      · exact ⟨rfl, rfl⟩
      · exact ⟨rfl, rfl⟩
    dsimp only
    generalize (if s.fclk < s.firstTick then { s with firstTick := s.fclk, firstTsf := tsf } else s) = t at *
    split
    · split
      · exact same
      · omega
    · split
      · split
        · exact same
        · omega
      · exact same

theorem tsfCal_right_iff (tsf : UInt64) (machw : UInt32) :
    s.TsfRight tsf machw ↔ tsf = 0 ∨ s.firstTsf = 0 ∨ s.TsfFits tsf := by
  by_cases zero : tsf = 0
  · exact iff_of_true (fun set => absurd zero set) (.inl zero)
  by_cases unset : s.firstTsf = 0
  · exact iff_of_true (fun _ set => absurd unset set) (.inr (.inl unset))
  rw [or_iff_right zero, or_iff_right unset]
  have right : s.TsfRight tsf machw ↔
      if s.tsfDiff tsf < 0 then
        s.advance (s.mcuPsTsfCal tsf machw) = 0 ∧ (s.mcuPsTsfCal tsf machw).increaseTick = s.tsfDiff tsf
      else s.advance (s.mcuPsTsfCal tsf machw) = s.tsfDiff tsf ∧
        ((s.mcuPsTsfCal tsf machw).increaseTick = 0 ∨
          (s.mcuPsTsfCal tsf machw).increaseTick = s.increaseTick) :=
    ⟨fun all => all zero unset, fun equal _ _ => equal⟩
  have value := toNat_tsfLoss s tsf
  have result := tsfLoss_eq (s := s) zero unset
  obtain ⟨-, low, high⟩ := int32_spec ((s.tsfElapsed tsf).toUInt32 - s.fclkElapsed s.firstTick)
  change -2 ^ 31 ≤ s.tsfDiff tsf at low
  change s.tsfDiff tsf < 2 ^ 31 at high
  have bounds := tsfError_bounds s tsf
  have agree := tsfError_of_diff (s := s) tsf
  generalize (if s.tsfElapsed tsf < (handDiff s.firstTick s.fclk).toUInt64 then
    0xFFFFFFFFFFFFFFFF - (handDiff s.firstTick s.fclk).toUInt64 + s.tsfElapsed tsf
    else s.tsfElapsed tsf - (handDiff s.firstTick s.fclk).toUInt64).toUInt32 = word at value result
  obtain ⟨rest, lowLoss, highLoss⟩ := int32_spec word
  rw [right, TsfFits]
  by_cases compares : s.firstTsf ≤ tsf
  · rw [if_pos compares] at result
    by_cases applies : 0 < int32 word ∧ int32 word ≤ 5000
    · obtain ⟨moved, drift⟩ := tsfCal_applies machw result applies.1 applies.2
      have loss : s.tsfDiff tsf + s.tsfError tsf = int32 word := by omega
      have taken : s.firstTsf ≤ tsf ∧ 0 < s.tsfDiff tsf + s.tsfError tsf ∧
          s.tsfDiff tsf + s.tsfError tsf ≤ 5000 := by
        rw [loss]
        exact ⟨compares, applies⟩
      rw [if_pos taken, moved, drift]
      split <;> omega
    · by_cases stores : int32 word < 0 ∧ -50000 ≤ int32 word
      · obtain ⟨moved, drift⟩ := tsfCal_stores machw result stores.1 stores.2
        have loss : s.tsfDiff tsf + s.tsfError tsf = int32 word := by omega
        have notApplied : ¬(s.firstTsf ≤ tsf ∧ 0 < s.tsfDiff tsf + s.tsfError tsf ∧
            s.tsfDiff tsf + s.tsfError tsf ≤ 5000) := by
          rw [loss]
          exact fun all => applies all.2
        have taken : s.firstTsf ≤ tsf ∧ s.tsfDiff tsf + s.tsfError tsf < 0 ∧
            -50000 ≤ s.tsfDiff tsf + s.tsfError tsf := by
          rw [loss]
          exact ⟨compares, stores⟩
        rw [if_neg notApplied, if_pos taken, moved, drift]
        split <;> omega
      · obtain ⟨clock, drift⟩ := tsfCal_nothing (s := s) tsf machw (by
          intro word' some'
          rw [result] at some'
          obtain rfl := Option.some.inj some'
          omega)
        have notApplied : ¬(s.firstTsf ≤ tsf ∧ 0 < s.tsfDiff tsf + s.tsfError tsf ∧
            s.tsfDiff tsf + s.tsfError tsf ≤ 5000) := by
          rintro ⟨-, pos, small⟩
          omega
        have notStored : ¬(s.firstTsf ≤ tsf ∧ s.tsfDiff tsf + s.tsfError tsf < 0 ∧
            -50000 ≤ s.tsfDiff tsf + s.tsfError tsf) := by
          rintro ⟨-, negative, small⟩
          omega
        rw [if_neg notApplied, if_neg notStored, advance_of_clock clock, drift]
        split <;> omega
  · rw [if_neg compares] at result
    obtain ⟨clock, drift⟩ := tsfCal_nothing (s := s) tsf machw (by
      intro word' some'
      rw [result] at some'
      cases some')
    have notApplied : ¬(s.firstTsf ≤ tsf ∧ 0 < s.tsfDiff tsf + s.tsfError tsf ∧
        s.tsfDiff tsf + s.tsfError tsf ≤ 5000) := fun all => compares all.1
    have notStored : ¬(s.firstTsf ≤ tsf ∧ s.tsfDiff tsf + s.tsfError tsf < 0 ∧
        -50000 ≤ s.tsfDiff tsf + s.tsfError tsf) := fun all => compares all.1
    rw [if_neg notApplied, if_neg notStored, advance_of_clock clock, drift]
    split <;> omega

end McuPs

open McuPs

/-- What the calls do to the clock and the drift is right, where the clocks were read together before, just
where the errors of the cases and of the tick cancel. -/
theorem lost_ticks_exact_iff (s : McuPs) (machw machw' : UInt32) (tsf : UInt64) :
    (s.MachwRight machw machw' ↔ s.machwTm = 0 ∨ s.machwTm = 0xdead5555 ∨ s.MachwFits machw) ∧
    (s.TsfRight tsf machw ↔ tsf = 0 ∨ s.firstTsf = 0 ∨ s.TsfFits tsf) :=
  ⟨machwCal_right_iff machw machw', tsfCal_right_iff tsf machw⟩

/-- The fake clock is two milliseconds ahead of the TSF, and a drift of three is kept; it is five behind the MAC
timer, and moves by four. -/
theorem lost_ticks_off_by_one :
    (let s : McuPs := ⟨⟨501, 1, 499⟩, 1, 0, 0, 0, 1000000, 0, 0, 0⟩
     ¬s.TsfRight 2000000 0 ∧ s.tsfDiff 2000000 = -2 ∧ (s.mcuPsTsfCal 2000000 0).increaseTick = -3) ∧
    let s : McuPs := ⟨⟨500, 1, 500⟩, 1, 0, 0, 0, 0, 0, 1000, 0⟩
    ¬s.MachwRight 1006000 1006000 ∧ s.machwDiff 1006000 = 5 ∧
      s.advance (s.mcuPsMachwCal 1006000 1006000) = 4 := by
  refine ⟨⟨fun right => ?_, by decide, by decide⟩, fun right => ?_, by decide, ?_⟩
  · exact absurd (right (by decide) (by decide)) (by decide)
  · rw [machwCal_right_iff] at right
    exact absurd right (by decide)
  · rw [(machwCal_spec 1006000 5 (by decide) (by decide) (by decide)).1]
    decide

end Bk7251.PowerSave
