import Mathlib.Logic.Function.Iterate
import Mathlib.Tactic.Common
import Bk7251.Lib.Bytes

/-!
# The fake clock

`func/misc/fake_clock.c` as built for FreeRTOS: a tick every two milliseconds, and ticks that were missed in
sleep made up for at once. The scheduler that is told of the ticks is left out.
-/
namespace Bk7251.Clock

open Lib

def FCLK_DURATION_MS : UInt32 := 2
def FCLK_SECOND : UInt32 := 1000 / FCLK_DURATION_MS
def TICK_PER_SECOND : UInt32 := FCLK_SECOND

def BK_MS_TO_TICKS (x : UInt32) : UInt32 := x / FCLK_DURATION_MS
def BK_TICKS_TO_MS (x : UInt32) : UInt32 := x * FCLK_DURATION_MS

structure FakeClock where
  currentClock : UInt32
  currentSeconds : UInt32
  secondCountdown : UInt32
deriving DecidableEq

namespace FakeClock

def start : FakeClock := { currentClock := 0, currentSeconds := 0, secondCountdown := FCLK_SECOND }

variable (c : FakeClock)

/-- `fclk_hdl` -/
def fclkHdl : FakeClock :=
  let c := { c with currentClock := c.currentClock + 1, secondCountdown := c.secondCountdown - 1 }
  if c.secondCountdown = 0 then
    { c with currentSeconds := c.currentSeconds + 1, secondCountdown := FCLK_SECOND }
  else c

/-- The `while` of `fclk_freertos_update_tick`: the ticks that are left, and the seconds. -/
def countSeconds (tick seconds : UInt32) : UInt32 × UInt32 :=
  if tick ≥ FCLK_SECOND then countSeconds (tick - FCLK_SECOND) (seconds + 1) else (tick, seconds)
termination_by tick.toNat
decreasing_by
  have second : FCLK_SECOND.toNat = 500 := rfl
  rename_i more
  have le := UInt32.le_iff_toNat_le.mp more
  rw [toNat_sub _ _ le]
  omega

/-- `fclk_freertos_update_tick` -/
def fclkFreertosUpdateTick (tick : UInt32) : FakeClock :=
  let r := countSeconds tick c.currentSeconds
  let c := { c with currentClock := c.currentClock + tick, currentSeconds := r.2 }
  let tick := r.1
  if c.secondCountdown ≤ tick then
    { c with
      currentSeconds := c.currentSeconds + 1
      secondCountdown := FCLK_SECOND - (tick - c.secondCountdown) }
  else { c with secondCountdown := c.secondCountdown - tick }

/-- `fclk_get_tick` -/
def fclkGetTick : UInt32 := c.currentClock

end FakeClock

inductive ClockOp where
  | hdl
  | update (tick : UInt32)

def ClockOp.ticks : ClockOp → Nat
  | .hdl => 1
  | .update tick => tick.toNat

def FakeClock.step (c : FakeClock) : ClockOp → FakeClock
  | .hdl => c.fclkHdl
  | .update tick => c.fclkFreertosUpdateTick tick

/-! ### Where a clock is after some ticks -/

namespace FakeClock

/-- The countdown is never run down, and never above a second. -/
structure Ok (c : FakeClock) : Prop where
  pos : 1 ≤ c.secondCountdown
  le : c.secondCountdown ≤ FCLK_SECOND

/-- How many ticks of the current second have been counted. -/
def phase (c : FakeClock) : Nat := 500 - c.secondCountdown.toNat

/-- The clock `n` ticks later. -/
def after (c : FakeClock) (n : Nat) : FakeClock where
  currentClock := c.currentClock + UInt32.ofNat n
  currentSeconds := c.currentSeconds + UInt32.ofNat ((c.phase + n) / 500)
  secondCountdown := UInt32.ofNat (500 - (c.phase + n) % 500)

variable {c : FakeClock}

theorem Ok.bounds (ok : c.Ok) : 1 ≤ c.secondCountdown.toNat ∧ c.secondCountdown.toNat ≤ 500 :=
  ⟨UInt32.le_iff_toNat_le.mp ok.pos, UInt32.le_iff_toNat_le.mp ok.le⟩

theorem toNat_countdown (n : Nat) : (UInt32.ofNat (500 - n % 500)).toNat = 500 - n % 500 := by
  rw [UInt32.toNat_ofNat']
  exact Nat.mod_eq_of_lt (by omega)

theorem after_ok (c : FakeClock) (n : Nat) : (c.after n).Ok := by
  have left := toNat_countdown (c.phase + n)
  constructor
  · apply UInt32.le_iff_toNat_le.mpr
    rw [after, left]
    change 1 ≤ _
    omega
  · apply UInt32.le_iff_toNat_le.mpr
    rw [after, left]
    exact Nat.sub_le _ _

theorem after_phase (c : FakeClock) (n : Nat) : (c.after n).phase = (c.phase + n) % 500 := by
  rw [phase, after, toNat_countdown]
  omega

theorem after_zero (ok : c.Ok) : c.after 0 = c := by
  obtain ⟨pos, le⟩ := ok.bounds
  have small : c.phase < 500 := by
    rw [phase]
    omega
  have countdown : UInt32.ofNat (500 - c.phase % 500) = c.secondCountdown := by
    apply UInt32.toNat_inj.mp
    rw [toNat_countdown, Nat.mod_eq_of_lt small, phase]
    omega
  have seconds : c.phase / 500 = 0 := Nat.div_eq_of_lt small
  have none : UInt32.ofNat 0 = 0 := rfl
  simp only [after, Nat.add_zero, seconds, countdown, none, UInt32.add_zero]

/-- Ticks add up. -/
theorem after_after (c : FakeClock) (m n : Nat) : (c.after m).after n = c.after (m + n) := by
  have whole : (c.phase + m) / 500 + ((c.phase + m) % 500 + n) / 500 = (c.phase + (m + n)) / 500 := by omega
  have rest : ((c.phase + m) % 500 + n) % 500 = (c.phase + (m + n)) % 500 := by omega
  rw [after, after_phase, rest]
  simp only [after, UInt32.ofNat_add m n, ← whole, UInt32.ofNat_add ((c.phase + m) / 500),
    UInt32.add_assoc]

/-- One tick. -/
theorem fclkHdl_eq (ok : c.Ok) : c.fclkHdl = c.after 1 := by
  obtain ⟨pos, le⟩ := ok.bounds
  have one : UInt32.ofNat 1 = 1 := rfl
  have down : (c.secondCountdown - 1).toNat = c.secondCountdown.toNat - 1 := toNat_sub _ 1 pos
  rw [fclkHdl, after, one]
  dsimp only
  split
  next ended =>
    -- the last tick of a second
    have last : c.secondCountdown.toNat = 1 := by
      rw [ended] at down
      change 0 = _ at down
      omega
    have second : (c.phase + 1) / 500 = 1 ∧ (c.phase + 1) % 500 = 0 := by
      rw [phase]
      omega
    rw [second.1, second.2]
    rfl
  next more =>
    have inside : c.secondCountdown.toNat - 1 ≠ 0 := by
      rw [← down]
      exact (toNat_ne_zero _).mp more
    have second : (c.phase + 1) / 500 = 0 ∧ (c.phase + 1) % 500 = c.phase + 1 := by
      rw [phase]
      omega
    have countdown : c.secondCountdown - 1 = UInt32.ofNat (500 - (c.phase + 1) % 500) := by
      apply UInt32.toNat_inj.mp
      rw [toNat_countdown, down, second.2, phase]
      omega
    have none : UInt32.ofNat 0 = 0 := rfl
    rw [second.1, none, UInt32.add_zero, countdown]

/-- Many ticks, one after the other. -/
theorem iterate_fclkHdl (ok : c.Ok) (n : Nat) : fclkHdl^[n] c = c.after n := by
  induction n with
  | zero => exact (after_zero ok).symm
  | succ n ih => rw [Function.iterate_succ_apply', ih, fclkHdl_eq (after_ok c n), after_after]

theorem countSeconds_eq (tick seconds : UInt32) :
    (countSeconds tick seconds).1.toNat = tick.toNat % 500 ∧
      (countSeconds tick seconds).2 = seconds + UInt32.ofNat (tick.toNat / 500) := by
  have second : FCLK_SECOND.toNat = 500 := rfl
  induction tick, seconds using countSeconds.induct with
  | case1 tick seconds more ih =>
    have le := UInt32.le_iff_toNat_le.mp more
    have rest := toNat_sub tick FCLK_SECOND le
    rw [second] at le rest
    have whole : tick.toNat / 500 = 1 + (tick.toNat - 500) / 500 := by omega
    rw [countSeconds, if_pos more]
    rw [rest] at ih
    refine ⟨ih.1.trans (by omega), ?_⟩
    rw [ih.2, whole, UInt32.ofNat_add, UInt32.add_assoc]
    rfl
  | case2 tick seconds less =>
    have lt : tick.toNat < 500 := Nat.not_le.mp fun le => less (UInt32.le_iff_toNat_le.mpr le)
    have none : UInt32.ofNat 0 = 0 := rfl
    rw [countSeconds, if_neg less, Nat.mod_eq_of_lt lt, Nat.div_eq_of_lt lt, none, UInt32.add_zero]
    exact ⟨rfl, rfl⟩

/-- Many ticks at once. -/
theorem fclkFreertosUpdateTick_eq (ok : c.Ok) (tick : UInt32) :
    c.fclkFreertosUpdateTick tick = c.after tick.toNat := by
  obtain ⟨pos, le⟩ := ok.bounds
  obtain ⟨rest, seconds⟩ := countSeconds_eq tick c.currentSeconds
  have second : FCLK_SECOND.toNat = 500 := rfl
  rw [fclkFreertosUpdateTick, after, UInt32.ofNat_toNat]
  generalize countSeconds tick c.currentSeconds = r at rest seconds
  dsimp only
  rw [seconds]
  split
  next ended =>
    -- the rest of the ticks ends the second the countdown was in
    have within : c.secondCountdown.toNat ≤ r.1.toNat := UInt32.le_iff_toNat_le.mp ended
    have beyond := toNat_sub r.1 c.secondCountdown within
    have left := toNat_sub FCLK_SECOND (r.1 - c.secondCountdown) (by omega)
    have whole : (c.phase + tick.toNat) / 500 = tick.toNat / 500 + 1 := by
      rw [phase]
      omega
    have countdown : FCLK_SECOND - (r.1 - c.secondCountdown) =
        UInt32.ofNat (500 - (c.phase + tick.toNat) % 500) := by
      apply UInt32.toNat_inj.mp
      rw [toNat_countdown, left, beyond, phase]
      omega
    rw [whole, countdown, UInt32.ofNat_add, ← UInt32.add_assoc]
    rfl
  next more =>
    have within : r.1.toNat < c.secondCountdown.toNat :=
      Nat.not_le.mp fun le => more (UInt32.le_iff_toNat_le.mpr le)
    have left := toNat_sub c.secondCountdown r.1 (by omega)
    have whole : (c.phase + tick.toNat) / 500 = tick.toNat / 500 := by
      rw [phase]
      omega
    have countdown : c.secondCountdown - r.1 = UInt32.ofNat (500 - (c.phase + tick.toNat) % 500) := by
      apply UInt32.toNat_inj.mp
      rw [toNat_countdown, left, phase]
      omega
    rw [whole, countdown]

theorem step_eq (ok : c.Ok) (op : ClockOp) : c.step op = c.after op.ticks := by
  cases op with
  | hdl => exact fclkHdl_eq ok
  | update tick => exact fclkFreertosUpdateTick_eq ok tick

/-- However the ticks come, the clock is where they take it. -/
theorem foldl_step (ok : c.Ok) (ops : List ClockOp) :
    ops.foldl step c = c.after (ops.map ClockOp.ticks).sum := by
  induction ops generalizing c with
  | nil => exact (after_zero ok).symm
  | cons op ops ih =>
    rw [List.foldl_cons, step_eq ok, ih (after_ok c _), after_after, List.map_cons, List.sum_cons]

theorem start_ok : start.Ok := ⟨by decide, by decide⟩

end FakeClock

open FakeClock

/-- Ticks that are made up for at once leave the clock as ticking them off one by one does, and the
countdown in range; in every run of single and made-up ticks from the start, the seconds are the whole
seconds in the ticks counted. -/
theorem update_tick_repeats (c : FakeClock) (ok : c.Ok) (n : UInt32) (ops : List ClockOp) :
    c.fclkFreertosUpdateTick n = fclkHdl^[n.toNat] c ∧ (c.fclkFreertosUpdateTick n).Ok ∧
      (ops.foldl step start).currentSeconds =
        UInt32.ofNat ((ops.map ClockOp.ticks).sum / FCLK_SECOND.toNat) ∧
      (ops.foldl step start).Ok := by
  have bulk := fclkFreertosUpdateTick_eq ok n
  have run := foldl_step start_ok ops
  refine ⟨bulk.trans (iterate_fclkHdl ok _).symm, ?_, ?_, ?_⟩
  · rw [bulk]
    exact after_ok c _
  · have phase : start.phase = 0 := rfl
    rw [run, after, phase, Nat.zero_add]
    exact UInt32.zero_add _
  · rw [run]
    exact after_ok start _

/-- A second and a half made up for at once, in the last tick of a second. -/
theorem update_tick_repeats_across :
    FakeClock.fclkFreertosUpdateTick ⟨0xFFFFFFFF, 7, 1⟩ 750 = fclkHdl^[750] ⟨0xFFFFFFFF, 7, 1⟩ ∧
      ([.hdl, .update 998, .hdl].foldl step start).currentSeconds = 2 := by
  obtain ⟨same, -, seconds, -⟩ :=
    update_tick_repeats ⟨0xFFFFFFFF, 7, 1⟩ ⟨by decide, by decide⟩ 750 [.hdl, .update 998, .hdl]
  exact ⟨same, seconds.trans (by decide)⟩

end Bk7251.Clock
