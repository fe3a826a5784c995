import Bk7251.Lib.Bytes

/-!
# Time on a counter that wraps

What has passed between two readings of a 32-bit counter is their difference modulo `2 ^ 32`. Programs
that take the two cases apart by hand often come out one short where the counter has wrapped; such a
difference still gives the same number of whole units, unless it was a multiple of the unit.
-/
namespace Lib

section

variable (before now : UInt32)

theorem toNat_elapsed : (now - before).toNat = (2 ^ 32 - before.toNat + now.toNat) % 2 ^ 32 :=
  UInt32.toNat_sub now before

theorem toNat_elapsed_of_lt (wraps : now < before) :
    (now - before).toNat = 2 ^ 32 - before.toNat + now.toNat := by
  have less := UInt32.lt_iff_toNat_lt.mp wraps
  have bound := before.toNat_lt
  rw [toNat_elapsed]
  exact Nat.mod_eq_of_lt (by omega)

/-- The wrap counted by hand, one short. -/
theorem handElapsed_eq : 0xFFFFFFFF - before + now = now - before - 1 := by
  have ones : (0xFFFFFFFF : UInt32).toNat = 2 ^ 32 - 1 := rfl
  have one : (1 : UInt32).toNat = 1 := rfl
  have bound := before.toNat_lt
  apply UInt32.toNat_inj.mp
  -- the largest word stands where 2 ^ 32 should
  rw [UInt32.toNat_add, UInt32.toNat_sub, UInt32.toNat_sub, UInt32.toNat_sub, ones, one]
  omega

/-- The distance with the two cases taken apart. -/
def handDiff : UInt32 := if now < before then 0xFFFFFFFF - before + now else now - before

theorem toNat_handDiff :
    (handDiff before now).toNat =
      if now.toNat < before.toNat then 2 ^ 32 - before.toNat + now.toNat - 1 else now.toNat - before.toNat := by
  have ones : (0xFFFFFFFF : UInt32).toNat = 2 ^ 32 - 1 := rfl
  have boundBefore := before.toNat_lt
  have boundNow := now.toNat_lt
  rw [handDiff]
  simp only [UInt32.lt_iff_toNat_lt]
  split
  · rw [UInt32.toNat_add, UInt32.toNat_sub, ones]
    omega
  · rw [UInt32.toNat_sub]
    omega

/-- One short after a wrap, and right otherwise. -/
theorem toNat_handDiff_add :
    (handDiff before now).toNat + (decide (now < before)).toNat = (now - before).toNat := by
  have boundBefore := before.toNat_lt
  have boundNow := now.toNat_lt
  rw [toNat_handDiff, UInt32.toNat_sub]
  by_cases wraps : now < before
  · have less := UInt32.lt_iff_toNat_lt.mp wraps
    rw [if_pos less, decide_eq_true wraps, Bool.toNat_true]
    omega
  · have le := Nat.not_lt.mp (UInt32.lt_iff_toNat_lt.not.mp wraps)
    rw [if_neg (Nat.not_lt.mpr le), decide_eq_false wraps, Bool.toNat_false]
    omega

end

/-- The difference, taken by hand, of two distances that may each be one short: the units that they lack, and
the one that the difference loses where it is negative. -/
theorem toNat_handDiff_short {first second first' second' : UInt32} {a b : Bool}
    (shortFirst : first'.toNat + a.toNat = first.toNat) (shortSecond : second'.toNat + b.toNat = second.toNat) :
    ((handDiff second' first').toNat : Int) =
      (first.toNat - second.toNat + b.toNat - a.toNat -
        (decide (first.toNat + b.toNat < second.toNat + a.toNat)).toNat) % 2 ^ 32 := by
  have boundFirst := first.toNat_lt
  have boundSecond := second.toNat_lt
  rw [toNat_handDiff]
  by_cases negative : first.toNat + b.toNat < second.toNat + a.toNat
  · have below : first'.toNat < second'.toNat := by omega
    rw [if_pos below, decide_eq_true negative, Bool.toNat_true]
    omega
  · have above : ¬first'.toNat < second'.toNat := by omega
    rw [if_neg above, decide_eq_false negative, Bool.toNat_false]
    omega

/-- One short of `n` there are as many whole units as in `n`, unless `n` is a multiple of the unit. -/
theorem pred_div_eq_iff {n k : Nat} (pos : 0 < n) (unit : 0 < k) : (n - 1) / k = n / k ↔ ¬ k ∣ n := by
  have split := Nat.div_add_mod n k
  constructor
  · intro same whole
    -- a multiple of the unit is the first number with its quotient
    obtain ⟨q, rfl⟩ := whole
    rw [Nat.mul_div_cancel_left q unit] at same
    have low : (k * q - 1) / k < q := by
      rw [Nat.div_lt_iff_lt_mul unit, Nat.mul_comm q k]
      exact Nat.sub_lt pos Nat.one_pos
    exact absurd same (Nat.ne_of_lt low)
  · intro broken
    have rest : 0 < n % k := Nat.pos_of_ne_zero fun zero => broken (Nat.dvd_of_mod_eq_zero zero)
    have bound := Nat.mod_lt n unit
    rw [Nat.div_eq_iff unit]
    constructor
    · rw [Nat.mul_comm]
      omega
    · rw [Nat.mul_comm]
      omega

end Lib
