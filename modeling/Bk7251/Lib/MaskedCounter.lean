import Mathlib.Data.Nat.Prime.Basic
import Mathlib.Logic.Function.Iterate
import Mathlib.Tactic.Common

/-!
# Counting in some bits of a number

A counter with bits `n` that are always set, bits `r` that it counts in, and no others. Adding one and putting
`n` back carries through the bits of `n` and stops at the lowest bit that is in neither: below that bit the
counter goes through all its values, above it nothing ever changes.
-/
namespace Lib

/-- One more, in the bits of `r`. -/
def maskedSucc (n r c : Nat) : Nat := n ||| ((c + 1) &&& r)

/-- The values of the counter. -/
structure Masked (n r c : Nat) : Prop where
  fixed : ∀ i, n.testBit i = true → c.testBit i = true
  inside : ∀ i, c.testBit i = true → n.testBit i = true ∨ r.testBit i = true

/-- The lowest bit that is neither set nor counted in. -/
structure Stops (n r t : Nat) : Prop where
  low : ∀ i < t, n.testBit i = true ∨ r.testBit i = true
  none_n : n.testBit t = false
  none_r : r.testBit t = false

section

variable {n r c z t : Nat}

theorem masked_maskedSucc (n r c : Nat) : Masked n r (maskedSucc n r c) := by
  constructor
  · intro i set
    rw [maskedSucc, Nat.testBit_or, set, Bool.true_or]
  · intro i set
    rw [maskedSucc, Nat.testBit_or, Nat.testBit_and, Bool.or_eq_true, Bool.and_eq_true] at set
    exact set.imp_right And.right

/-- With the fixed bits put back one more is still no more than any greater value. -/
theorem succ_or_le (hc : ∀ i, n.testBit i = true → c.testBit i = true)
    (hz : ∀ i, n.testBit i = true → z.testBit i = true) (less : c < z) : (c + 1) ||| n ≤ z := by
  -- by halving; an even value has no carry
  induction c using Nat.strongRecOn generalizing n z with
  | ind c ih =>
    have halves (x : Nat) (hx : ∀ i, n.testBit i = true → x.testBit i = true) :
        ∀ i, (n / 2).testBit i = true → (x / 2).testBit i = true := by
      intro i set
      rw [Nat.testBit_div_two] at set ⊢
      exact hx _ set
    have units (x : Nat) (hx : ∀ i, n.testBit i = true → x.testBit i = true) : n % 2 ≤ x % 2 := by
      have first := hx 0
      simp only [Nat.testBit_zero, decide_eq_true_eq] at first
      omega
    have half : ((c + 1) ||| n) / 2 = (c + 1) / 2 ||| n / 2 := Nat.or_div_two
    have unit : ((c + 1) ||| n) % 2 = 1 ↔ (c + 1) % 2 = 1 ∨ n % 2 = 1 := Nat.or_mod_two_eq_one
    have unitC := units c hc
    have unitZ := units z hz
    by_cases even : c % 2 = 0
    · have same : (c + 1) / 2 ||| n / 2 = c / 2 := by
        have whole : (c + 1) / 2 = c / 2 := by omega
        rw [whole]
        apply Nat.eq_of_testBit_eq
        intro i
        rw [Nat.testBit_or]
        cases set : (n / 2).testBit i with
        | false => rw [Bool.or_false]
        | true => rw [Bool.or_true, halves c hc i set]
      omega
    · have carried : (c + 1) / 2 = c / 2 + 1 := by omega
      have rest := ih (c / 2) (by omega) (halves c hc) (halves z hz) (by omega)
      rw [carried] at half
      omega

/-- Below the top of its block the counter goes to the next value. -/
theorem Masked.succ_eq (hc : Masked n r c) (stops : Stops n r t) (below : ¬ 2 ^ t ∣ c + 1) :
    maskedSucc n r c = (c + 1) ||| n := by
  have high : (c + 1) / 2 ^ t = c / 2 ^ t := Nat.succ_div_of_not_dvd below
  have inside (i : Nat) (set : (c + 1).testBit i = true) : n.testBit i = true ∨ r.testBit i = true := by
    rcases Nat.lt_or_ge i t with low | above
    · exact stops.low i low
    · obtain ⟨j, rfl⟩ := Nat.exists_eq_add_of_le above
      apply hc.inside
      rwa [Nat.add_comm t j, ← Nat.testBit_div_two_pow, ← high, Nat.testBit_div_two_pow, Nat.add_comm j t]
  apply Nat.eq_of_testBit_eq
  intro i
  rw [maskedSucc, Nat.testBit_or, Nat.testBit_or, Nat.testBit_and]
  have covered := inside i
  revert covered
  cases n.testBit i <;> cases (c + 1).testBit i <;> simp

/-- At the top of its block the counter goes back to the least value there. -/
theorem Masked.succ_top (hc : Masked n r c) (stops : Stops n r t) (top : 2 ^ t ∣ c + 1) :
    maskedSucc n r c = 2 ^ t * (c / 2 ^ t) + n % 2 ^ t := by
  have high : (c + 1) / 2 ^ t = c / 2 ^ t + 1 := Nat.succ_div_of_dvd top
  have low : (c + 1) % 2 ^ t = 0 := Nat.mod_eq_zero_of_dvd top
  have clear : c.testBit t = false := by
    cases set : c.testBit t with
    | false => rfl
    | true =>
      have either := hc.inside t set
      rw [stops.none_n, stops.none_r] at either
      simp at either
  apply Nat.eq_of_testBit_eq
  intro i
  rw [maskedSucc, Nat.testBit_or, Nat.testBit_and,
    Nat.testBit_two_pow_mul_add _ (Nat.mod_lt n (Nat.two_pow_pos t))]
  split
  next less =>
    have zero : (c + 1).testBit i = false := by
      have bit := Nat.testBit_mod_two_pow (c + 1) t i
      rw [low, Nat.zero_testBit, decide_eq_true less, Bool.true_and] at bit
      exact bit.symm
    rw [zero, Bool.false_and, Bool.or_false, Nat.testBit_mod_two_pow, decide_eq_true less, Bool.true_and]
  next above =>
    obtain ⟨j, rfl⟩ := Nat.exists_eq_add_of_le (Nat.not_lt.mp above)
    have shifted : (c + 1).testBit (t + j) = (c / 2 ^ t + 1).testBit j := by
      rw [Nat.add_comm t j, ← Nat.testBit_div_two_pow, high]
    rw [Nat.add_sub_cancel_left, shifted]
    cases j with
    | zero =>
      -- the carry is lost in the bit that is in neither
      rw [Nat.add_zero, stops.none_n, stops.none_r, Bool.and_false, Bool.or_false, Nat.testBit_div_two_pow,
        Nat.zero_add, clear]
    | succ j =>
      have even : c / 2 ^ t % 2 = 0 := by
        have bit := Nat.testBit_div_two_pow (n := t) c 0
        rw [Nat.zero_add, clear, Nat.testBit_zero, decide_eq_false_iff_not] at bit
        omega
      have half : (c / 2 ^ t + 1) / 2 = c / 2 ^ t / 2 := by omega
      have same : (c / 2 ^ t).testBit (j + 1) = c.testBit (t + (j + 1)) := by
        rw [Nat.testBit_div_two_pow, Nat.add_comm]
      rw [Nat.testBit_add_one, half, ← Nat.testBit_add_one, same]
      have fixed := hc.fixed (t + (j + 1))
      have inside := hc.inside (t + (j + 1))
      revert fixed inside
      cases n.testBit (t + (j + 1)) <;> cases c.testBit (t + (j + 1)) <;> simp

/-- The values in the block of `c`. -/
def Together (t c z : Nat) : Prop := z / 2 ^ t = c / 2 ^ t

/-- The counter stays in its block. -/
theorem Masked.together (hc : Masked n r c) (stops : Stops n r t) : Together t c (maskedSucc n r c) := by
  have pos := Nat.two_pow_pos t
  by_cases top : 2 ^ t ∣ c + 1
  · rw [Together, hc.succ_top stops top, Nat.mul_add_div pos, Nat.div_eq_of_lt (Nat.mod_lt n pos), Nat.add_zero]
  · rw [Together, hc.succ_eq stops top, Nat.or_div_two_pow, Nat.succ_div_of_not_dvd top]
    apply Nat.eq_of_testBit_eq
    intro i
    rw [Nat.testBit_or, Nat.testBit_div_two_pow, Nat.testBit_div_two_pow]
    have fixed := hc.fixed (i + t)
    revert fixed
    cases n.testBit (i + t) <;> simp

/-- Counting up from a value comes to every greater one of the block, -/
theorem Masked.counts_up (hc : Masked n r c) (hz : Masked n r z) (stops : Stops n r t) (same : Together t c z)
    (le : c ≤ z) : ∃ k, (maskedSucc n r)^[k] c = z := by
  induction k : z - c using Nat.strongRecOn generalizing c with
  | ind k ih =>
    subst k
    rcases Nat.eq_or_lt_of_le le with rfl | less
    · exact ⟨0, rfl⟩
    · have below : ¬ 2 ^ t ∣ c + 1 := by
        intro top
        -- the next block begins behind the top
        have high := Nat.succ_div_of_dvd top
        have up := Nat.div_le_div_right (c := 2 ^ t) less
        rw [Nat.succ_eq_add_one, high, same] at up
        exact Nat.not_succ_le_self _ up
      have next := hc.succ_eq stops below
      have more : c < maskedSucc n r c := by
        rw [next]
        exact Nat.lt_of_lt_of_le (Nat.lt_succ_self c) Nat.left_le_or
      have most : maskedSucc n r c ≤ z := by
        rw [next]
        exact succ_or_le hc.fixed hz.fixed less
      have together : Together t (maskedSucc n r c) z := same.trans (hc.together stops).symm
      obtain ⟨k, steps⟩ := ih _ (by omega) (masked_maskedSucc n r c) together most rfl
      exact ⟨k + 1, steps⟩

/-- and once around to all the others. -/
theorem Masked.reaches (hc : Masked n r c) (hz : Masked n r z) (stops : Stops n r t)
    (same : Together t c z) : ∃ k, (maskedSucc n r)^[k] c = z := by
  rcases Nat.le_total c z with le | ge
  · exact hc.counts_up hz stops same le
  · have pos := Nat.two_pow_pos t
    -- the top of the block: all the low bits are set
    have top : Masked n r (c ||| (2 ^ t - 1)) := by
      constructor
      · intro i set
        rw [Nat.testBit_or, hc.fixed i set, Bool.true_or]
      · intro i set
        rw [Nat.testBit_or, Nat.testBit_two_pow_sub_one, Bool.or_eq_true, decide_eq_true_eq] at set
        exact set.elim (hc.inside i) (stops.low i)
    have high : (c ||| (2 ^ t - 1)) / 2 ^ t = c / 2 ^ t := by
      rw [Nat.or_div_two_pow, Nat.div_eq_of_lt (Nat.sub_lt pos Nat.one_pos), Nat.or_zero]
    have ends : 2 ^ t ∣ (c ||| (2 ^ t - 1)) + 1 := by
      have whole : c ||| (2 ^ t - 1) = 2 ^ t * (c / 2 ^ t) + (2 ^ t - 1) := by
        apply Nat.eq_of_testBit_eq
        intro i
        rw [Nat.testBit_or, Nat.testBit_two_pow_mul_add _ (Nat.sub_lt pos Nat.one_pos),
          Nat.testBit_two_pow_sub_one]
        split
        next less => rw [decide_eq_true less, Bool.or_true]
        next above =>
          rw [decide_eq_false above, Bool.or_false, Nat.testBit_div_two_pow,
            Nat.sub_add_cancel (Nat.not_lt.mp above)]
      rw [whole, Nat.add_assoc, Nat.sub_add_cancel pos, ← Nat.mul_succ]
      exact Nat.dvd_mul_right _ _
    obtain ⟨k, up⟩ := hc.counts_up top stops high Nat.left_le_or
    have bottom := top.succ_top stops ends
    rw [high] at bottom
    have least : maskedSucc n r (c ||| (2 ^ t - 1)) ≤ z := by
      have low : n % 2 ^ t ≤ z % 2 ^ t := by
        apply Nat.le_of_testBit
        intro i set
        rw [Nat.testBit_mod_two_pow, Bool.and_eq_true] at set ⊢
        exact ⟨set.1, hz.fixed i set.2⟩
      rw [bottom, ← same]
      calc 2 ^ t * (z / 2 ^ t) + n % 2 ^ t ≤ 2 ^ t * (z / 2 ^ t) + z % 2 ^ t := Nat.add_le_add_left low _
        _ = z := Nat.div_add_mod z (2 ^ t)
    have together : Together t (maskedSucc n r (c ||| (2 ^ t - 1))) z :=
      same.trans (high.symm.trans (top.together stops).symm)
    obtain ⟨l, on⟩ := (masked_maskedSucc n r _).counts_up hz stops together least
    refine ⟨l + (k + 1), ?_⟩
    rw [Function.iterate_add_apply, Function.iterate_succ_apply', up, on]

/-- Among numbers of `w` bits the size of a block is the greatest power of two in sight. -/
theorem exists_stops {w : Nat} (hn : n < 2 ^ w) (hr : r < 2 ^ w) :
    ∃ t, Nat.gcd (2 ^ w) ((n ||| r) + 1) = 2 ^ t ∧ Stops n r t := by
  obtain ⟨t, le, gcd⟩ := (Nat.dvd_prime_pow Nat.prime_two).mp (Nat.gcd_dvd_left (2 ^ w) ((n ||| r) + 1))
  have pos := Nat.two_pow_pos t
  obtain ⟨q, whole⟩ : 2 ^ t ∣ (n ||| r) + 1 := gcd ▸ Nat.gcd_dvd_right _ _
  obtain ⟨m, rfl⟩ : ∃ m, q = m + 1 := Nat.exists_eq_succ_of_ne_zero (by rintro rfl; simp at whole)
  have split : n ||| r = 2 ^ t * m + (2 ^ t - 1) := by
    rw [Nat.mul_succ] at whole
    omega
  have bits (i : Nat) : (n ||| r).testBit i = if i < t then true else m.testBit (i - t) := by
    rw [split, Nat.testBit_two_pow_mul_add _ (Nat.sub_lt pos Nat.one_pos), Nat.testBit_two_pow_sub_one]
    split
    next less => rw [decide_eq_true less]
    next => rfl
  have clear : (n ||| r).testBit t = false := by
    rcases Nat.eq_or_lt_of_le le with rfl | less
    · exact Nat.testBit_lt_two_pow (Nat.or_lt_two_pow hn hr)
    · rw [bits, if_neg (Nat.lt_irrefl t), Nat.sub_self, Nat.testBit_zero, decide_eq_false_iff_not]
      intro odd
      -- a bit more would go into both
      have more : 2 ^ (t + 1) ∣ 2 ^ t := by
        rw [← gcd]
        apply Nat.dvd_gcd
        · exact Nat.pow_dvd_pow 2 less
        · rw [whole, Nat.pow_succ]
          exact Nat.mul_dvd_mul_left _ (by omega)
      exact absurd (Nat.le_of_dvd pos more) (Nat.not_le.mpr (Nat.pow_lt_pow_right Nat.one_lt_two (Nat.lt_succ_self t)))
  refine ⟨t, gcd, fun i less => ?_, ?_, ?_⟩
  · have set := bits i
    rwa [if_pos less, Nat.testBit_or, Bool.or_eq_true] at set
  · rw [Nat.testBit_or, Bool.or_eq_false_iff] at clear
    exact clear.1
  · rw [Nat.testBit_or, Bool.or_eq_false_iff] at clear
    exact clear.2

/-- If the counter counts in its low bits, all its values are in one block. -/
theorem together_of_low {k : Nat} (hc : Masked n (2 ^ k - 1) c) (hz : Masked n (2 ^ k - 1) z)
    (stops : Stops n (2 ^ k - 1) t) : Together t c z := by
  have le : k ≤ t := by
    have clear := stops.none_r
    rw [Nat.testBit_two_pow_sub_one, decide_eq_false_iff_not] at clear
    exact Nat.not_lt.mp clear
  have high (x : Nat) (hx : Masked n (2 ^ k - 1) x) : x / 2 ^ k = n / 2 ^ k := by
    apply Nat.eq_of_testBit_eq
    intro i
    rw [Nat.testBit_div_two_pow, Nat.testBit_div_two_pow]
    have fixed := hx.fixed (i + k)
    have inside := hx.inside (i + k)
    have above : ¬ i + k < k := Nat.not_lt.mpr (Nat.le_add_left k i)
    rw [Nat.testBit_two_pow_sub_one, decide_eq_false above] at inside
    revert fixed inside
    cases n.testBit (i + k) <;> cases x.testBit (i + k) <;> simp
  obtain ⟨j, rfl⟩ := Nat.exists_eq_add_of_le le
  rw [Together, Nat.pow_add, ← Nat.div_div_eq_div_mul, ← Nat.div_div_eq_div_mul, high c hc, high z hz]

end

end Lib
