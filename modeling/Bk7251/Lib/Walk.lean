import Mathlib.Data.Finset.Card
import Mathlib.Logic.Relation

/-!
# Walks

A walk follows a partial step function as long as there is a next place. Among finitely many places it
ends exactly where no place can be reached that leads back to itself.
-/
namespace Lib

open Relation

section

variable {α : Type*} (next : α → Option α)

/-- The place where a walk ends, if it needs fewer steps than the fuel. -/
def walk : (fuel : Nat) → α → Option α
  | 0, _ => none
  | fuel + 1, a =>
    match next a with
    | none => some a
    | some b => walk fuel b

/-- One step of a walk. -/
def Leads (a b : α) : Prop := next a = some b

/-- No place that the walk comes to leads back to itself. -/
def Acyclic (a : α) : Prop := ∀ b, ReflTransGen (Leads next) a b → ¬ TransGen (Leads next) b b

variable {next} {a b : α}

theorem walk_reaches {fuel : Nat} (ends : walk next fuel a = some b) :
    ReflTransGen (Leads next) a b ∧ next b = none := by
  induction fuel generalizing a with
  | zero => cases ends
  | succ fuel ih =>
    rw [walk] at ends
    split at ends
    next last =>
      obtain rfl := Option.some.inj ends
      exact ⟨.refl, last⟩
    next c step =>
      obtain ⟨reached, last⟩ := ih ends
      exact ⟨.head step reached, last⟩

/-- There is only one place where a walk can end. -/
theorem walk_unique {fuel : Nat} {c : α} (ends : walk next fuel a = some c)
    (reached : ReflTransGen (Leads next) a b) (last : next b = none) : c = b := by
  induction reached using ReflTransGen.head_induction_on generalizing fuel with
  | refl =>
    cases fuel with
    | zero => cases ends
    | succ fuel =>
      rw [walk, last] at ends
      exact (Option.some.inj ends).symm
  | head step _ ih =>
    cases fuel with
    | zero => cases ends
    | succ fuel =>
      rw [walk, step] at ends
      exact ih ends

theorem acyclic_of_walk {fuel : Nat} (ends : walk next fuel a = some b) : Acyclic next a := by
  induction fuel generalizing a with
  | zero => cases ends
  | succ fuel ih =>
    rw [walk] at ends
    split at ends
    next last =>
      -- there is no step to begin a way back with
      intro c reached loop
      have stays : a = c := by
        cases reached.cases_head with
        | inl same => exact same
        | inr later =>
          obtain ⟨d, step, -⟩ := later
          rw [Leads, last] at step
          cases step
      subst stays
      obtain ⟨d, step, -⟩ := TransGen.head'_iff.mp loop
      rw [Leads, last] at step
      cases step
    next c step =>
      have rest := ih ends
      intro d reached loop
      rcases reached.cases_head with rfl | ⟨e, step', later⟩
      · -- the way back begins with the same step
        obtain ⟨e, step', back⟩ := TransGen.head'_iff.mp loop
        obtain rfl : c = e := Option.some.inj (step.symm.trans step')
        exact rest c .refl (TransGen.tail' back step)
      · obtain rfl : c = e := Option.some.inj (step.symm.trans step')
        exact rest d later loop

theorem exists_walk (reached : ReflTransGen (Leads next) a b) (last : next b = none) :
    ∃ fuel, walk next fuel a = some b := by
  induction reached using ReflTransGen.head_induction_on with
  | refl => exact ⟨1, by rw [walk, last]⟩
  | head step _ ih =>
    obtain ⟨fuel, ends⟩ := ih
    refine ⟨fuel + 1, ?_⟩
    rw [walk, step]
    exact ends

theorem walk_isSome_of_acyclic [DecidableEq α] {fuel : Nat} (places : Finset α)
    (inside : ∀ b, ReflTransGen (Leads next) a b → (next b).isSome → b ∈ places)
    (acyclic : Acyclic next a) (enough : places.card < fuel) : (walk next fuel a).isSome := by
  -- by induction on the fuel; a place that was left is not come to again
  induction fuel generalizing a places with
  | zero => exact absurd enough (Nat.not_lt_zero _)
  | succ fuel ih =>
    rw [walk]
    split
    · rfl
    next b step =>
      have here : a ∈ places := inside a .refl (by rw [step]; rfl)
      refine ih (places.erase a) (fun c reached more => ?_) (fun c reached => ?_) ?_
      · have differs : c ≠ a := by
          rintro rfl
          exact acyclic c .refl (TransGen.head' step reached)
        exact Finset.mem_erase.mpr ⟨differs, inside c (.head step reached) more⟩
      · exact acyclic c (.head step reached)
      · rw [Finset.card_erase_of_mem here]
        have some := Finset.card_pos.mpr ⟨a, here⟩
        omega

/-- Fuel for every place is enough for every walk that ends. -/
theorem walk_isSome_iff [DecidableEq α] {fuel : Nat} (places : Finset α)
    (inside : ∀ b, ReflTransGen (Leads next) a b → (next b).isSome → b ∈ places)
    (enough : places.card < fuel) : (walk next fuel a).isSome ↔ Acyclic next a := by
  constructor
  · intro ends
    obtain ⟨b, ends⟩ := Option.isSome_iff_exists.mp ends
    exact acyclic_of_walk ends
  · exact fun acyclic => walk_isSome_of_acyclic places inside acyclic enough

end

end Lib
