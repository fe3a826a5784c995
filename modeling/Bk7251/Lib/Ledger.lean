import Mathlib.Algebra.Group.Int.Defs
import Mathlib.Algebra.Order.BigOperators.Group.List
import Mathlib.Algebra.Ring.Int.Defs
import Mathlib.Tactic.Common

/-!
# Accounts

A list of entries, each with the amount it adds to an account. The account is in order if no beginning of
the list overdraws it; what is put together from lists in order is in order.
-/
namespace Lib

variable {α : Type*} (amount : α → Int)

def balance (entries : List α) : Int := (entries.map amount).sum

@[simp] theorem balance_nil : balance amount [] = 0 := rfl

@[simp] theorem balance_cons (entry : α) (entries : List α) :
    balance amount (entry :: entries) = amount entry + balance amount entries :=
  List.sum_cons

@[simp] theorem balance_append (first second : List α) :
    balance amount (first ++ second) = balance amount first + balance amount second := by
  rw [balance, List.map_append, List.sum_append]
  rfl

/-- The account is never overdrawn on the way. -/
def Solvent (entries : List α) : Prop := ∀ n, 0 ≤ balance amount (entries.take n)

variable {amount}

theorem Solvent.append {first second : List α} (h₁ : Solvent amount first) (h₂ : Solvent amount second) :
    Solvent amount (first ++ second) := by
  intro n
  rw [List.take_append, balance_append]
  exact Int.add_nonneg (h₁ n) (h₂ _)

theorem solvent_nil : Solvent amount [] := by
  intro n
  rw [List.take_nil]
  exact Int.le_refl 0

end Lib
