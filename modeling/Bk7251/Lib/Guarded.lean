import Mathlib.Data.List.Basic
import Mathlib.Tactic.Common

/-!
# Partial steps under a guard

A step without a result is a fault. A guard says which inputs a state allows; where every allowed step
has a result and keeps an invariant, every allowed run has one and ends in the invariant. What holds of the results
that there are is carried through the computation step by step.
-/
namespace Lib

namespace Guarded

variable {σ ι : Type*} {step : σ → ι → Option σ} {ok : σ → ι → Prop} {P : σ → Prop}

/-- Every input of the run is allowed in the state that it meets. -/
def Allowed (step : σ → ι → Option σ) (ok : σ → ι → Prop) : σ → List ι → Prop
  | _, [] => True
  | s, i :: is => ok s i ∧ ∀ s' ∈ step s i, Allowed step ok s' is

instance Allowed.decidable [∀ s i, Decidable (ok s i)] : (s : σ) → (is : List ι) → Decidable (Allowed step ok s is)
  | _, [] => isTrue trivial
  | s, i :: is =>
    have : Decidable (∀ s' ∈ step s i, Allowed step ok s' is) :=
      match h : step s i with
      | none => isTrue (by simp)
      | some s' =>
        match Allowed.decidable s' is with
        | isTrue yes => isTrue (by simpa using yes)
        | isFalse no => isFalse (by simpa using no)
    inferInstanceAs (Decidable (ok s i ∧ ∀ s' ∈ step s i, Allowed step ok s' is))

theorem Allowed.mono {ok' : σ → ι → Prop} (weaker : ∀ s i, ok s i → ok' s i) {s : σ} {is : List ι}
    (allowed : Allowed step ok s is) : Allowed step ok' s is := by
  induction is generalizing s with
  | nil => trivial
  | cons i is ih => exact ⟨weaker s i allowed.1, fun s' moved => ih (allowed.2 s' moved)⟩

/-- The run lemma. -/
theorem run_keeps (keeps : ∀ s i, P s → ok s i → ∃ s', step s i = some s' ∧ P s') {s : σ} {is : List ι}
    (initial : P s) (allowed : Allowed step ok s is) : ∃ s', is.foldlM step s = some s' ∧ P s' := by
  induction is generalizing s with
  | nil => exact ⟨s, rfl, initial⟩
  | cons i is ih =>
    obtain ⟨s', moved, next⟩ := keeps s i initial allowed.1
    obtain ⟨s'', ran, last⟩ := ih next (allowed.2 s' moved)
    exact ⟨s'', by rw [List.foldlM_cons, moved]; exact ran, last⟩

/-! ### What a partial computation ends in -/

section

variable {α β : Type*} {P : α → Prop} {Q : β → Prop} {o : Option α}

/-- If there is a result, it is as `P` says. -/
def Ends (P : α → Prop) (o : Option α) : Prop := ∀ a ∈ o, P a

theorem Ends.any : Ends (fun _ => True) o := fun _ _ => trivial

theorem Ends.some {a : α} (holds : P a) : Ends P (some a) := by
  rintro _ ⟨⟩
  exact holds

theorem Ends.bind (first : Ends P o) {f : α → Option β} (next : ∀ a, P a → Ends Q (f a)) : Ends Q (o.bind f) := by
  intro b result
  obtain ⟨a, here, there⟩ := Option.bind_eq_some_iff.mp result
  exact next a (first a here) b there

theorem Ends.map (first : Ends P o) {f : α → β} (next : ∀ a, P a → Q (f a)) : Ends Q (o.map f) := by
  intro b result
  obtain ⟨a, here, rfl⟩ := Option.map_eq_some_iff.mp result
  exact next a (first a here)

theorem Ends.mono (ends : Ends P o) {P' : α → Prop} (weaker : ∀ a, P a → P' a) : Ends P' o :=
  fun a here => weaker a (ends a here)

theorem Ends.ite {c : Prop} [Decidable c] {o' : Option α} (yes : c → Ends P o) (no : ¬c → Ends P o') :
    Ends P (if c then o else o') := by
  split
  · exact yes ‹c›
  · exact no ‹¬c›

end

end Guarded

end Lib
