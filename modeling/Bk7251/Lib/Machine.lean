import Mathlib.Algebra.Group.Nat.Defs
import Mathlib.Data.List.Basic
import Mathlib.Tactic.Common

/-!
# Machines with outputs

A machine is a step function from a state and an input to a state and an output.
Runs feed a list of inputs; an invariant or a simulation is proved for one step
and carried along the run once and for all here.
-/
namespace Lib

namespace Machine

variable {σ τ ι ο : Type*}

/-- The state after all inputs, and the outputs in order. -/
def run (step : σ → ι → σ × ο) : σ → List ι → σ × List ο
  | s, [] => (s, [])
  | s, i :: is => ((run step (step s i).1 is).1, (step s i).2 :: (run step (step s i).1 is).2)

theorem run_fst (step : σ → ι → σ × ο) (s : σ) (is : List ι) :
    (run step s is).1 = is.foldl (fun s i => (step s i).1) s := by
  induction is generalizing s with
  | nil => rfl
  | cons i is ih => exact ih (step s i).1

/-- Renaming the inputs beforehand is renaming them at each step. -/
theorem run_map {κ : Type*} (step : σ → ι → σ × ο) (f : κ → ι) (s : σ) (is : List κ) :
    run step s (is.map f) = run (fun s i => step s (f i)) s is := by
  induction is generalizing s with
  | nil => rfl
  | cons i is ih => simp only [List.map_cons, run, ih]

theorem run_invariant (step : σ → ι → σ × ο) (inv : σ → Prop) (ok : ι → Prop)
    (preserved : ∀ s i, inv s → ok i → inv (step s i).1)
    (s : σ) (is : List ι) (initial : inv s) (all : ∀ i ∈ is, ok i) : inv (run step s is).1 := by
  induction is generalizing s with
  | nil => exact initial
  | cons i is ih =>
    exact ih (step s i).1 (preserved s i initial (all i (by simp)))
      (fun j member => all j (List.mem_cons_of_mem _ member))

/-- A simulation of the steps is a simulation of the runs, outputs included. -/
theorem run_simulates (f : σ → ι → σ × ο) (g : τ → ι → τ × ο) (rel : σ → τ → Prop)
    (ok : ι → Prop)
    (sim : ∀ s t i, rel s t → ok i → rel (f s i).1 (g t i).1 ∧ (f s i).2 = (g t i).2)
    (s : σ) (t : τ) (is : List ι) (initial : rel s t) (all : ∀ i ∈ is, ok i) :
    rel (run f s is).1 (run g t is).1 ∧ (run f s is).2 = (run g t is).2 := by
  induction is generalizing s t with
  | nil => exact ⟨initial, rfl⟩
  | cons i is ih =>
    obtain ⟨next, out⟩ := sim s t i initial (all i (by simp))
    obtain ⟨last, outs⟩ := ih _ _ next (fun j member => all j (List.mem_cons_of_mem _ member))
    exact ⟨last, by simp only [run, out, outs]⟩

/-- A machine that can stop: after a step without a result nothing happens any more. -/
def halting (step : σ → ι → Option (σ × ο)) : Option σ → ι → Option σ × Option ο
  | none, _ => (none, none)
  | some s, i => ((step s i).map Prod.fst, (step s i).map Prod.snd)

end Machine

/-! ### Machines without outputs

A run is a `foldl`; a condition on each step sees the state the step starts in. -/

section

variable {σ τ ι ο : Type*} (step : σ → ι → σ)

/-- Every step of the run meets `ok` in the state it starts in. -/
def Along (ok : σ → ι → Prop) : σ → List ι → Prop
  | _, [] => True
  | s, i :: is => ok s i ∧ Along ok (step s i) is

variable {step} {ok : σ → ι → Prop}

instance Along.decidable [∀ s i, Decidable (ok s i)] :
    (s : σ) → (is : List ι) → Decidable (Along step ok s is)
  | _, [] => isTrue trivial
  | s, i :: is =>
    have := Along.decidable (step s i) is
    inferInstanceAs (Decidable (ok s i ∧ Along step ok (step s i) is))

theorem Along.invariant {P : σ → Prop} (preserved : ∀ s i, P s → ok s i → P (step s i))
    {s : σ} {is : List ι} (initial : P s) (along : Along step ok s is) :
    P (is.foldl step s) := by
  induction is generalizing s with
  | nil => exact initial
  | cons i is ih => exact ih (preserved s i initial along.1) along.2

theorem along_of_forall (step : σ → ι → σ) {fine : ι → Prop} (s : σ) {is : List ι}
    (all : ∀ i ∈ is, fine i) : Along step (fun _ i => fine i) s is := by
  induction is generalizing s with
  | nil => trivial
  | cons i is ih =>
    exact ⟨all i (by simp), ih (step s i) fun j member => all j (List.mem_cons_of_mem _ member)⟩

theorem Along.and {ok' : σ → ι → Prop} {s : σ} {is : List ι} (along : Along step ok s is)
    (along' : Along step ok' s is) : Along step (fun s i => ok s i ∧ ok' s i) s is := by
  induction is generalizing s with
  | nil => trivial
  | cons i is ih => exact ⟨⟨along.1, along'.1⟩, ih along.2 along'.2⟩

/-- Two conditions that agree on the states of `P` are one along a run whose steps keep `P`. -/
theorem along_congr {ok' : σ → ι → Prop} {fine : ι → Prop} {P : σ → Prop}
    (same : ∀ s i, P s → (ok s i ↔ ok' s i))
    (preserved : ∀ s i, P s → fine i → ok s i → P (step s i)) {s : σ} {is : List ι} (initial : P s)
    (all : ∀ i ∈ is, fine i) : Along step ok s is ↔ Along step ok' s is := by
  induction is generalizing s with
  | nil => exact Iff.rfl
  | cons i is ih =>
    simp only [Along, ← same s i initial]
    apply and_congr_right
    intro now
    apply ih (preserved s i initial (all i (by simp)) now)
    intro j member
    exact all j (List.mem_cons_of_mem _ member)

/-- Where `ok` says exactly which steps keep `P`, `P` holds throughout a run exactly when every step
of the run is `ok`. -/
theorem always_iff_along {P : σ → Prop} (kept : ∀ s i, P s → (P (step s i) ↔ ok s i)) {s : σ}
    (initial : P s) (is : List ι) :
    (∀ part, part <+: is → P (part.foldl step s)) ↔ Along step ok s is := by
  induction is generalizing s with
  | nil =>
    refine iff_of_true (fun part small => ?_) trivial
    rw [List.prefix_nil.mp small]
    exact initial
  | cons i is ih =>
    constructor
    · intro always
      have next : P (step s i) := always [i] (List.cons_prefix_cons.mpr ⟨rfl, List.nil_prefix⟩)
      refine ⟨(kept s i initial).mp next, (ih next).mp fun part inside => ?_⟩
      exact always (i :: part) (List.cons_prefix_cons.mpr ⟨rfl, inside⟩)
    · rintro ⟨fine, later⟩ part inside
      cases part with
      | nil => exact initial
      | cons j part =>
        obtain ⟨rfl, inner⟩ := List.cons_prefix_cons.mp inside
        exact (ih ((kept s j initial).mpr fine)).mpr later part inner

/-- Every step of a run is `ok` exactly when it is `ok` in the state that the steps before it lead to. -/
theorem along_iff_each {s : σ} {is : List ι} :
    Along step ok s is ↔ ∀ part i, part ++ [i] <+: is → ok (part.foldl step s) i := by
  induction is generalizing s with
  | nil =>
    refine iff_of_true trivial fun part i small => ?_
    exact absurd (List.prefix_nil.mp small) (List.append_ne_nil_of_right_ne_nil part (List.cons_ne_nil i []))
  | cons i is ih =>
    constructor
    · rintro ⟨now, later⟩ part j inside
      cases part with
      | nil =>
        obtain ⟨rfl, _⟩ := List.cons_prefix_cons.mp inside
        exact now
      | cons k part =>
        obtain ⟨rfl, inner⟩ := List.cons_prefix_cons.mp inside
        exact ih.mp later part j inner
    · intro each
      refine ⟨each [] i (List.cons_prefix_cons.mpr ⟨rfl, List.nil_prefix⟩), ih.mpr fun part j inner => ?_⟩
      exact each (i :: part) j (List.cons_prefix_cons.mpr ⟨rfl, inner⟩)

/-- What holds of every output of a run is a condition on every step of a machine that is simulated,
where `ok` says exactly which steps of it give such an output. -/
theorem Machine.run_outputs_iff_of_sim {f : σ → ι → σ × ο} {g : τ → ι → τ} {rel : σ → τ → Prop}
    {Q : ο → Prop} {ok : τ → ι → Prop}
    (sim : ∀ s t i, rel s t → rel (f s i).1 (g t i) ∧ (Q (f s i).2 ↔ ok t i)) {s : σ} {t : τ}
    (initial : rel s t) (is : List ι) :
    (∀ o ∈ (Machine.run f s is).2, Q o) ↔ Along g ok t is := by
  induction is generalizing s t with
  | nil => exact iff_of_true (fun _ member => nomatch member) trivial
  | cons i is ih =>
    obtain ⟨later, each⟩ := sim s t i initial
    simp only [Machine.run, List.forall_mem_cons, each, ih later, Along]

theorem Machine.run_outputs_iff {f : σ → ι → σ × ο} {Q : ο → Prop} {ok : σ → ι → Prop}
    (each : ∀ s i, Q (f s i).2 ↔ ok s i) (s : σ) (is : List ι) :
    (∀ o ∈ (Machine.run f s is).2, Q o) ↔ Along (fun s i => (f s i).1) ok s is := by
  refine Machine.run_outputs_iff_of_sim (fun s t i same => ?_) (Eq.refl s) is
  subst same
  exact ⟨rfl, each s i⟩

/-- A family of conditions holds along a run exactly when all of them hold at every step. -/
theorem along_forall {κ : Type*} {ok : κ → σ → ι → Prop} (s : σ) (is : List ι) :
    (∀ k, Along step (ok k) s is) ↔ Along step (fun s i => ∀ k, ok k s i) s is := by
  induction is generalizing s with
  | nil => exact iff_of_true (fun _ => trivial) trivial
  | cons i is ih => simp only [Along, forall_and, ih]

/-- A simulation of the steps of a machine that can stop, under a condition on the state before each
step, is one of the runs, outputs included. -/
theorem Machine.run_halting_refines {f : σ → ι → Option (σ × ο)} {g : τ → ι → Option (τ × ο)}
    {rel : σ → τ → Prop} {ok : Option σ → ι → Prop}
    (sim : ∀ s t i, rel s t → ok (some s) i → Option.Rel (fun p q => rel p.1 q.1 ∧ p.2 = q.2) (f s i) (g t i))
    {s : Option σ} {t : Option τ} (initial : Option.Rel rel s t) {is : List ι}
    (along : Along (fun s i => (Machine.halting f s i).1) ok s is) :
    Option.Rel rel (Machine.run (Machine.halting f) s is).1 (Machine.run (Machine.halting g) t is).1 ∧
      (Machine.run (Machine.halting f) s is).2 = (Machine.run (Machine.halting g) t is).2 := by
  induction is generalizing s t with
  | nil => exact ⟨initial, rfl⟩
  | cons i is ih =>
    obtain ⟨states, outs⟩ : Option.Rel rel (Machine.halting f s i).1 (Machine.halting g t i).1 ∧
        (Machine.halting f s i).2 = (Machine.halting g t i).2 := by
      cases initial with
      | none => exact ⟨.none, rfl⟩
      | @some s t related =>
        have moved := sim s t i related along.1
        simp only [Machine.halting]
        generalize f s i = p at moved ⊢
        generalize g t i = q at moved ⊢
        cases moved with
        | none => exact ⟨.none, rfl⟩
        | some same => exact ⟨.some same.1, congrArg some same.2⟩
    obtain ⟨last, rest⟩ := ih states along.2
    exact ⟨last, by simp only [Machine.run, outs, rest]⟩

theorem along_append {s : σ} (is js : List ι) :
    Along step ok s (is ++ js) ↔ Along step ok s is ∧ Along step ok (is.foldl step s) js := by
  induction is generalizing s with
  | nil => simp [Along]
  | cons i is ih => simp only [List.cons_append, Along, List.foldl_cons, ih, and_assoc]

end

end Lib
