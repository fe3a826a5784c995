import Mathlib.Data.List.Cycle
import Mathlib.Tactic.Common

/-!
# Circular doubly linked lists

The nodes are linked both ways, the last to the first. Where a circle starts does not matter, so an edit
is stated at the seam; every node that is not named keeps its links.
-/
namespace Lib

namespace Links

variable {ν : Type*} {next prev next' prev' : ν → ν} {c u v : List ν} {p s x : ν}

/-- `y` comes after `x`, by both links. -/
def Link (next prev : ν → ν) (x y : ν) : Prop := next x = y ∧ prev y = x

/-- The nodes of `c`, in the order of their links. -/
structure Circular (next prev : ν → ν) (c : List ν) : Prop where
  linked : (c : Cycle ν).Chain (Link next prev)
  nodup : c.Nodup

theorem circular_rotate : Circular next prev (u ++ v) ↔ Circular next prev (v ++ u) := by
  have same : ((u ++ v : List ν) : Cycle ν) = (v ++ u : List ν) := Cycle.coe_eq_coe.mpr List.isRotated_append
  constructor
  · exact fun ⟨linked, nodup⟩ => ⟨same ▸ linked, List.nodup_append_comm.mp nodup⟩
  · exact fun ⟨linked, nodup⟩ => ⟨same ▸ linked, List.nodup_append_comm.mp nodup⟩

theorem circular_singleton : Circular next prev [x] ↔ next x = x ∧ prev x = x :=
  ⟨fun circular => (Cycle.chain_singleton _ x).mp circular.linked,
    fun links => ⟨(Cycle.chain_singleton _ x).mpr links, List.nodup_singleton x⟩⟩

/-- A circle from its first node on to its last, and the links of the seam. -/
theorem circular_cons : Circular next prev (s :: u) ↔
    List.IsChain (Link next prev) (s :: u) ∧ Link next prev ((s :: u).getLast (by simp)) s ∧ (s :: u).Nodup := by
  have seam : List.IsChain (Link next prev) (s :: u ++ [s]) ↔
      List.IsChain (Link next prev) (s :: u) ∧ Link next prev ((s :: u).getLast (by simp)) s := by
    rw [List.isChain_append, List.getLast?_eq_some_getLast (List.cons_ne_nil s u)]
    simp
  constructor
  · intro circular
    obtain ⟨chain, last⟩ := seam.mp ((Cycle.chain_coe_cons _ s u).mp circular.linked)
    exact ⟨chain, last, circular.nodup⟩
  · rintro ⟨chain, last, nodup⟩
    exact ⟨(Cycle.chain_coe_cons _ s u).mpr (seam.mpr ⟨chain, last⟩), nodup⟩

/-- Links inside a list depend on the next node of all but the last and the previous one of all but the first. -/
theorem chain_congr (chain : List.IsChain (Link next prev) (s :: u)) (forward : ∀ y ∈ (s :: u).dropLast, next' y = next y)
    (backward : ∀ y ∈ u, prev' y = prev y) : List.IsChain (Link next' prev') (s :: u) := by
  induction u generalizing s with
  | nil => exact .singleton s
  | cons t u ih =>
    obtain ⟨link, rest⟩ := List.isChain_cons_cons.mp chain
    have first := forward s (by simp)
    have second := backward t (by simp)
    refine List.isChain_cons_cons.mpr ⟨⟨first.trans link.1, second.trans link.2⟩, ih rest ?_ ?_⟩
    · exact fun y member => forward y (List.mem_cons_of_mem s member)
    · exact fun y member => backward y (List.mem_cons_of_mem t member)

theorem Circular.congr (circular : Circular next prev c) (forward : ∀ y ∈ c, next' y = next y)
    (backward : ∀ y ∈ c, prev' y = prev y) : Circular next' prev' c := by
  cases c with
  | nil => exact ⟨Cycle.Chain.nil _, List.nodup_nil⟩
  | cons s u =>
    obtain ⟨chain, ⟨last, first⟩, nodup⟩ := circular_cons.mp circular
    refine circular_cons.mpr ⟨chain_congr chain ?_ ?_, ⟨?_, ?_⟩, nodup⟩
    · exact fun y member => forward y (List.mem_of_mem_dropLast member)
    · exact fun y member => backward y (List.mem_cons_of_mem s member)
    · exact (forward _ (List.getLast_mem _)).trans last
    · exact (backward s (by simp)).trans first

/-- The links between the last node of `u` and the node that comes behind it. -/
theorem Circular.seam (circular : Circular next prev (u ++ v)) (ne : u ≠ []) :
    ∃ s, (v ++ u).head? = some s ∧ next (u.getLast ne) = s ∧ prev s = u.getLast ne := by
  have turned := circular_rotate.mp circular
  have whole : v ++ u ≠ [] := by simp [ne]
  have ends : (v ++ u).getLast whole = u.getLast ne := List.getLast_append_right ne
  obtain ⟨s, w, split⟩ := List.exists_cons_of_ne_nil whole
  simp only [split] at turned ends ⊢
  obtain ⟨-, ⟨after, before⟩, -⟩ := circular_cons.mp turned
  rw [ends] at after before
  exact ⟨s, rfl, after, before⟩

theorem getLast_notMem_dropLast {c : List ν} (nodup : c.Nodup) (ne : c ≠ []) : c.getLast ne ∉ c.dropLast := by
  rw [← List.dropLast_append_getLast ne, List.nodup_append] at nodup
  exact fun member => nodup.2.2 _ member _ (by simp) rfl

section Edits

variable [DecidableEq ν]

/-- A node is put in at the seam, between the last node and the first. -/
theorem Circular.insert (circular : Circular next prev (s :: u)) (fresh : x ∉ s :: u)
    (last : next p = s) (first : prev s = p) (member : p ∈ s :: u) :
    Circular (Function.update (Function.update next x s) p x) (Function.update (Function.update prev x p) s x)
      (s :: u ++ [x]) := by
  obtain ⟨chain, seam, nodup⟩ := circular_cons.mp circular
  obtain rfl : (s :: u).getLast (by simp) = p := seam.2.symm.trans first
  generalize ends : (s :: u).getLast (by simp) = p at *
  have ne : p ≠ x := fun eq => fresh (eq ▸ member)
  have notFirst : s ≠ x := fun eq => fresh (eq ▸ List.mem_cons_self)
  refine circular_cons.mpr ⟨?_, ?_, ?_⟩
  · refine List.isChain_append.mpr ⟨chain_congr chain ?_ ?_, .singleton x, ?_⟩
    · intro y inside
      have notLast : y ≠ p := by
        rintro rfl
        exact getLast_notMem_dropLast nodup (List.cons_ne_nil s u) (ends ▸ inside)
      have notNew : y ≠ x := fun eq => fresh (eq ▸ List.mem_of_mem_dropLast inside)
      rw [Function.update_of_ne notLast, Function.update_of_ne notNew]
    · intro y inside
      have notHead : y ≠ s := fun eq => (List.nodup_cons.mp nodup).1 (eq ▸ inside)
      have notNew : y ≠ x := fun eq => fresh (eq ▸ List.mem_cons_of_mem s inside)
      rw [Function.update_of_ne notHead, Function.update_of_ne notNew]
    · intro y atEnd z atStart
      rw [List.getLast?_eq_some_getLast (List.cons_ne_nil s u), ends] at atEnd
      obtain rfl : p = y := Option.some.inj atEnd
      obtain rfl : x = z := Option.some.inj atStart
      exact ⟨Function.update_self .., by rw [Function.update_of_ne notFirst.symm, Function.update_self]⟩
  · have newLast : (s :: (u ++ [x])).getLast (by simp) = x := by simp
    change Link _ _ ((s :: (u ++ [x])).getLast _) s
    rw [newLast]
    exact ⟨by rw [Function.update_of_ne ne.symm, Function.update_self], Function.update_self ..⟩
  · exact List.nodup_append.mpr ⟨nodup, List.nodup_singleton x, fun y inside z new eq =>
      fresh (List.mem_singleton.mp new ▸ eq ▸ inside)⟩

/-- The node at the seam is taken out. -/
theorem Circular.remove (circular : Circular next prev (x :: s :: u)) :
    next x = s ∧ Circular (Function.update next (prev x) (next x)) (Function.update prev (next x) (prev x)) (s :: u) := by
  obtain ⟨chain, seam, nodup⟩ := circular_cons.mp circular
  obtain ⟨⟨after, before⟩, rest⟩ := List.isChain_cons_cons.mp chain
  obtain ⟨outside, nodup'⟩ := List.nodup_cons.mp nodup
  have last : prev x = (s :: u).getLast (by simp) := seam.2
  rw [after, last]
  refine ⟨rfl, circular_cons.mpr ⟨chain_congr rest ?_ ?_, ⟨Function.update_self .., Function.update_self ..⟩, nodup'⟩⟩
  · intro y inside
    have notLast : y ≠ (s :: u).getLast (by simp) := by
      rintro rfl
      exact getLast_notMem_dropLast nodup' (List.cons_ne_nil s u) inside
    rw [Function.update_of_ne notLast]
  · intro y inside
    have notHead : y ≠ s := fun eq => (List.nodup_cons.mp nodup').1 (eq ▸ inside)
    rw [Function.update_of_ne notHead]

/-- A node is put in behind `u`. -/
theorem Circular.insertBehind (circular : Circular next prev (u ++ v)) (ne : u ≠ []) (fresh : x ∉ u ++ v)
    (last : u.getLast ne = p) :
    Circular (Function.update (Function.update next x (next p)) p x)
      (Function.update (Function.update prev x p) (next p) x) (u ++ x :: v) := by
  have turned := circular_rotate.mp circular
  have member : p ∈ v ++ u := List.mem_append_right v (last ▸ List.getLast_mem ne)
  have fresh' : x ∉ v ++ u := fun inside => fresh (List.mem_append.mpr (List.mem_append.mp inside).symm)
  obtain ⟨s, head, after, before⟩ := circular.seam ne
  rw [last] at after before
  obtain ⟨w, split⟩ := List.head?_eq_some_iff.mp head
  rw [split] at turned member fresh'
  have put := turned.insert fresh' after before member
  rw [← split, List.append_assoc] at put
  have turnedBack := circular_rotate.mp put
  rwa [List.append_assoc, List.singleton_append, ← after] at turnedBack

/-- A node is taken out from behind `u`. -/
theorem Circular.removeBehind (circular : Circular next prev (u ++ x :: v)) (ne : u ≠ []) :
    prev x = u.getLast ne ∧ next x ∈ u ++ v ∧
      Circular (Function.update next (prev x) (next x)) (Function.update prev (next x) (prev x)) (u ++ v) := by
  have turned := circular_rotate.mp circular
  have whole : v ++ u ≠ [] := by simp [ne]
  obtain ⟨s, w, split⟩ := List.exists_cons_of_ne_nil whole
  rw [List.cons_append, split] at turned
  obtain ⟨after, out⟩ := turned.remove
  obtain ⟨-, ⟨-, before⟩, -⟩ := circular_cons.mp turned
  refine ⟨?_, ?_, ?_⟩
  · rw [before, List.getLast_cons (List.cons_ne_nil s w)]
    simp only [← split]
    exact List.getLast_append_right ne
  · have head : s ∈ v ++ u := split ▸ List.mem_cons_self
    exact after ▸ List.mem_append.mpr (List.mem_append.mp head).symm
  · rw [← split] at out
    exact circular_rotate.mp out

end Edits

end Links

end Lib
