import Mathlib.Data.List.Basic
import Mathlib.Data.List.Nodup
import Mathlib.Data.List.Perm.Basic
import Mathlib.Logic.Function.Basic
import Mathlib.Tactic.Common

/-!
# Heaps with lifetimes

A heap hands out every address once. Reading, writing or freeing an address that
is not live has no result, so a computation that has one never used an address
before its allocation or after its release, and released none twice.
-/
namespace Lib

inductive Cell (α : Type*) where
  | unused
  | live (a : α)
  | freed
  deriving DecidableEq

structure Heap (α : Type*) where
  cell : Nat → Cell α
  next : Nat
  fresh : ∀ p, next ≤ p → cell p = .unused

namespace Heap

variable {α β : Type*}

def empty : Heap α := ⟨fun _ => .unused, 0, fun _ _ => rfl⟩

/-- The object at `p`, if `p` is live. -/
def get? (h : Heap α) (p : Nat) : Option α :=
  match h.cell p with
  | .live a => some a
  | _ => none

/-- The cell `p` replaced; only addresses that were handed out may change. -/
def put (h : Heap α) (p : Nat) (c : Cell α) (used : p < h.next) : Heap α where
  cell q := if q = p then c else h.cell q
  next := h.next
  fresh q above := by
    rw [if_neg (by omega)]
    exact h.fresh q above

/-- The address of a new object is `h.next`. -/
def alloc (h : Heap α) (a : α) : Heap α where
  cell q := if q = h.next then .live a else h.cell q
  next := h.next + 1
  fresh q above := by
    rw [if_neg (by omega)]
    exact h.fresh q (by omega)

theorem used_of_live {h : Heap α} {p : Nat} {a : α} (live : h.get? p = some a) : p < h.next := by
  by_contra above
  have unused := h.fresh p (by omega)
  simp [get?, unused] at live

/-- Store `a` in the live object at `p`. -/
def write (h : Heap α) (p : Nat) (a : α) : Option (Heap α) :=
  if live : (h.get? p).isSome then
    some (h.put p (.live a) (used_of_live (Option.eq_some_of_isSome live)))
  else none

/-- Release the live object at `p`. -/
def free (h : Heap α) (p : Nat) : Option (Heap α) :=
  if live : (h.get? p).isSome then
    some (h.put p .freed (used_of_live (Option.eq_some_of_isSome live)))
  else none

@[simp] theorem get?_empty (p : Nat) : (empty : Heap α).get? p = none := rfl

@[simp] theorem get?_alloc_self (h : Heap α) (a : α) : (h.alloc a).get? h.next = some a := by
  simp [alloc, get?]

theorem get?_alloc_of_ne (h : Heap α) (a : α) {p : Nat} (other : p ≠ h.next) :
    (h.alloc a).get? p = h.get? p := by
  simp [alloc, get?, other]

@[simp] theorem get?_next (h : Heap α) : h.get? h.next = none := by
  simp [get?, h.fresh h.next (Nat.le_refl _)]

/-- An allocation changes no object that is there already. -/
theorem get?_alloc_of_live {h : Heap α} {p : Nat} {b : α} (a : α) (live : h.get? p = some b) :
    (h.alloc a).get? p = some b := by
  have used := used_of_live live
  rw [get?_alloc_of_ne h a (by omega), live]

theorem write_of_live {h : Heap α} {p : Nat} {b : α} (a : α) (live : h.get? p = some b) :
    ∃ h', h.write p a = some h' ∧ h'.get? p = some a ∧
      ∀ q, q ≠ p → h'.get? q = h.get? q := by
  refine ⟨_, dif_pos (by simp [live]), by simp [put, get?], fun q other => ?_⟩
  simp [put, get?, other]

theorem free_of_live {h : Heap α} {p : Nat} {b : α} (live : h.get? p = some b) :
    ∃ h', h.free p = some h' ∧ ∀ q, q ≠ p → h'.get? q = h.get? q := by
  refine ⟨_, dif_pos (by simp [live]), fun q other => ?_⟩
  simp [put, get?, other]

theorem cell_of_free {h h' : Heap α} {p : Nat} (freed : h.free p = some h') :
    h'.next = h.next ∧ ∀ q, h'.cell q = if q = p then .freed else h.cell q := by
  unfold free at freed
  split at freed
  · obtain rfl := Option.some.inj freed
    exact ⟨rfl, fun _ => rfl⟩
  · exact absurd freed (by simp)

theorem get?_of_free {h h' : Heap α} {p : Nat} (freed : h.free p = some h') : h'.get? p = none := by
  rw [get?, (cell_of_free freed).2 p, if_pos rfl]

/-- Reading address after address gives what is stored there. -/
theorem mapM_get? {h : Heap α} {ps : List Nat} {xs : List α}
    (content : ps.map h.get? = xs.map some) : ps.mapM h.get? = some xs := by
  induction ps generalizing xs with
  | nil =>
    obtain rfl : xs = [] := by simpa using content.symm
    rfl
  | cons p ps ih =>
    cases xs with
    | nil => simp at content
    | cons x xs =>
      rw [List.map_cons, List.map_cons, List.cons.injEq] at content
      simp [List.mapM_cons, content.1, ih content.2]

/-- Release the objects at `ps`, in order. -/
def freeAll (h : Heap α) (ps : List Nat) : Option (Heap α) := ps.foldlM free h

/-- Distinct live objects can be released together, and no other object notices. -/
theorem freeAll_of_live {h : Heap α} {ps : List Nat} (distinct : ps.Nodup)
    (live : ∀ p ∈ ps, (h.get? p).isSome) :
    ∃ h', h.freeAll ps = some h' ∧ ∀ q, q ∉ ps → h'.get? q = h.get? q := by
  induction ps generalizing h with
  | nil => exact ⟨h, rfl, fun _ _ => rfl⟩
  | cons p ps ih =>
    obtain ⟨notIn, distinct⟩ := List.nodup_cons.mp distinct
    obtain ⟨b, here⟩ := Option.isSome_iff_exists.mp (live p (by simp))
    obtain ⟨h₁, freed, same⟩ := free_of_live here
    have live' : ∀ q ∈ ps, (h₁.get? q).isSome := by
      intro q member
      rw [same q (by rintro rfl; exact notIn member)]
      exact live q (by simp [member])
    obtain ⟨h₂, rest, same'⟩ := ih distinct live'
    refine ⟨h₂, by simp only [freeAll, List.foldlM_cons, freed] at rest ⊢; exact rest, ?_⟩
    intro q outside
    obtain ⟨notP, notRest⟩ : q ≠ p ∧ q ∉ ps := by simpa using outside
    rw [same' q notRest, same q notP]

/-! ### Owners -/

variable {ι : Type*}

/-- Each holder has a live object of its own, the idle ones have none, every live object has its holder,
and the others that were handed out have been released. -/
structure Owns (h : Heap α) (owner : ι → Option Nat) (holders idle : List ι) : Prop where
  live : ∀ i ∈ holders, ∃ p, owner i = some p ∧ (h.get? p).isSome
  idle : ∀ i ∈ idle, owner i = none
  apart : ∀ i ∈ holders, ∀ j ∈ holders, owner i = owner j → i = j
  held : ∀ p, (h.get? p).isSome → ∃ i ∈ holders, owner i = some p
  released : ∀ p, p < h.next → h.get? p = none → h.cell p = .freed

namespace Owns

variable {h : Heap α} {owner : ι → Option Nat} {holders idle holders' idle' : List ι} {i : ι}

theorem perm (owns : Owns h owner holders idle) (same : holders'.Perm holders)
    (same' : idle'.Perm idle) : Owns h owner holders' idle' where
  live j member := owns.live j (same.mem_iff.mp member)
  idle j member := owns.idle j (same'.mem_iff.mp member)
  apart j mj k mk := owns.apart j (same.mem_iff.mp mj) k (same.mem_iff.mp mk)
  held p live := by
    obtain ⟨j, member, holds⟩ := owns.held p live
    exact ⟨j, same.mem_iff.mpr member, holds⟩
  released := owns.released

theorem start (idle : List ι) : Owns (empty : Heap α) (fun _ => none) [] idle where
  live := by simp
  idle := by simp
  apart := by simp
  held := by simp
  released p below := absurd below (Nat.not_lt_zero p)

variable [DecidableEq ι]

/-- An idle one takes a new object. -/
theorem alloc (owns : Owns h owner holders (i :: idle)) (apart : i ∉ holders) (once : i ∉ idle) (a : α) :
    Owns (h.alloc a) (Function.update owner i (some h.next)) (i :: holders) idle := by
  have other {j : ι} (member : j ∈ holders) : Function.update owner i (some h.next) j = owner j :=
    Function.update_of_ne (fun same : j = i => apart (same ▸ member)) _ _
  have older {j : ι} (member : j ∈ holders) : owner j ≠ some h.next := by
    obtain ⟨p, holds, live⟩ := owns.live j member
    rintro same
    rw [holds, Option.some.injEq] at same
    rw [same, get?_next] at live
    exact absurd live (by simp)
  refine ⟨?_, ?_, ?_, ?_, ?_⟩
  · intro j member
    rcases List.mem_cons.mp member with rfl | member
    · exact ⟨h.next, Function.update_self _ _ _, by simp⟩
    · obtain ⟨p, holds, live⟩ := owns.live j member
      obtain ⟨b, live⟩ := Option.isSome_iff_exists.mp live
      exact ⟨p, by rw [other member, holds], by rw [get?_alloc_of_live a live]; rfl⟩
  · intro j member
    rw [Function.update_of_ne (fun same : j = i => once (same ▸ member))]
    exact owns.idle j (List.mem_cons_of_mem _ member)
  · intro j mj k mk same
    rcases List.mem_cons.mp mj with new | mj <;> rcases List.mem_cons.mp mk with new' | mk
    · rw [new, new']
    · rw [new, Function.update_self, other mk] at same
      exact absurd same.symm (older mk)
    · rw [new', Function.update_self, other mj] at same
      exact absurd same (older mj)
    · rw [other mj, other mk] at same
      exact owns.apart j mj k mk same
  · intro p live
    by_cases new : p = h.next
    · exact ⟨i, List.mem_cons_self, by rw [new, Function.update_self]⟩
    · rw [get?_alloc_of_ne h a new] at live
      obtain ⟨j, member, holds⟩ := owns.held p live
      exact ⟨j, List.mem_cons_of_mem _ member, by rw [other member, holds]⟩
  · intro p below gone
    have ne : p ≠ h.next := by
      rintro rfl
      exact absurd gone (by simp)
    rw [get?_alloc_of_ne h a ne] at gone
    have below' : p < h.next + 1 := below
    have old := owns.released p (by omega) gone
    simp only [Heap.alloc, if_neg ne, old]

/-- A holder gives its object back, which is live, so it is not released twice. -/
theorem free (owns : Owns h owner (i :: holders) idle) (once : i ∉ holders) :
    ∃ p h', owner i = some p ∧ h.free p = some h' ∧
      Owns h' (Function.update owner i none) holders (i :: idle) := by
  obtain ⟨p, holds, live⟩ := owns.live i List.mem_cons_self
  obtain ⟨b, live⟩ := Option.isSome_iff_exists.mp live
  obtain ⟨h', freed, same⟩ := free_of_live live
  have other {j : ι} (member : j ∈ holders) : Function.update owner i none j = owner j :=
    Function.update_of_ne (fun eq : j = i => once (eq ▸ member)) _ _
  have elsewhere {j : ι} (member : j ∈ holders) {q : Nat} (at_q : owner j = some q) : q ≠ p := by
    rintro rfl
    have eq := owns.apart j (List.mem_cons_of_mem _ member) i List.mem_cons_self (at_q.trans holds.symm)
    exact once (eq ▸ member)
  refine ⟨p, h', holds, freed, ?_, ?_, ?_, ?_, ?_⟩
  · intro j member
    obtain ⟨q, at_q, live⟩ := owns.live j (List.mem_cons_of_mem _ member)
    exact ⟨q, by rw [other member, at_q], by rw [same q (elsewhere member at_q)]; exact live⟩
  · intro j member
    by_cases eq : j = i
    · rw [eq, Function.update_self]
    · rw [Function.update_of_ne eq]
      exact owns.idle j ((List.mem_cons.mp member).resolve_left eq)
  · intro j mj k mk eq
    rw [other mj, other mk] at eq
    exact owns.apart j (List.mem_cons_of_mem _ mj) k (List.mem_cons_of_mem _ mk) eq
  · intro q left
    have ne : q ≠ p := by
      rintro rfl
      rw [get?_of_free freed] at left
      exact absurd left (by simp)
    rw [same q ne] at left
    obtain ⟨j, member, at_q⟩ := owns.held q left
    rcases List.mem_cons.mp member with rfl | member
    · rw [holds, Option.some.injEq] at at_q
      exact absurd at_q.symm ne
    · exact ⟨j, member, by rw [other member, at_q]⟩
  · obtain ⟨next, cell⟩ := cell_of_free freed
    intro q below gone
    by_cases eq : q = p
    · rw [cell, if_pos eq]
    · rw [same q eq] at gone
      rw [cell, if_neg eq]
      exact owns.released q (next ▸ below) gone

end Owns

end Heap

end Lib
