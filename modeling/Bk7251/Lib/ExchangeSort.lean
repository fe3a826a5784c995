import Mathlib.Data.List.Basic
import Mathlib.Data.List.Perm.Basic
import Mathlib.Order.Basic
import Mathlib.Order.Lattice
import Mathlib.Tactic.Common

/-!
# Exchange sort

The in-place sort with two nested loops: for every `i`, each later element that
compares greater is exchanged with the one at `i`. The result is a permutation in
non-increasing order of the key.
-/
namespace Lib

namespace ExchangeSort

variable {α κ : Type*} [LinearOrder κ]

/-- Exchange the elements at `i` and `j` if the one at `j` has the greater key. -/
def exchange (key : α → κ) (i : Nat) (l : List α) (j : Nat) : List α :=
  match l[i]?, l[j]? with
  | some a, some b => if key a < key b then (l.set j a).set i b else l
  | _, _ => l

/-- The inner loop over `j = i + 1, ..`. -/
def pass (key : α → κ) (l : List α) (i : Nat) : List α :=
  (List.range' (i + 1) (l.length - (i + 1))).foldl (exchange key i) l

def sort (key : α → κ) (l : List α) : List α :=
  (List.range (l.length - 1)).foldl (pass key) l

/-- No element from `i` on is greater than one before it, for each place before `i`. -/
def Settled (key : α → κ) (l : List α) (i : Nat) : Prop :=
  ∀ a b x y, a < i → a < b → l[a]? = some x → l[b]? = some y → key y ≤ key x

/-- The element at `i` is the greatest of those up to `m`. -/
def Topped (key : α → κ) (l : List α) (i m : Nat) : Prop :=
  ∀ b x y, i < b → b < m → l[i]? = some x → l[b]? = some y → key y ≤ key x

variable {key : α → κ} {l : List α} {i j : Nat}

/-- Either nothing changes and `j` is not greater than `i`, or the two are exchanged. -/
theorem exchange_cases (key : α → κ) (order : i < j) (bound : j < l.length) :
    ∃ a b, l[i]? = some a ∧ l[j]? = some b ∧
      (key b ≤ key a ∧ exchange key i l j = l ∨
        key a < key b ∧ exchange key i l j = (l.set j a).set i b) := by
  have first : l[i]? = some l[i] := List.getElem?_eq_getElem _
  have second : l[j]? = some l[j] := List.getElem?_eq_getElem _
  refine ⟨_, _, first, second, ?_⟩
  simp only [exchange, first, second]
  rcases le_or_gt (key l[j]) (key l[i]) with below | above
  · exact .inl ⟨below, if_neg (not_lt_of_ge below)⟩
  · exact .inr ⟨above, if_pos above⟩

theorem getElem?_swapped {a b : α} (order : i < j) (bound : j < l.length) (k : Nat) :
    ((l.set j a).set i b)[k]? = if k = i then some b else if k = j then some a else l[k]? := by
  rw [List.getElem?_set, List.getElem?_set]
  by_cases first : k = i
  · subst first
    simp
    omega
  · by_cases second : k = j
    · subst second
      simp [bound, first, Ne.symm first]
    · simp [first, second, Ne.symm first, Ne.symm second]

theorem exchange_perm (order : i < j) (bound : j < l.length) :
    (exchange key i l j).Perm l := by
  obtain ⟨a, b, first, second, same | moved⟩ := exchange_cases key order bound
  · rw [same.2]
  · obtain ⟨_, rfl⟩ := List.getElem?_eq_some_iff.mp first
    obtain ⟨_, rfl⟩ := List.getElem?_eq_some_iff.mp second
    rw [moved.2]
    exact List.set_set_perm bound (by omega)

theorem exchange_settled (order : i < j) (bound : j < l.length) (settled : Settled key l i) :
    Settled key (exchange key i l j) i := by
  obtain ⟨a, b, first, second, same | moved⟩ := exchange_cases key order bound
  · rw [same.2]
    exact settled
  · rw [moved.2]
    intro c d x y before below atC atD
    have before' : c ≠ i ∧ c ≠ j := by omega
    rw [getElem?_swapped order bound, if_neg before'.1, if_neg before'.2] at atC
    rw [getElem?_swapped order bound] at atD
    -- whatever stands at `d` now stood behind `c` before
    split at atD
    · cases atD
      exact settled c j x _ before (by omega) atC second
    · split at atD
      · cases atD
        exact settled c i x _ before before atC first
      · exact settled c d x y before below atC atD

theorem exchange_topped (order : i < j) (bound : j < l.length) (topped : Topped key l i j) :
    Topped key (exchange key i l j) i (j + 1) := by
  obtain ⟨a, b, first, second, same | moved⟩ := exchange_cases key order bound
  · rw [same.2]
    intro d x y above below atI atD
    rcases Nat.lt_or_ge d j with earlier | last
    · exact topped d x y above earlier atI atD
    · obtain rfl : d = j := by omega
      rw [first, Option.some.injEq] at atI
      rw [second, Option.some.injEq] at atD
      exact atI ▸ atD ▸ same.1
  · rw [moved.2]
    intro d x y above below atI atD
    rw [getElem?_swapped order bound, if_pos rfl, Option.some.injEq] at atI
    rw [getElem?_swapped order bound, if_neg (by omega)] at atD
    subst atI
    split at atD
    · cases atD
      exact le_of_lt moved.1
    · exact (topped d a y above (by omega) first atD).trans (le_of_lt moved.1)

/-- The inner loop over any stretch `i < m, m + 1, .., m + n - 1` of places. -/
theorem pass_stretch (n m : Nat) (l : List α) (order : i < m) (bound : m + n ≤ l.length)
    (settled : Settled key l i) (topped : Topped key l i m) :
    ((List.range' m n).foldl (exchange key i) l).Perm l ∧
      Settled key ((List.range' m n).foldl (exchange key i) l) i ∧
      Topped key ((List.range' m n).foldl (exchange key i) l) i (m + n) := by
  induction n generalizing m l with
  | zero => exact ⟨.refl _, settled, topped⟩
  | succ n ih =>
    have perm : (exchange key i l m).Perm l := exchange_perm order (by omega)
    have step := ih (m + 1) (exchange key i l m) (by omega) (by rw [perm.length_eq]; omega)
      (exchange_settled order (by omega) settled) (exchange_topped order (by omega) topped)
    rw [List.range'_succ, List.foldl_cons, show m + (n + 1) = m + 1 + n by omega]
    exact ⟨step.1.trans perm, step.2⟩

theorem pass_settled (bound : i < l.length) (settled : Settled key l i) :
    (pass key l i).Perm l ∧ Settled key (pass key l i) (i + 1) := by
  have topped : Topped key l i (i + 1) := fun b _ _ above below => absurd below (by omega)
  obtain ⟨perm, settled', topped'⟩ := pass_stretch (l.length - (i + 1)) (i + 1) l (by omega)
    (by omega) settled topped
  refine ⟨perm, fun a b x y before below atA atB => ?_⟩
  rcases Nat.lt_or_ge a i with earlier | last
  · exact settled' a b x y earlier below atA atB
  · obtain rfl : a = i := by omega
    have inside : b < l.length := by
      rw [← perm.length_eq]
      exact (List.getElem?_eq_some_iff.mp atB).1
    exact topped' b x y below (by omega) atA atB

theorem passes_settled (key : α → κ) (n : Nat) (l : List α) (bound : n ≤ l.length) :
    ((List.range n).foldl (pass key) l).Perm l ∧
      Settled key ((List.range n).foldl (pass key) l) n := by
  induction n with
  | zero => exact ⟨.refl _, fun a _ _ _ before => absurd before (by omega)⟩
  | succ n ih =>
    obtain ⟨perm, settled⟩ := ih (by omega)
    obtain ⟨perm', settled'⟩ := pass_settled (i := n) (by rw [perm.length_eq]; omega) settled
    rw [List.range_succ, List.foldl_append]
    exact ⟨perm'.trans perm, settled'⟩

theorem sort_perm (key : α → κ) (l : List α) : (sort key l).Perm l :=
  (passes_settled key (l.length - 1) l (by omega)).1

theorem sort_sorted (key : α → κ) (l : List α) :
    (sort key l).Pairwise fun a b => key b ≤ key a := by
  obtain ⟨perm, settled⟩ := passes_settled key (l.length - 1) l (by omega)
  rw [List.pairwise_iff_getElem]
  intro a b inA inB order
  have inB' : b < l.length := by
    rw [← perm.length_eq]
    exact inB
  exact settled a b _ _ (by omega) order (List.getElem?_eq_getElem inA)
    (List.getElem?_eq_getElem inB)

/-! ### Keys behind a lookup that can fail -/

def exchangeM (key : α → Option κ) (i : Nat) (l : List α) (j : Nat) : Option (List α) :=
  l[i]?.bind fun a => l[j]?.bind fun b => (key b).bind fun x => (key a).map fun y =>
    if y < x then (l.set j a).set i b else l

def passM (key : α → Option κ) (l : List α) (i : Nat) : Option (List α) :=
  (List.range' (i + 1) (l.length - (i + 1))).foldlM (exchangeM key i) l

def sortM (key : α → Option κ) (l : List α) : Option (List α) :=
  (List.range (l.length - 1)).foldlM (passM key) l

/-- A loop whose body succeeds wherever the invariant holds is the loop over the results. -/
theorem foldlM_eq_some {σ ι : Type*} {f : σ → ι → Option σ} {g : σ → ι → σ} {P : σ → Prop}
    {is : List ι} (body : ∀ s, ∀ i ∈ is, P s → f s i = some (g s i) ∧ P (g s i)) {s : σ}
    (initial : P s) : is.foldlM f s = some (is.foldl g s) ∧ P (is.foldl g s) := by
  induction is generalizing s with
  | nil => exact ⟨rfl, initial⟩
  | cons i is ih =>
    obtain ⟨result, next⟩ := body s i (by simp) initial
    rw [List.foldlM_cons, result, Option.bind_eq_bind, Option.bind_some, List.foldl_cons]
    exact ih (fun s j member => body s j (List.mem_cons_of_mem _ member)) next

section

variable {look : α → Option κ} {l₀ : List α}

theorem exchangeM_eq (found : ∀ a ∈ l₀, look a = some (key a)) (perm : l.Perm l₀) (order : i < j)
    (bound : j < l.length) : exchangeM look i l j = some (exchange key i l j) := by
  obtain ⟨a, b, first, second, _⟩ := exchange_cases key order bound
  have lookA := found a (perm.mem_iff.mp (List.mem_of_getElem? first))
  have lookB := found b (perm.mem_iff.mp (List.mem_of_getElem? second))
  simp only [exchangeM, exchange, first, second, lookA, lookB, Option.bind_some,
    Option.map_some]

theorem passM_eq (found : ∀ a ∈ l₀, look a = some (key a)) (perm : l.Perm l₀) :
    passM look l i = some (pass key l i) ∧ (pass key l i).Perm l₀ := by
  refine foldlM_eq_some (P := fun l' : List α => l'.Perm l₀) (fun l' j member perm' => ?_) perm
  obtain ⟨above, below⟩ := List.mem_range'_1.mp member
  have bound : j < l'.length := by
    rw [perm'.length_eq, ← perm.length_eq]
    omega
  exact ⟨exchangeM_eq found perm' (by omega) bound,
    (exchange_perm (by omega) bound).trans perm'⟩

/-- Where every lookup succeeds the sort does, with the same result. -/
theorem sortM_eq (found : ∀ a ∈ l, look a = some (key a)) :
    sortM look l = some (sort key l) :=
  (foldlM_eq_some (P := fun l' : List α => l'.Perm l)
    (fun _ _ _ perm => passM_eq found perm) (List.Perm.refl l)).1

end

end ExchangeSort

end Lib
