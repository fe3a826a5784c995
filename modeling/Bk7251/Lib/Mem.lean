import Mathlib.Algebra.Group.Nat.Defs
import Mathlib.Data.List.Basic
import Mathlib.Tactic.Common

/-!
# Flat memories

A memory is a total map from addresses to cells. Ranges are read and written as
lists; every fact about a copy is a fact about the cells it touches.
-/
namespace Lib

/-- A memory as seen from one base pointer: cell `i` is `base[i]`. -/
abbrev Mem (α : Type*) := Nat → α

namespace Mem

variable {α : Type*}

/-- The `n` cells from `a` on. -/
def read (m : Mem α) (a n : Nat) : List α := (List.range n).map fun i => m (a + i)

/-- Store `xs` from `a` on; every other cell keeps its value. -/
def write (m : Mem α) (a : Nat) (xs : List α) : Mem α :=
  fun x => if a ≤ x then (xs[x - a]?).getD (m x) else m x

/-- `memcpy(&dst[d], &src[s], n)`. -/
def copy (dst : Mem α) (d : Nat) (src : Mem α) (s n : Nat) : Mem α :=
  dst.write d (src.read s n)

@[simp] theorem length_read (m : Mem α) (a n : Nat) : (m.read a n).length = n := by
  simp [read]

@[simp] theorem read_zero (m : Mem α) (a : Nat) : m.read a 0 = [] := rfl

theorem getElem_read (m : Mem α) (a n i : Nat) (h : i < (m.read a n).length) :
    (m.read a n)[i] = m (a + i) := by
  simp [read]

theorem head?_read (m : Mem α) (a : Nat) {n : Nat} (positive : 0 < n) : (m.read a n).head? = some (m a) := by
  rw [List.head?_eq_getElem?, List.getElem?_eq_getElem (by rwa [length_read]), getElem_read, Nat.add_zero]

theorem read_congr (m m' : Mem α) (a n : Nat) (same : ∀ x, a ≤ x → x < a + n → m x = m' x) :
    m.read a n = m'.read a n := by
  apply List.map_congr_left
  intro i member
  have bound := List.mem_range.mp member
  exact same (a + i) (by omega) (by omega)

theorem read_add (m : Mem α) (a n k : Nat) :
    m.read a (n + k) = m.read a n ++ m.read (a + n) k := by
  simp [read, List.range_add, List.map_map, Function.comp_def, Nat.add_assoc]

theorem take_read (m : Mem α) (a n k : Nat) : (m.read a n).take k = m.read a (min n k) := by
  rw [read, ← List.map_take, List.take_range, Nat.min_comm, read]

theorem drop_read (m : Mem α) (a n k : Nat) : (m.read a n).drop k = m.read (a + k) (n - k) := by
  by_cases short : k ≤ n
  · obtain ⟨rest, rfl⟩ := Nat.exists_eq_add_of_le short
    rw [read_add, Nat.add_sub_cancel_left]
    exact List.drop_left' (length_read m a k)
  · rw [List.drop_eq_nil_of_le (by rw [length_read]; omega), Nat.sub_eq_zero_of_le (by omega), read_zero]

@[simp] theorem write_nil (m : Mem α) (a : Nat) : m.write a [] = m := by
  funext x
  simp [write]

theorem write_of_lt (m : Mem α) (a x : Nat) (xs : List α) (h : x < a) : m.write a xs x = m x := by
  simp only [write, if_neg (Nat.not_le.mpr h)]

theorem write_of_ge (m : Mem α) (a x : Nat) (xs : List α) (h : a + xs.length ≤ x) :
    m.write a xs x = m x := by
  have beyond : xs.length ≤ x - a := by omega
  simp [write, List.getElem?_eq_none beyond]

theorem write_getElem (m : Mem α) (a i : Nat) (xs : List α) (h : i < xs.length) :
    m.write a xs (a + i) = xs[i] := by
  simp [write, h]

theorem write_append (m : Mem α) (a : Nat) (xs ys : List α) :
    m.write a (xs ++ ys) = (m.write a xs).write (a + xs.length) ys := by
  funext x
  by_cases low : x < a + xs.length
  · rw [write_of_lt _ _ _ _ low]
    by_cases lower : x < a
    · rw [write_of_lt _ _ _ _ lower, write_of_lt _ _ _ _ lower]
    · obtain ⟨i, rfl⟩ := Nat.exists_eq_add_of_le (Nat.not_lt.mp lower)
      have bound : i < xs.length := by omega
      rw [write_getElem _ _ _ _ (by simp; omega), write_getElem _ _ _ _ bound]
      exact List.getElem_append_left bound
  · obtain ⟨i, rfl⟩ := Nat.exists_eq_add_of_le (Nat.not_lt.mp low)
    by_cases bound : i < ys.length
    · rw [write_getElem _ _ _ _ bound, Nat.add_assoc,
        write_getElem _ _ _ _ (by simp; omega)]
      simp
    · rw [write_of_ge _ _ _ _ (by simp; omega), write_of_ge _ _ _ _ (by omega),
        write_of_ge _ _ _ _ (by omega)]

@[simp] theorem read_write_self (m : Mem α) (a : Nat) (xs : List α) :
    (m.write a xs).read a xs.length = xs := by
  apply List.ext_getElem (by simp)
  intro i _ bound
  rw [getElem_read, write_getElem _ _ _ _ bound]

/-- Reading a range the write does not meet. -/
theorem read_write_disjoint (m : Mem α) (a n b : Nat) (xs : List α)
    (apart : a + n ≤ b ∨ b + xs.length ≤ a) : (m.write b xs).read a n = m.read a n := by
  apply read_congr
  intro x lower upper
  rcases apart with below | above
  · exact write_of_lt _ _ _ _ (by omega)
  · exact write_of_ge _ _ _ _ (by omega)

/-- A range read after the cell behind it was stored. -/
theorem read_write_snoc (m : Mem α) (a n : Nat) (x : α) :
    (m.write (a + n) [x]).read a (n + 1) = m.read a n ++ [x] := by
  have cell := read_write_self m (a + n) [x]
  rw [read_add, read_write_disjoint _ _ _ _ _ (.inl (Nat.le_refl _))]
  exact congrArg _ cell

theorem read_write_push (m : Mem α) (n : Nat) (x : α) :
    (m.write n [x]).read 0 (n + 1) = m.read 0 n ++ [x] := by
  have stored := read_write_snoc m 0 n x
  rwa [Nat.zero_add] at stored

/-- A store that has to end within the first `size` cells. -/
def storeWithin {ε : Type*} (size : Nat) (beyond : ε) (m : Mem α) (a : Nat) (xs : List α) : Except ε (Mem α) :=
  if a + xs.length ≤ size then .ok (m.write a xs) else .error beyond

theorem storeWithin_of_le {ε : Type*} {size a : Nat} {xs : List α} (beyond : ε) (m : Mem α)
    (inside : a + xs.length ≤ size) : m.storeWithin size beyond a xs = .ok (m.write a xs) := if_pos inside

theorem storeWithin_of_lt {ε : Type*} {size a : Nat} {xs : List α} (beyond : ε) (m : Mem α)
    (outside : size < a + xs.length) : m.storeWithin size beyond a xs = .error beyond :=
  if_neg (Nat.not_le.mpr outside)

/-- The memory seen from `k` cells further on: `&base[k]` as a base pointer. -/
def shift (m : Mem α) (k : Nat) : Mem α := fun i => m (k + i)

@[simp] theorem read_shift (m : Mem α) (k a n : Nat) : (m.shift k).read a n = m.read (k + a) n := by
  simp only [read, shift, Nat.add_assoc]

/-- A buffer with the given contents. -/
def ofList [Inhabited α] (xs : List α) : Mem α := fun i => xs.getD i default

theorem read_ofList [Inhabited α] (xs : List α) {a n : Nat} (fits : a + n ≤ xs.length) :
    (ofList xs).read a n = (xs.drop a).take n := by
  apply List.ext_getElem
  · simp
    omega
  · intro i left right
    rw [getElem_read, List.getElem_take, List.getElem_drop, ofList, List.getD_eq_getElem?_getD,
      List.getElem?_eq_getElem, Option.getD_some]

end Mem

end Lib
