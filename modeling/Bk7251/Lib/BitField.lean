import Mathlib.Data.BitVec
import Mathlib.Logic.Function.Basic
import Mathlib.Tactic.Common

/-!
# Fields of registers

A field is a run of bits in a word, and a part is a field of the word at an address. Parts are read and written in
place; every law about them comes from what a write does to one bit.
-/
namespace Lib

/-- `width` bits of a word, from bit `pos` on. -/
structure BitField where
  pos : Nat
  width : Nat
  deriving DecidableEq

namespace BitField

variable (f : BitField) {w : Nat} (word v : BitVec w)

def Covers (i : Nat) : Prop := f.pos ≤ i ∧ i < f.pos + f.width

instance : DecidablePred f.Covers := fun i => inferInstanceAs (Decidable (f.pos ≤ i ∧ i < f.pos + f.width))

/-- The bits that a value of the field has. -/
def mask (w : Nat) : BitVec w := BitVec.ofNat w (2 ^ f.width - 1)

def get : BitVec w := (word >>> f.pos) &&& f.mask w

/-- The word with the value in the field, as far as the value fits. -/
def set : BitVec w := (word &&& ~~~(f.mask w <<< f.pos)) ||| ((v &&& f.mask w) <<< f.pos)

theorem getLsbD_mask (i : Nat) : (f.mask w).getLsbD i = (decide (i < w) && decide (i < f.width)) := by
  rw [mask, BitVec.getLsbD_ofNat, Nat.testBit_two_pow_sub_one]

theorem getLsbD_get (i : Nat) : (f.get word).getLsbD i = (decide (i < f.width) && word.getLsbD (f.pos + i)) := by
  rw [get, BitVec.getLsbD_and, BitVec.getLsbD_ushiftRight, getLsbD_mask]
  by_cases inside : f.pos + i < w
  · have small : i < w := Nat.lt_of_le_of_lt (Nat.le_add_left i f.pos) inside
    rw [decide_eq_true small, Bool.true_and, Bool.and_comm]
  · rw [BitVec.getLsbD_of_ge word _ (Nat.not_lt.mp inside), Bool.false_and, Bool.and_false]

theorem getLsbD_set {i : Nat} (inside : i < w) :
    (f.set word v).getLsbD i = if f.Covers i then v.getLsbD (i - f.pos) else word.getLsbD i := by
  rw [set, BitVec.getLsbD_or, BitVec.getLsbD_and, BitVec.getLsbD_not, BitVec.getLsbD_shiftLeft,
    BitVec.getLsbD_shiftLeft, BitVec.getLsbD_and, getLsbD_mask]
  have small : i - f.pos < w := Nat.lt_of_le_of_lt (Nat.sub_le i f.pos) inside
  by_cases covered : f.Covers i
  · rw [if_pos covered]
    obtain ⟨lower, upper⟩ := covered
    have later : ¬ i < f.pos := Nat.not_lt.mpr lower
    have within : i - f.pos < f.width := by omega
    simp [inside, later, small, within]
  · rw [if_neg covered]
    by_cases early : i < f.pos
    · simp [inside, early]
    · have beyond : ¬ i - f.pos < f.width := fun within => covered ⟨Nat.not_lt.mp early, by omega⟩
      simp [inside, early, small, beyond]

theorem getLsbD_set_outside {i : Nat} (outside : ¬ f.Covers i) :
    (f.set word v).getLsbD i = word.getLsbD i := by
  by_cases inside : i < w
  · rw [getLsbD_set f word v inside, if_neg outside]
  · rw [BitVec.getLsbD_of_ge _ i (Nat.not_lt.mp inside), BitVec.getLsbD_of_ge _ i (Nat.not_lt.mp inside)]

/-- What is stored in a field that lies in the word is read back, as far as it fits. -/
theorem get_set (fits : f.pos + f.width ≤ w) : f.get (f.set word v) = v &&& f.mask w := by
  apply BitVec.eq_of_getLsbD_eq
  intro i small
  rw [getLsbD_get, BitVec.getLsbD_and, getLsbD_mask, decide_eq_true small, Bool.true_and, Bool.and_comm]
  by_cases within : i < f.width
  · have covered : f.Covers (f.pos + i) := ⟨Nat.le_add_right f.pos i, Nat.add_lt_add_left within f.pos⟩
    rw [getLsbD_set f word v (by omega), if_pos covered, Nat.add_sub_cancel_left]
  · rw [decide_eq_false within, Bool.and_false, Bool.and_false]

/-- A field is read from its own bits. -/
theorem get_congr {word word' : BitVec w} (same : ∀ i, f.Covers i → word.getLsbD i = word'.getLsbD i) :
    f.get word = f.get word' := by
  apply BitVec.eq_of_getLsbD_eq
  intro i _
  rw [getLsbD_get, getLsbD_get]
  by_cases within : i < f.width
  · rw [same (f.pos + i) ⟨Nat.le_add_right f.pos i, Nat.add_lt_add_left within f.pos⟩]
  · rw [decide_eq_false within, Bool.false_and, Bool.false_and]

/-- No bit is in both fields. -/
def Disjoint (f g : BitField) : Prop := f.pos + f.width ≤ g.pos ∨ g.pos + g.width ≤ f.pos

instance (f g : BitField) : Decidable (f.Disjoint g) :=
  inferInstanceAs (Decidable (f.pos + f.width ≤ g.pos ∨ g.pos + g.width ≤ f.pos))

variable {f} {g : BitField}

theorem Disjoint.symm (apart : f.Disjoint g) : g.Disjoint f := Or.symm apart

theorem Disjoint.not_covers (apart : f.Disjoint g) {i : Nat} (covered : f.Covers i) : ¬ g.Covers i := by
  rintro ⟨lower, upper⟩
  obtain ⟨lower', upper'⟩ := covered
  rcases apart with before | behind <;> omega

theorem get_set_of_disjoint (apart : f.Disjoint g) : f.get (g.set word v) = f.get word :=
  f.get_congr fun _ covered => g.getLsbD_set_outside word v (apart.not_covers covered)

theorem get_zero : f.get (0#w) = 0#w := by
  rw [get, BitVec.zero_ushiftRight, BitVec.zero_and]

/-! ### One bit, and the whole word -/

theorem set_one (pos : Nat) : (⟨pos, 1⟩ : BitField).set word 1#w = word ||| (1#w <<< pos) := by
  apply BitVec.eq_of_getLsbD_eq
  intro i small
  rw [getLsbD_set _ _ _ small, BitVec.getLsbD_or, BitVec.getLsbD_shiftLeft]
  by_cases here : i = pos
  · subst here
    have covered : (⟨i, 1⟩ : BitField).Covers i := ⟨Nat.le_refl i, Nat.lt_succ_self i⟩
    have positive : 0 < w := Nat.zero_lt_of_lt small
    simp [covered, small, positive]
  · have other : ¬ (⟨pos, 1⟩ : BitField).Covers i := by
      rintro ⟨lower, upper⟩
      exact here (Nat.le_antisymm (Nat.le_of_lt_succ upper) lower)
    by_cases early : i < pos
    · simp [other, early]
    · have away : i - pos ≠ 0 := by omega
      simp [other, away]

/-- A bit that is singled out by a mask around it, and shifted down. -/
theorem get_one {bound : BitVec w} {pos : Nat} (inside : bound.getLsbD pos = true) :
    (word &&& bound &&& (1#w <<< pos)) >>> pos = (⟨pos, 1⟩ : BitField).get word := by
  apply BitVec.eq_of_getLsbD_eq
  intro i small
  rw [getLsbD_get, BitVec.getLsbD_ushiftRight, BitVec.getLsbD_and, BitVec.getLsbD_and, BitVec.getLsbD_shiftLeft]
  cases i with
  | zero =>
    have below : pos < w := BitVec.lt_of_getLsbD inside
    simp [inside, below, small]
  | succ i =>
    have beyond : ¬ pos + (i + 1) < pos := by omega
    simp [beyond]

theorem set_zero : f.set word 0#w = word &&& ~~~(f.mask w <<< f.pos) := by
  rw [set, BitVec.zero_and, BitVec.zero_shiftLeft, BitVec.or_zero]

theorem mask_whole : (⟨0, w⟩ : BitField).mask w = BitVec.allOnes w := by
  apply BitVec.eq_of_getLsbD_eq
  intro i small
  rw [getLsbD_mask, BitVec.getLsbD_allOnes, decide_eq_true small, Bool.and_self]

theorem set_whole : (⟨0, w⟩ : BitField).set word v = v := by
  simp [set, mask_whole]

theorem get_whole : (⟨0, w⟩ : BitField).get word = word := by
  simp [get, mask_whole]

end BitField

/-! ### Values set last -/

section

variable {κ : Type*} [DecidableEq κ] {w : Nat} {sets : List (κ × BitVec w)}

/-- The value that is set last for a key. -/
def lastSet (k : κ) : List (κ × BitVec w) → Option (BitVec w)
  | [] => none
  | x :: sets => (lastSet k sets).or (if x.1 = k then some x.2 else none)

theorem lastSet_append (k : κ) (more : List (κ × BitVec w)) :
    lastSet k (sets ++ more) = (lastSet k more).or (lastSet k sets) := by
  induction sets with
  | nil => rw [List.nil_append, lastSet, Option.or_none]
  | cons x sets ih => rw [List.cons_append, lastSet, ih, lastSet, Option.or_assoc]

theorem lastSet_map_const (k : κ) (keys : List κ) (v : BitVec w) :
    lastSet k (keys.map fun key => (key, v)) = if k ∈ keys then some v else none := by
  induction keys with
  | nil => rfl
  | cons key keys ih =>
    rw [List.map_cons, lastSet, ih]
    by_cases later : k ∈ keys
    · rw [if_pos later, if_pos (List.mem_cons_of_mem key later)]
      rfl
    · by_cases here : key = k
      · rw [if_neg later, if_pos here, if_pos (List.mem_cons.mpr (.inl here.symm))]
        rfl
      · have absent : k ∉ key :: keys := List.not_mem_cons_of_ne_of_not_mem (Ne.symm here) later
        rw [if_neg later, if_neg here, if_neg absent]
        rfl

end

/-! ### Register files -/

/-- A field of the word at an address. -/
structure FieldAt (α : Type*) where
  addr : α
  bits : BitField
  deriving DecidableEq

namespace FieldAt

section

variable {α κ : Type*} [DecidableEq κ] {w : Nat} (part : κ → FieldAt α) (sets : List (κ × BitVec w))

/-- What a part holds that held `old`: the value set last, as far as it fits. -/
def held (k : κ) (old : BitVec w) : BitVec w :=
  ((lastSet k sets).map (· &&& (part k).bits.mask w)).getD old

theorem held_append (k : κ) (more : List (κ × BitVec w)) (old : BitVec w) :
    held part (sets ++ more) k old = held part more k (held part sets k old) := by
  rw [held, held, held, lastSet_append]
  cases lastSet k more <;> rfl

end

variable {α : Type*} [DecidableEq α] {w : Nat} (p q : FieldAt α) (regs : α → BitVec w) (v : BitVec w)

def read : BitVec w := p.bits.get (regs p.addr)

def write : α → BitVec w := Function.update regs p.addr (p.bits.set (regs p.addr) v)

def Covers (a : α) (i : Nat) : Prop := p.addr = a ∧ p.bits.Covers i

/-- Different words, or different bits of one. -/
def Apart : Prop := p.addr ≠ q.addr ∨ p.bits.Disjoint q.bits

theorem getLsbD_write_outside {a : α} {i : Nat} (outside : ¬ p.Covers a i) :
    (p.write regs v a).getLsbD i = (regs a).getLsbD i := by
  by_cases here : a = p.addr
  · subst here
    rw [write, Function.update_self]
    exact p.bits.getLsbD_set_outside _ v fun covered => outside ⟨rfl, covered⟩
  · rw [write, Function.update_of_ne here]

theorem read_write (fits : p.bits.pos + p.bits.width ≤ w) :
    p.read (p.write regs v) = v &&& p.bits.mask w := by
  rw [read, write, Function.update_self, BitField.get_set _ _ _ fits]

theorem read_write_of_apart {p q : FieldAt α} (apart : p.Apart q) : p.read (q.write regs v) = p.read regs := by
  by_cases same : p.addr = q.addr
  · rw [read, write, read, same, Function.update_self]
    exact BitField.get_set_of_disjoint _ v (apart.resolve_left (not_not_intro same))
  · rw [read, write, Function.update_of_ne same, read]

/-! ### Sequences of writes -/

variable {κ : Type*} (part : κ → FieldAt α)

def writes (sets : List (κ × BitVec w)) : α → BitVec w :=
  sets.foldl (fun regs x => (part x.1).write regs x.2) regs

variable {part} {sets : List (κ × BitVec w)}

theorem getLsbD_writes_outside {a : α} {i : Nat} (outside : ∀ x ∈ sets, ¬ (part x.1).Covers a i) :
    (writes regs part sets a).getLsbD i = (regs a).getLsbD i := by
  induction sets generalizing regs with
  | nil => rfl
  | cons x sets ih =>
    obtain ⟨here, later⟩ := List.forall_mem_cons.mp outside
    exact (ih _ later).trans ((part x.1).getLsbD_write_outside regs x.2 here)

/-- Among parts that are apart from one another, each reads as what was set last for it. -/
theorem read_writes [DecidableEq κ] {k : κ} (fits : (part k).bits.pos + (part k).bits.width ≤ w)
    (apart : ∀ x ∈ sets, x.1 ≠ k → (part k).Apart (part x.1)) :
    (part k).read (writes regs part sets) = held part sets k ((part k).read regs) := by
  induction sets generalizing regs with
  | nil => rfl
  | cons x sets ih =>
    obtain ⟨here, later⟩ := List.forall_mem_cons.mp apart
    have rest := ih ((part x.1).write regs x.2) later
    rw [writes, List.foldl_cons]
    refine rest.trans ?_
    rw [held, held, lastSet]
    cases lastSet k sets with
    | some value => rfl
    | none =>
      by_cases same : x.1 = k
      · subst same
        rw [if_pos rfl]
        exact (part x.1).read_write regs x.2 fits
      · rw [if_neg same]
        exact read_write_of_apart regs x.2 (here same)

end FieldAt

end Lib
