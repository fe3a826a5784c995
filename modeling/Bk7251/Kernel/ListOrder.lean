import Bk7251.Kernel.Lists

/-!
# Lists as sequences

What a list of the kernel is for: a sequence of items, and a place in it up to which the items have had
their turn. The links, the counts and the containers say the same.
-/
namespace Bk7251.Kernel

open Lib Lib.Links

/-- The items up to the index, and those ahead of it. -/
structure Order (ι : Type) where
  passed : List ι
  ahead : List ι

namespace Order

variable {ι : Type}

def empty : Order ι := ⟨[], []⟩

def items (o : Order ι) : List ι := o.passed ++ o.ahead

/-- In whose order the items have their turns. -/
def turns (o : Order ι) : List ι := o.ahead ++ o.passed

/-- In front of the item that had its turn last; at the end where none had. -/
def pushBack (o : Order ι) (x : ι) : Order ι :=
  match o.passed.getLast? with
  | none => ⟨[], o.ahead ++ [x]⟩
  | some last => ⟨o.passed.dropLast ++ [x, last], o.ahead⟩

/-- Behind the items for which `before` holds. -/
def insertBy (before : ι → Bool) (o : Order ι) (x : ι) : Order ι :=
  if o.passed.all before then ⟨o.passed, o.ahead.takeWhile before ++ x :: o.ahead.dropWhile before⟩
  else ⟨o.passed.takeWhile before ++ x :: o.passed.dropWhile before, o.ahead⟩

def remove [DecidableEq ι] (o : Order ι) (x : ι) : Order ι := ⟨o.passed.erase x, o.ahead.erase x⟩

def advance (o : Order ι) : Order ι :=
  match o.ahead, o.passed with
  | x :: ahead, _ => ⟨o.passed ++ [x], ahead⟩
  | [], x :: rest => ⟨[x], rest⟩
  | [], [] => o

@[simp] theorem items_empty : (empty : Order ι).items = [] := rfl

/-- Where an item is put in front of the last one that had its turn. -/
theorem items_pushBack (o : Order ι) (x : ι) :
    ∃ front back, o.items = front ++ back ∧ (o.pushBack x).items = front ++ x :: back ∧
      (o.passed = [] ∧ front = o.ahead ∧ back = [] ∨
        ∃ last, o.passed = front ++ [last] ∧ back = last :: o.ahead) := by
  unfold pushBack
  split
  next none =>
    rw [List.getLast?_eq_none_iff] at none
    exact ⟨o.ahead, [], by simp [items, none], by simp [items], .inl ⟨none, rfl, rfl⟩⟩
  next last some =>
    have whole : o.passed = o.passed.dropLast ++ [last] := (List.dropLast_append_getLast? last some).symm
    refine ⟨o.passed.dropLast, last :: o.ahead, ?_, by simp [items], .inr ⟨last, whole, rfl⟩⟩
    rw [items, whole]
    simp

theorem takeWhile_append_of_stop {before : ι → Bool} {xs : List ι} (stops : xs.all before = false) (ys : List ι) :
    (xs ++ ys).takeWhile before = xs.takeWhile before ∧ (xs ++ ys).dropWhile before = xs.dropWhile before ++ ys := by
  induction xs with
  | nil => cases stops
  | cons x xs ih =>
    by_cases first : before x
    · have rest := ih (by simpa [first] using stops)
      simp [first, rest]
    · simp [first]

/-- Sorted insertion is insertion into the whole sequence. -/
theorem items_insertBy (before : ι → Bool) (o : Order ι) (x : ι) :
    (o.insertBy before x).items = o.items.takeWhile before ++ x :: o.items.dropWhile before := by
  unfold insertBy
  split
  next all =>
    have pass : ∀ y ∈ o.passed, before y = true := List.all_eq_true.mp all
    simp only [items, List.takeWhile_append_of_pos pass, List.dropWhile_append_of_pos pass, List.append_assoc]
  next stops =>
    obtain ⟨take, drop⟩ := takeWhile_append_of_stop (Bool.not_eq_true _ ▸ stops) o.ahead
    simp only [items, take, drop, List.append_assoc, List.cons_append]

/-- A sorted sequence stays sorted. -/
theorem sorted_insert {f : ι → UInt32} {xs : List ι} (x : ι) (sorted : xs.Pairwise fun y z => f y ≤ f z) :
    (xs.takeWhile (fun y => f y ≤ f x) ++ x :: xs.dropWhile (fun y => f y ≤ f x)).Pairwise fun y z => f y ≤ f z := by
  induction xs with
  | nil => exact List.pairwise_singleton ..
  | cons y xs ih =>
    obtain ⟨first, rest⟩ := List.pairwise_cons.mp sorted
    by_cases early : f y ≤ f x
    · rw [List.takeWhile_cons_of_pos (by simpa using early), List.dropWhile_cons_of_pos (by simpa using early)]
      refine List.pairwise_cons.mpr ⟨fun z inside => ?_, ih rest⟩
      rcases List.mem_append.mp inside with taken | later
      · exact first z ((List.takeWhile_prefix _).subset taken)
      · rcases List.mem_cons.mp later with rfl | dropped
        · exact early
        · exact first z ((List.dropWhile_suffix _).subset dropped)
    · rw [List.takeWhile_cons_of_neg (by simpa using early), List.dropWhile_cons_of_neg (by simpa using early)]
      have late : f x ≤ f y := (UInt32.le_total (f x) (f y)).resolve_right early
      refine List.pairwise_cons.mpr ⟨fun z inside => ?_, sorted⟩
      rcases List.mem_cons.mp inside with rfl | later
      · exact late
      · exact UInt32.le_trans late (first z later)

theorem items_remove [DecidableEq ι] (o : Order ι) (x : ι) (nodup : o.items.Nodup) :
    (o.remove x).items = o.items.erase x := by
  simp only [items, remove]
  by_cases member : x ∈ o.passed
  · have notAhead : x ∉ o.ahead := fun ahead => (List.nodup_append.mp nodup).2.2 x member x ahead rfl
    rw [List.erase_append_left _ member, List.erase_of_not_mem notAhead]
  · rw [List.erase_append_right _ member, List.erase_of_not_mem member]

@[simp] theorem items_advance (o : Order ι) : o.advance.items = o.items := by
  unfold advance
  split
  next ahead => simp [items, ahead]
  next ahead passed => simp [items, ahead, passed]
  next => rfl

/-- Turns are taken one after the other, over and over. -/
theorem turns_advance (o : Order ι) : o.advance.turns = o.turns.rotate 1 := by
  unfold advance
  split
  next ahead => simp [turns, ahead]
  next ahead passed => simp [turns, ahead, passed]
  next ahead passed => simp [turns, ahead, passed]

end Order

namespace Lists

open ItemPtr Function

variable {ι κ : Type}

/-- The end marker and the items, in the order of the links. -/
def nodes (l : κ) (o : Order ι) : List (ItemPtr ι κ) := xListEnd l :: o.items.map item

/-- Where the index stands. -/
def cursor (l : κ) (o : Order ι) : ItemPtr ι κ := (o.passed.getLast?.map item).getD (xListEnd l)

/-- The lists in `live` have been initialised, and hold what `view` says. -/
structure Holds (s : Lists ι κ) (live : Set κ) (view : κ → Order ι) : Prop where
  circle : ∀ l ∈ live, Circular s.pxNext s.pxPrevious (nodes l (view l))
  index : ∀ l ∈ live, s.pxIndex l = cursor l (view l)
  count : ∀ l ∈ live, s.uxNumberOfItems l = (view l).items.length
  marker : ∀ l ∈ live, s.xItemValue (xListEnd l) = portMAX_DELAY
  contained : ∀ l ∈ live, ∀ i, i ∈ (view l).items ↔ s.pvContainer i = some l
  initialised : ∀ i l, s.pvContainer i = some l → l ∈ live

variable {s s' : Lists ι κ} {live : Set κ} {view : κ → Order ι} {l : κ} {i : ι} {o : Order ι}

theorem mem_nodes_item : item i ∈ nodes l o ↔ i ∈ o.items := by
  simp [nodes]

theorem mem_nodes_xListEnd {k : κ} : xListEnd k ∈ nodes l o ↔ k = l := by
  simp [nodes]

theorem Holds.nodup (holds : s.Holds live view) (member : l ∈ live) : (view l).items.Nodup :=
  (List.nodup_cons.mp (holds.circle l member).nodup).2.of_map item

section Edits

variable [DecidableEq κ]

/-- One list is changed, and only links of its nodes before and after. -/
theorem Holds.edit (holds : s.Holds live view) (member : l ∈ live)
    (next : ∀ p, p ∉ nodes l (view l) → p ∉ nodes l o → s'.pxNext p = s.pxNext p)
    (previous : ∀ p, p ∉ nodes l (view l) → p ∉ nodes l o → s'.pxPrevious p = s.pxPrevious p)
    (value : ∀ k, s'.xItemValue (xListEnd k) = s.xItemValue (xListEnd k))
    (circle : Circular s'.pxNext s'.pxPrevious (nodes l o))
    (index : s'.pxIndex = update s.pxIndex l (cursor l o))
    (count : s'.uxNumberOfItems = update s.uxNumberOfItems l o.items.length)
    (own : ∀ j, j ∈ o.items ↔ s'.pvContainer j = some l)
    (free : ∀ j ∈ o.items, s.pvContainer j = none ∨ s.pvContainer j = some l)
    (others : ∀ k, k ≠ l → ∀ j, s'.pvContainer j = some k ↔ s.pvContainer j = some k) :
    s'.Holds live (update view l o) := by
  have apart : ∀ k ∈ live, k ≠ l → ∀ p ∈ nodes k (view k), p ∉ nodes l (view l) ∧ p ∉ nodes l o := by
    intro k live' ne p inside
    cases p with
    | xListEnd m =>
      obtain rfl := mem_nodes_xListEnd.mp inside
      exact ⟨fun same => ne (mem_nodes_xListEnd.mp same), fun same => ne (mem_nodes_xListEnd.mp same)⟩
    | item j =>
      have here := (holds.contained k live' j).mp (mem_nodes_item.mp inside)
      refine ⟨fun old => ?_, fun new => ?_⟩
      · have there := (holds.contained l member j).mp (mem_nodes_item.mp old)
        exact ne (Option.some.inj (here.symm.trans there))
      · rcases free j (mem_nodes_item.mp new) with none | there
        · exact absurd (here.symm.trans none) (by simp)
        · exact ne (Option.some.inj (here.symm.trans there))
  constructor
  case circle =>
    intro k live'
    by_cases eq : k = l
    · subst eq
      rwa [update_self]
    · rw [update_of_ne eq]
      refine (holds.circle k live').congr (fun p inside => ?_) (fun p inside => ?_)
      · exact next p (apart k live' eq p inside).1 (apart k live' eq p inside).2
      · exact previous p (apart k live' eq p inside).1 (apart k live' eq p inside).2
  case index =>
    intro k live'
    by_cases eq : k = l
    · subst eq
      rw [index, update_self, update_self]
    · rw [index, update_of_ne eq, update_of_ne eq, holds.index k live']
  case count =>
    intro k live'
    by_cases eq : k = l
    · subst eq
      rw [count, update_self, update_self]
    · rw [count, update_of_ne eq, update_of_ne eq, holds.count k live']
  case marker => exact fun k live' => (value k).trans (holds.marker k live')
  case contained =>
    intro k live' j
    by_cases eq : k = l
    · subst eq
      rw [update_self]
      exact own j
    · rw [update_of_ne eq]
      exact (holds.contained k live' j).trans (others k eq j).symm
  case initialised =>
    intro j k container
    by_cases eq : k = l
    · exact eq ▸ member
    · exact holds.initialised j k ((others k eq j).mp container)

end Edits

end Lists

end Bk7251.Kernel
