import Bk7251.Kernel.ListCalls

/-!
# The lists over whole runs

Any sequence of calls on lists and items leaves the sequences that the calls describe, and answers as
they do.
-/
namespace Bk7251.Kernel

open ItemPtr Function

inductive ListCall (ι κ : Type)
  | initialise (pxList : κ)
  | insert (pxList : κ) (pxNewListItem : ι)
  | insertEnd (pxList : κ) (pxNewListItem : ι)
  | remove (pxItemToRemove : ι)
  | setValue (pxListItem : ι) (xValue : TickType)
  | head (pxList : κ)
  | next (pxList : κ)

/-- What a call answers. -/
inductive ListReply (ι : Type)
  | done
  | left (uxNumberOfItems : Nat)
  | owner (pxItem : Option ι)

section

variable {ι κ : Type} [DecidableEq ι] [DecidableEq κ]

namespace Lists

def call (s : Lists ι κ) : ListCall ι κ → Option (Lists ι κ × ListReply ι)
  | .initialise l => some (s.vListInitialise l, .done)
  | .insert l i => (s.vListInsert l i).map (·, .done)
  | .insertEnd l i => some (s.vListInsertEnd l i, .done)
  | .remove i => (s.uxListRemove i).map fun (s, left) => (s, .left left)
  | .setValue i v => some (s.listSET_LIST_ITEM_VALUE i v, .done)
  | .head l => some (s, .owner (s.listGET_OWNER_OF_HEAD_ENTRY l))
  | .next l => let (s, owner) := s.listGET_OWNER_OF_NEXT_ENTRY l; some (s, .owner owner)

/-- The calls one after the other, with their answers. -/
def calls (s : Lists ι κ) : List (ListCall ι κ) → Option (Lists ι κ × List (ListReply ι))
  | [] => some (s, [])
  | c :: cs => (s.call c).bind fun (s, reply) => (calls s cs).map fun (s, replies) => (s, reply :: replies)

end Lists

/-- What the lists are for. -/
structure Sequences (ι κ : Type) where
  live : Set κ
  view : κ → Order ι
  value : ι → TickType
  container : ι → Option κ

namespace Sequences

/-- Lists are initialised once and before their use; an item is in one list at most. -/
def Legal (a : Sequences ι κ) : ListCall ι κ → Prop
  | .initialise l => l ∉ a.live
  | .insert l i | .insertEnd l i => l ∈ a.live ∧ a.container i = none
  | .remove i => a.container i ≠ none
  | .setValue _ _ => True
  | .head l | .next l => l ∈ a.live

def call (a : Sequences ι κ) : ListCall ι κ → Sequences ι κ × ListReply ι
  | .initialise l => ({ a with live := Insert.insert l a.live, view := update a.view l Order.empty }, .done)
  | .insert l i =>
    ({ a with
        view := update a.view l ((a.view l).insertBy (fun j => a.value j ≤ a.value i) i)
        container := update a.container i (some l) }, .done)
  | .insertEnd l i =>
    ({ a with view := update a.view l ((a.view l).pushBack i), container := update a.container i (some l) }, .done)
  | .remove i =>
    match a.container i with
    | some l =>
      ({ a with view := update a.view l ((a.view l).remove i), container := update a.container i none },
        .left ((a.view l).remove i).items.length)
    | none => (a, .done)
  | .setValue i v => ({ a with value := update a.value i v }, .done)
  | .head l => (a, .owner (a.view l).items.head?)
  | .next l => ({ a with view := update a.view l (a.view l).advance }, .owner (a.view l).turns.head?)

def calls (a : Sequences ι κ) : List (ListCall ι κ) → Sequences ι κ × List (ListReply ι)
  | [] => (a, [])
  | c :: cs =>
    let (a, reply) := a.call c
    let (a, replies) := calls a cs
    (a, reply :: replies)

/-- Every call of the run is legal where it is made. -/
def Allowed (a : Sequences ι κ) : List (ListCall ι κ) → Prop
  | [] => True
  | c :: cs => a.Legal c ∧ Allowed (a.call c).1 cs

end Sequences

/-- The links, counts and containers say what the sequences are. -/
structure Lists.Refines (s : Lists ι κ) (a : Sequences ι κ) : Prop where
  holds : s.Holds a.live a.view
  value : ∀ i, s.xItemValue (item i) = a.value i
  container : s.pvContainer = a.container

namespace Lists

variable {s : Lists ι κ} {a : Sequences ι κ}

omit [DecidableEq κ] in
theorem Refines.moved {s' : Lists ι κ} {i : ι} {l : Option κ} (refines : s.Refines a) {view : κ → Order ι}
    (holds : s'.Holds a.live view) (moved : Moved s s' i l) :
    s'.Refines { a with view := view, container := update a.container i l } where
  holds := holds
  value j := by rw [moved.value, refines.value]
  container := by rw [moved.pvContainer, refines.container]

/-- The step lemma. -/
theorem call_refines (refines : s.Refines a) {c : ListCall ι κ} (legal : a.Legal c) :
    ∃ s', s.call c = some (s', (a.call c).2) ∧ s'.Refines (a.call c).1 := by
  obtain ⟨holds, value, container⟩ := id refines
  cases c with
  | initialise l =>
    refine ⟨_, rfl, vListInitialise_spec holds legal, fun i => ?_, container⟩
    have other : update s.xItemValue (xListEnd l) portMAX_DELAY (item i) = s.xItemValue (item i) :=
      update_of_ne (by simp) ..
    exact other.trans (value i)
  | insert l i =>
    obtain ⟨s', call, after, moved⟩ := vListInsert_spec holds legal.1 (by rw [container, legal.2])
    simp only [value] at after
    exact ⟨s', by simp [Lists.call, call, Sequences.call], refines.moved after moved⟩
  | insertEnd l i =>
    obtain ⟨after, moved⟩ := vListInsertEnd_spec holds legal.1 (by rw [container, legal.2])
    exact ⟨_, rfl, refines.moved after moved⟩
  | remove i =>
    obtain ⟨l, here⟩ := Option.ne_none_iff_exists'.mp legal
    obtain ⟨s', call, after, moved⟩ := uxListRemove_spec holds (by rw [container, here])
    simp only [Sequences.call, here]
    exact ⟨s', by simp [Lists.call, call], refines.moved after moved⟩
  | setValue i v =>
    refine ⟨_, rfl, listSET_LIST_ITEM_VALUE_spec holds v, fun j => ?_, container⟩
    by_cases eq : j = i
    · subst eq
      simp [listSET_LIST_ITEM_VALUE, Sequences.call]
    · simp [listSET_LIST_ITEM_VALUE, Sequences.call, eq, value]
  | head l => exact ⟨s, by simp [Lists.call, Sequences.call, (head_spec holds legal).1], refines⟩
  | next l =>
    obtain ⟨s', call, after, sameValue, sameContainer⟩ := listGET_OWNER_OF_NEXT_ENTRY_spec holds legal
    refine ⟨s', by simp [Lists.call, Sequences.call, call], after, fun i => ?_, ?_⟩
    · rw [sameValue]
      exact value i
    · rw [sameContainer]
      exact container

/-- Before the first call: no list is initialised, no item is in one. -/
def Unused (s : Lists ι κ) : Prop := ∀ i, s.pvContainer i = none

def sequences (s : Lists ι κ) : Sequences ι κ := ⟨∅, fun _ => Order.empty, fun i => s.xItemValue (item i), s.pvContainer⟩

omit [DecidableEq ι] [DecidableEq κ] in
theorem Unused.refines (unused : s.Unused) : s.Refines s.sequences := by
  refine ⟨⟨?_, ?_, ?_, ?_, ?_, ?_⟩, fun _ => rfl, rfl⟩
  case refine_6 => exact fun i l container => absurd (unused i) (by simp [container])
  all_goals exact fun l member => absurd member (Set.notMem_empty l)

theorem calls_refine (refines : s.Refines a) {cs : List (ListCall ι κ)} (legal : a.Allowed cs) :
    ∃ s', s.calls cs = some (s', (a.calls cs).2) ∧ s'.Refines (a.calls cs).1 := by
  induction cs generalizing s a with
  | nil => exact ⟨s, rfl, refines⟩
  | cons c cs ih =>
    obtain ⟨s₁, call, after⟩ := call_refines refines legal.1
    obtain ⟨s₂, calls, last⟩ := ih after legal.2
    exact ⟨s₂, by simp [Lists.calls, call, calls, Sequences.calls], last⟩

/-- The pointers of `list.c` are sequences: every run of legal calls comes to an end and answers as the
sequences do, and the links, counts, indices and containers are those of the sequences that it leaves. -/
theorem lists_refine (unused : s.Unused) {cs : List (ListCall ι κ)} (legal : s.sequences.Allowed cs) :
    ∃ s', s.calls cs = some (s', (s.sequences.calls cs).2) ∧ s'.Refines (s.sequences.calls cs).1 :=
  calls_refine unused.refines legal

/-- A list that is sorted by value, with items before and behind one that comes later. -/
theorem lists_refine_sorted :
    let s : Lists Nat Nat := ⟨fun _ => 5, id, id, fun _ => none, fun _ => 0, .xListEnd⟩
    ∃ s', s.calls [.initialise 0, .insert 0 7, .setValue 8 3, .insert 0 8, .head 0, .insert 0 9, .remove 8, .head 0] =
      some (s', [.done, .done, .done, .done, .owner (some 8), .done, .left 2, .owner (some 7)]) := by
  intro s
  have legal : s.sequences.Allowed
      [.initialise 0, .insert 0 7, .setValue 8 3, .insert 0 8, .head 0, .insert 0 9, .remove 8, .head 0] := by
    simp [Sequences.Allowed, Sequences.Legal, Sequences.call, sequences, s]
  obtain ⟨s', calls, -⟩ := lists_refine (s := s) (fun _ => rfl) legal
  exact ⟨s', calls⟩

end Lists

end

end Bk7251.Kernel
