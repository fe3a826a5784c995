import Bk7251.Kernel.FreeList

/-!
# Blocks of the heap

The heap is cut into used blocks and free ones; the free ones are the maximal free runs. Allocating
takes the first free block that is large enough, from its lower end; releasing gives a block back.
-/
namespace Bk7251.Kernel

open Lib

namespace Heap4

variable {h h' : Heap4} {lo v want : Nat} {l : Link} {e f : Extent} {es pre mid post free used : List Extent}

/-- What is a block: aligned, large enough for a header and a payload, within the heap. -/
structure IsBlock (lo pxEnd : Nat) (e : Extent) : Prop where
  low : lo ≤ e.1
  high : e.stop ≤ pxEnd
  start : 8 ∣ e.1
  length : 8 ∣ e.2
  room : 2 * xHeapStructSize ≤ e.2

/-- The heap from `lo` on is cut into free blocks and used ones. -/
structure Holds (h : Heap4) (lo : Nat) (free used : List Extent) : Prop where
  positive : 0 < lo
  order : lo ≤ h.pxEnd
  bound : h.pxEnd < xBlockAllocatedBit
  chain : Chain h.ram h.xStart free h.pxEnd
  normal : Extents.Normal free
  freeBlock : ∀ e ∈ free, IsBlock lo h.pxEnd e
  usedBlock : ∀ e ∈ used, IsBlock lo h.pxEnd e
  marked : ∀ e ∈ used, h.next (some e.1) = 0 ∧ h.size e.1 = e.2 ||| xBlockAllocatedBit
  apart : ∀ e ∈ used, ∀ f ∈ free, e.Disjoint f
  distinct : used.Pairwise Extent.Disjoint
  covered : ∀ x, lo ≤ x → x < h.pxEnd → x ∈ Extents.cover free ∨ x ∈ Extents.cover used
  count : h.xFreeBytesRemaining = Extents.total free
  least : h.xMinimumEverFreeBytesRemaining ≤ h.xFreeBytesRemaining
  last : h.next (some h.pxEnd) = 0 ∧ h.size h.pxEnd = 0

theorem IsBlock.fits {pxEnd : Nat} (blocks : ∀ e ∈ es, IsBlock lo pxEnd e) : Fits pxEnd es := fun e member =>
  ⟨Nat.le_trans (by decide) (blocks e member).room, (blocks e member).high⟩

theorem Holds.bound32 (holds : h.Holds lo free used) : h.pxEnd < 2 ^ 32 :=
  Nat.lt_trans holds.bound (by decide)

theorem Holds.short (holds : h.Holds lo free used) : free.length < h.pxEnd + 1 :=
  Nat.lt_succ_of_le (holds.normal.length_le fun e member => (holds.freeBlock e member).high)

/-! ### Taking a block out of the list -/

/-- The blocks behind `pre` are linked anew. -/
theorem relink (chain : Chain h.ram h.xStart (pre ++ mid) h.pxEnd) (onward : Chain h.ram v post h.pxEnd)
    (small : v < 2 ^ 32) (normal : Extents.Normal pre) (room : ∀ e ∈ pre, xHeapStructSize ≤ e.2)
    (behind : ∀ e ∈ pre, ∀ f ∈ post, e.stop ≤ f.1) :
    Chain (h.setNext (linkAfter none pre) v).ram (h.setNext (linkAfter none pre) v).xStart (pre ++ post) h.pxEnd := by
  rcases List.eq_nil_or_concat pre with rfl | ⟨pre, g, rfl⟩
  · exact onward
  · rw [List.concat_eq_append] at *
    rw [linkAfter_snoc, List.append_assoc, List.singleton_append]
    rw [List.append_assoc, List.singleton_append] at chain
    obtain ⟨-, here⟩ := (chain_append.mp chain).choose_spec
    exact Chain.replace chain normal (fun e member => room e (by simp [member])) xStart_setNext_some
      (fun x below => setNext_apply (.inl below))
      (chain_setNext onward small here.2.1 (room g (by simp)) (behind g (by simp)))

/-- Blocks of a list in order, in front of a place and behind it. -/
theorem unlink (chain : Chain h.ram h.xStart (pre ++ f :: post) h.pxEnd) (normal : Extents.Normal (pre ++ f :: post))
    (fits : Fits h.pxEnd (pre ++ f :: post)) :
    Chain (h.setNext (linkAfter none pre) (h.next (some f.1))).ram
      (h.setNext (linkAfter none pre) (h.next (some f.1))).xStart (pre ++ post) h.pxEnd := by
  obtain ⟨normalPre, normalPost, between⟩ := Extents.normal_append.mp normal
  obtain ⟨-, -, onward⟩ := (chain_append.mp chain).choose_spec.2
  refine relink chain onward (Mem.word_lt _ _) normalPre (fun e member => (fits e (by simp [member])).1) ?_
  intro e member g later
  exact Nat.le_of_lt (between e member g (by simp [later]))

/-! ### The search -/

theorem Chain.next_ne_zero (chain : Chain h.ram (h.next l) (e :: es) h.pxEnd) (positive : 0 < lo)
    (blocks : ∀ e ∈ es, lo ≤ e.1) (order : lo ≤ h.pxEnd) : h.next (some e.1) ≠ 0 := by
  have start := chain.2.2.start_eq
  change h.next (some e.1) = _ at start
  rw [start]
  cases es with
  | nil => exact Nat.ne_of_gt (Nat.lt_of_lt_of_le positive order)
  | cons f es => exact Nat.ne_of_gt (Nat.lt_of_lt_of_le positive (blocks f (by simp)))

/-- Blocks that are too small are passed over. -/
theorem firstFit_append {n : Nat} (chain : Chain h.ram (h.next l) (pre ++ post) h.pxEnd) (positive : 0 < lo)
    (blocks : ∀ e ∈ pre ++ post, lo ≤ e.1) (order : lo ≤ h.pxEnd) (small : ∀ e ∈ pre, e.2 < want)
    (enough : pre.length < n) :
    h.firstFit want n l (h.next l) =
      h.firstFit want (n - pre.length) (linkAfter l pre) (h.next (linkAfter l pre)) := by
  induction pre generalizing l n with
  | nil => rfl
  | cons e pre ih =>
    obtain ⟨fuel, rfl⟩ := Nat.exists_eq_succ_of_ne_zero (Nat.ne_of_gt (Nat.lt_of_le_of_lt (Nat.zero_le _) enough))
    have here : h.next l = e.1 := chain.1
    have size : h.size e.1 = e.2 := chain.2.1
    have later : ∀ f ∈ pre ++ post, lo ≤ f.1 := fun f member => blocks f (List.mem_cons_of_mem _ member)
    have goes := Chain.next_ne_zero chain positive later order
    have passed := ih (l := some e.1) chain.2.2 later (fun f member => small f (List.mem_cons_of_mem _ member))
      (n := fuel) (by simpa using enough)
    rw [firstFit, here, size, if_pos ⟨small e (by simp), goes⟩, linkAfter_cons, passed, List.length_cons,
      Nat.succ_sub_succ]

theorem firstFit_found (holds : h.Holds lo (pre ++ f :: post) used) (small : ∀ e ∈ pre, e.2 < want)
    (large : want ≤ f.2) :
    h.firstFit want (h.pxEnd + 1) none h.xStart = some (linkAfter none pre, f.1) := by
  have short := holds.short
  rw [List.length_append, List.length_cons] at short
  have chain : Chain h.ram (h.next none) (pre ++ f :: post) h.pxEnd := holds.chain
  have passed := firstFit_append chain holds.positive (fun e member => (holds.freeBlock e member).low) holds.order small
    (n := h.pxEnd + 1) (by omega)
  have start : h.next (linkAfter none pre) = f.1 := (next_linkAfter chain).1
  have size : h.size f.1 = f.2 := (next_linkAfter chain).2.1
  obtain ⟨fuel, left⟩ := Nat.exists_eq_succ_of_ne_zero (show h.pxEnd + 1 - pre.length ≠ 0 by omega)
  rw [start, left] at passed
  refine passed.trans ?_
  rw [firstFit, if_neg (by rw [size]; omega)]

theorem firstFit_none (holds : h.Holds lo free used) (small : ∀ e ∈ free, e.2 < want) :
    h.firstFit want (h.pxEnd + 1) none h.xStart = some (linkAfter none free, h.pxEnd) := by
  have short := holds.short
  have chain : Chain h.ram (h.next none) (free ++ []) h.pxEnd := by
    rw [List.append_nil]
    exact holds.chain
  have passed := firstFit_append chain holds.positive
    (fun e member => (holds.freeBlock e (by simpa using member)).low) holds.order small (n := h.pxEnd + 1) short
  have start : h.next (linkAfter none free) = h.pxEnd := next_linkAfter chain
  obtain ⟨fuel, left⟩ := Nat.exists_eq_succ_of_ne_zero (show h.pxEnd + 1 - free.length ≠ 0 by omega)
  rw [start, left] at passed
  refine passed.trans ?_
  rw [firstFit, if_neg (by simp [holds.last.1])]

/-! ### Allocating -/

/-- What is used of a free block. -/
def taken (f : Extent) (want : Nat) : Extent :=
  if f.2 - want > heapMINIMUM_BLOCK_SIZE then (f.1, want) else f

/-- What is left of it. -/
def rest (f : Extent) (want : Nat) : List Extent :=
  if f.2 - want > heapMINIMUM_BLOCK_SIZE then [(f.1 + want, f.2 - want)] else []

theorem Normal.remove (normal : Extents.Normal (pre ++ f :: post)) : Extents.Normal (pre ++ post) := by
  obtain ⟨first, second, between⟩ := Extents.normal_append.mp normal
  refine Extents.normal_append.mpr ⟨first, second.tail, fun e left g right => ?_⟩
  exact between e left g (List.mem_cons_of_mem _ right)

theorem Normal.disjoint_others (normal : Extents.Normal (pre ++ f :: post)) :
    ∀ e ∈ pre ++ post, f.Disjoint e := by
  obtain ⟨-, second, between⟩ := Extents.normal_append.mp normal
  intro e member
  rcases List.mem_append.mp member with left | right
  · exact .inr (Nat.le_of_lt (between e left f (by simp)))
  · exact .inl (Nat.le_of_lt (second.2.1 e right))

theorem lor_allocated {n : Nat} (small : n < xBlockAllocatedBit) : n ||| xBlockAllocatedBit = n + xBlockAllocatedBit := by
  have sum := Nat.two_pow_add_eq_or_of_lt small 1
  rw [Nat.mul_one] at sum
  rw [Nat.or_comm, Nat.add_comm]
  exact sum.symm

/-- Cutting a block: its rest is a free block again where it is large enough. -/
theorem splitBlock_spec (chain : Chain h.ram h.xStart es h.pxEnd) (normal : Extents.Normal es)
    (fits : Fits h.pxEnd (f :: es)) (bound : h.pxEnd < 2 ^ 32) (apart : ∀ e ∈ es, f.Disjoint e)
    (size : h.size f.1 = f.2) (large : want ≤ f.2) (room : xHeapStructSize ≤ want) :
    ∃ h', h.splitBlock f.1 want = some h' ∧
      Chain h'.ram h'.xStart ((rest f want).foldr Extents.insert es) h.pxEnd ∧ h'.size f.1 = (taken f want).2 ∧
      Frame (rest f want ++ f :: es) h h' := by
  have inside := fits f (by simp)
  unfold splitBlock taken rest
  rw [size]
  split
  next larger =>
    have minimum : heapMINIMUM_BLOCK_SIZE = 16 := rfl
    have header : xHeapStructSize = 8 := rfl
    have stop : f.stop = f.1 + f.2 := rfl
    -- both headers are written, then the rest is put into the list
    let h₁ := (h.setSize (f.1 + want) (f.2 - want)).setSize f.1 want
    have kept : ∀ x, OffHeaders [(f.1 + want, f.2 - want), f] x → h₁.ram x = h.ram x := by
      intro x off
      have left := off (f.1 + want, f.2 - want) (by simp)
      have right := off f (by simp)
      exact (setSize_apply right).trans (setSize_apply left)
    have clear : ∀ e ∈ es, ∀ x, e.1 ≤ x → x < e.1 + xHeapStructSize → OffHeaders [(f.1 + want, f.2 - want), f] x := by
      intro e member x low high k either
      have positive := (fits e (by simp [member])).1
      have side := apart e member
      simp only [Extent.Disjoint, Extent.stop, List.mem_cons, List.not_mem_nil, or_false] at side either
      rcases either with rfl | rfl
      · dsimp only
        omega
      · omega
    have chain₁ : Chain h₁.ram h₁.xStart es h₁.pxEnd :=
      chain.congr fun e member x low high => (kept x (clear e member x low high)).symm
    have restSize : h₁.size (f.1 + want) = f.2 - want := by
      have fitsWord : f.2 - want < 2 ^ 32 := by omega
      refine (size_setSize (.inr (by omega))).trans (size_setSize_self fitsWord)
    have fits₁ : Fits h₁.pxEnd ((f.1 + want, f.2 - want) :: es) := by
      intro e member
      rcases List.mem_cons.mp member with rfl | other
      · refine ⟨by dsimp only; omega, ?_⟩
        change f.1 + want + (f.2 - want) ≤ h.pxEnd
        omega
      · exact fits e (List.mem_cons_of_mem _ other)
    have apart₁ : ∀ e ∈ es, Extent.Disjoint (f.1 + want, f.2 - want) e := by
      intro e member
      have side := apart e member
      simp only [Extent.Disjoint, Extent.stop] at side ⊢
      omega
    obtain ⟨h', inserted, chain', frame⟩ := prvInsertBlockIntoFreeList_spec (e := (f.1 + want, f.2 - want))
      chain₁ normal restSize bound fits₁ apart₁
    refine ⟨h', inserted, chain', ?_, ?_⟩
    · have same := header_congr (a := f.1) fun x low high => frame.ram x fun e member => by
        rcases List.mem_cons.mp member with rfl | other
        · exact .inl (by dsimp only; omega)
        · have side := apart e other
          have positive := (fits e (by simp [other])).1
          simp only [Extent.Disjoint, Extent.stop] at side
          omega
      exact same.2.trans (size_setSize_self (by omega))
    · have first : Frame ((f.1 + want, f.2 - want) :: f :: es) h h₁ :=
        (frame_setSize (e := (f.1 + want, f.2 - want)) (by simp)).trans (frame_setSize (e := f) (by simp))
      refine first.trans (frame.mono fun e member => ?_)
      rcases List.mem_cons.mp member with rfl | other
      · exact ⟨(f.1 + want, f.2 - want), by simp, rfl⟩
      · exact ⟨e, by simp [other], rfl⟩
  next => exact ⟨h, rfl, chain, size, Frame.refl _ _⟩

end Heap4

end Bk7251.Kernel
