import Bk7251.Kernel.HeapBlocks

/-!
# What a call does to the blocks

Allocating uses the beginning of the first free block that is large enough, and there is no other way
to fail than that there is none. Releasing makes the block free. Used blocks keep their bytes.
-/
namespace Bk7251.Kernel

open Lib

/-- The linker's area: not at address 0, large enough for a block, and below the marked sizes. -/
structure HeapArea.Ok (area : HeapArea) : Prop where
  positive : 0 < area.ucHeap
  room : 64 ≤ area.xTotalHeapSize
  bound : area.ucHeap + area.xTotalHeapSize ≤ xBlockAllocatedBit

namespace Heap4

variable {h h' : Heap4} {lo want : Nat} {e f : Extent} {es pre post free used : List Extent}

theorem closed_isBlock {pxEnd : Nat} : Extents.ClosedUnderJoin (IsBlock lo pxEnd) := by
  intro e f touch left right
  refine ⟨left.low, ?_, left.start, Nat.dvd_add left.length right.length, Nat.le_trans left.room (Nat.le_add_right _ _)⟩
  have high := right.high
  simp only [Extent.stop] at touch high ⊢
  omega

/-- A used block lies off the headers of blocks that it does not overlap. -/
theorem offHeaders_of_disjoint (apart : ∀ f ∈ es, e.Disjoint f) (room : ∀ f ∈ es, xHeapStructSize ≤ f.2) {x : Nat}
    (low : e.1 ≤ x) (high : x < e.stop) : OffHeaders es x := by
  intro f member
  have side := apart f member
  have positive := room f member
  simp only [Extent.Disjoint, Extent.stop] at side high
  omega

/-- A block keeps its header where only the headers of blocks that it does not overlap are written. -/
theorem header_kept (ram : ∀ x, OffHeaders es x → h'.ram x = h.ram x) (apart : ∀ f ∈ es, e.Disjoint f)
    (room : ∀ f ∈ es, xHeapStructSize ≤ f.2) (own : xHeapStructSize ≤ e.2) :
    h'.next (some e.1) = h.next (some e.1) ∧ h'.size e.1 = h.size e.1 :=
  header_congr fun x low high => ram x (offHeaders_of_disjoint apart room low
    (Nat.lt_of_lt_of_le high (Nat.add_le_add_left own _)))

/-- So does the marker at the end of the heap. -/
theorem end_kept {pxEnd : Nat} (ram : ∀ x, OffHeaders es x → h'.ram x = h.ram x) (fits : Fits pxEnd es) :
    h'.next (some pxEnd) = h.next (some pxEnd) ∧ h'.size pxEnd = h.size pxEnd := by
  refine header_congr fun x low _ => ram x fun e member => .inr ?_
  obtain ⟨room, high⟩ := fits e member
  simp only [Extent.stop] at high
  omega

/-! ### The two parts of a block -/

theorem taken_fst : (taken f want).1 = f.1 := by
  unfold taken
  split <;> rfl

theorem mem_parts (large : want ≤ f.2) {x : Nat} :
    (f.1 ≤ x ∧ x < f.stop) ↔
      ((taken f want).1 ≤ x ∧ x < (taken f want).stop) ∨ x ∈ Extents.cover (rest f want) := by
  unfold taken rest
  split
  · rw [Extents.mem_cover_cons, Extents.cover_nil]
    simp only [Extent.stop, Set.mem_empty_iff_false, or_false]
    omega
  · rw [Extents.cover_nil]
    exact (or_iff_left (Set.notMem_empty x)).symm

theorem parts_total (large : want ≤ f.2) : (taken f want).2 + Extents.total (rest f want) = f.2 := by
  unfold taken rest
  split
  · simp only [Extents.total_cons, Extents.total_nil]
    omega
  · rfl

/-- Both parts are blocks. -/
theorem parts_isBlock {pxEnd : Nat} (block : IsBlock lo pxEnd f) (large : want ≤ f.2) (aligned : 8 ∣ want)
    (room : 2 * xHeapStructSize ≤ want) :
    IsBlock lo pxEnd (taken f want) ∧ ∀ e ∈ rest f want, IsBlock lo pxEnd e := by
  have high := block.high
  simp only [Extent.stop] at high
  unfold taken rest
  split
  next larger =>
    refine ⟨⟨block.low, ?_, block.start, aligned, room⟩, fun e member => ?_⟩
    · simp only [Extent.stop]
      omega
    · obtain rfl := List.mem_singleton.mp member
      refine ⟨Nat.le_trans block.low (Nat.le_add_right _ _), ?_, Nat.dvd_add block.start aligned,
        Nat.dvd_sub block.length aligned, Nat.le_of_lt larger⟩
      simp only [Extent.stop]
      omega
  · exact ⟨block, by simp⟩

/-- What the block does not overlap, its parts do not overlap. -/
theorem parts_disjoint {g : Extent} (apart : g.Disjoint f) (large : want ≤ f.2) :
    g.Disjoint (taken f want) ∧ ∀ e ∈ rest f want, g.Disjoint e := by
  unfold taken rest
  simp only [Extent.Disjoint, Extent.stop] at *
  split
  · refine ⟨by dsimp only; omega, fun e member => ?_⟩
    obtain rfl := List.mem_singleton.mp member
    dsimp only
    omega
  · exact ⟨by omega, by simp⟩

theorem parts_apart : ∀ e ∈ rest f want, (taken f want).Disjoint e := by
  unfold taken rest
  split
  · intro e member
    obtain rfl := List.mem_singleton.mp member
    exact .inl (Nat.le_refl _)
  · simp

/-- At most one part goes back into the list. -/
theorem forall_putBack {P : Extent → Prop} (closed : Extents.ClosedUnderJoin P) (own : ∀ e ∈ rest f want, P e)
    (all : ∀ e ∈ es, P e) : ∀ e ∈ (rest f want).foldr Extents.insert es, P e := by
  unfold rest at own ⊢
  split at own
  next larger =>
    rw [if_pos larger]
    exact Extents.forall_insert closed (own _ (by simp)) all
  next smaller =>
    rw [if_neg smaller]
    exact all

theorem mem_cover_putBack {x : Nat} :
    x ∈ Extents.cover ((rest f want).foldr Extents.insert es) ↔ x ∈ Extents.cover (rest f want) ∨ x ∈ Extents.cover es := by
  unfold rest
  split
  · simp only [List.foldr_cons, List.foldr_nil, Extents.mem_cover_insert, Extents.mem_cover_cons, Extents.cover_nil,
      Set.mem_empty_iff_false, or_false]
  · simp

theorem total_putBack :
    Extents.total ((rest f want).foldr Extents.insert es) = Extents.total (rest f want) + Extents.total es := by
  unfold rest
  split <;> simp

theorem normal_putBack (normal : Extents.Normal es) (apart : ∀ e ∈ es, f.Disjoint e) (large : want ≤ f.2) :
    Extents.Normal ((rest f want).foldr Extents.insert es) := by
  unfold rest
  split
  next larger =>
    refine Extents.normal_insert (Nat.zero_lt_of_lt larger) normal fun e member => ?_
    have side := apart e member
    simp only [Extent.Disjoint, Extent.stop] at side ⊢
    omega
  next => exact normal

/-! ### Allocating -/

theorem header_setBlock {a n : Nat} (h : Heap4) (small : n < 2 ^ 32) :
    ((h.setSize a n).setNext (some a) 0).next (some a) = 0 ∧ ((h.setSize a n).setNext (some a) 0).size a = n :=
  ⟨next_setNext_self (by decide), (size_setNext (.inl rfl)).trans (size_setSize_self small)⟩

theorem allocated_lt {n : Nat} (small : n < xBlockAllocatedBit) : n ||| xBlockAllocatedBit < 2 ^ 32 := by
  have bit : xBlockAllocatedBit = 2 ^ 31 := rfl
  rw [lor_allocated small]
  omega

theorem header_takeBlock {a : Nat} (small : h.size a < xBlockAllocatedBit) :
    (h.takeBlock a).next (some a) = 0 ∧ (h.takeBlock a).size a = h.size a ||| xBlockAllocatedBit :=
  header_setBlock _ (allocated_lt small)

/-- The block is out of the list, and only a link in front of it has changed. -/
theorem takeOut_spec (holds : h.Holds lo (pre ++ f :: post) used) :
    Chain (h.setNext (linkAfter none pre) (h.next (some f.1))).ram
        (h.setNext (linkAfter none pre) (h.next (some f.1))).xStart (pre ++ post) h.pxEnd ∧
      Frame pre h (h.setNext (linkAfter none pre) (h.next (some f.1))) ∧
      (h.setNext (linkAfter none pre) (h.next (some f.1))).size f.1 = f.2 := by
  have fits := IsBlock.fits holds.freeBlock
  have chain : Chain h.ram (h.next none) (pre ++ f :: post) h.pxEnd := holds.chain
  have frame : Frame pre h (h.setNext (linkAfter none pre) (h.next (some f.1))) := frame_linkAfter fun _ member => member
  have kept := header_kept (e := f) frame.ram
    (fun e member => Normal.disjoint_others holds.normal e (List.mem_append_left _ member))
    (fun e member => (fits e (by simp [member])).1) (fits f (by simp)).1
  exact ⟨unlink holds.chain holds.normal fits, frame, kept.2.trans (next_linkAfter chain).2.1⟩

/-- The blocks whose headers are written, and the others of the list. -/
theorem cut_isBlock (holds : h.Holds lo (pre ++ f :: post) used) (large : want ≤ f.2) (aligned : 8 ∣ want)
    (room : 2 * xHeapStructSize ≤ want) : ∀ e ∈ rest f want ++ pre ++ f :: post, IsBlock lo h.pxEnd e := by
  intro e member
  rw [List.append_assoc] at member
  rcases List.mem_append.mp member with new | old
  · exact (parts_isBlock (holds.freeBlock f (by simp)) large aligned room).2 e new
  · exact holds.freeBlock e old

theorem cut_disjoint (holds : h.Holds lo (pre ++ f :: post) used) (large : want ≤ f.2) :
    ∀ e ∈ used, ∀ g ∈ rest f want ++ pre ++ f :: post, e.Disjoint g := by
  intro e member g inside
  rw [List.append_assoc] at inside
  rcases List.mem_append.mp inside with new | old
  · exact (parts_disjoint (holds.apart e member f (by simp)) large).2 g new
  · exact holds.apart e member g old

/-- What goes back into the list does not overlap what is taken. -/
theorem taken_disjoint (normal : Extents.Normal (pre ++ f :: post)) (large : want ≤ f.2) (positive : 0 < want) :
    ∀ e ∈ (rest f want).foldr Extents.insert (pre ++ post), (taken f want).Disjoint e := by
  have proper : 0 < (taken f want).2 := by
    unfold taken
    split
    · exact positive
    · exact Nat.lt_of_lt_of_le positive large
  refine forall_putBack (Extents.closed_disjoint proper) parts_apart fun e other => ?_
  exact ((parts_disjoint (Normal.disjoint_others normal e other).symm large).1).symm

/-- The block is out of the list and cut, and its rest is in the list. -/
theorem cut_spec (holds : h.Holds lo (pre ++ f :: post) used) (large : want ≤ f.2)
    (room : 2 * xHeapStructSize ≤ want) :
    ∃ h', (h.setNext (linkAfter none pre) (h.next (some f.1))).splitBlock f.1 want = some h' ∧
      Chain h'.ram h'.xStart ((rest f want).foldr Extents.insert (pre ++ post)) h.pxEnd ∧
      h'.size f.1 = (taken f want).2 ∧ Frame (rest f want ++ pre ++ f :: post) h h' := by
  have header : xHeapStructSize = 8 := rfl
  have blocks : ∀ e ∈ f :: (pre ++ post), IsBlock lo h.pxEnd e := fun e member => holds.freeBlock e (by
    simp only [List.mem_cons, List.mem_append] at member ⊢
    tauto)
  obtain ⟨chain, frame, size⟩ := takeOut_spec holds
  rw [← frame.pxEnd] at chain blocks ⊢
  obtain ⟨h', call, chain', size', frame'⟩ := splitBlock_spec chain (Normal.remove holds.normal) (IsBlock.fits blocks)
    (by rw [frame.pxEnd]; exact holds.bound32) (Normal.disjoint_others holds.normal) size large (by omega)
  refine ⟨h', call, chain', size', ?_⟩
  refine (frame.mono fun e member => ⟨e, by simp [member], rfl⟩).trans (frame'.mono fun e member => ⟨e, ?_, rfl⟩)
  simp only [List.mem_append, List.mem_cons] at member ⊢
  tauto

theorem takeBlock_apply {a x : Nat} (off : x < a ∨ a + xHeapStructSize ≤ x) : (h.takeBlock a).ram x = h.ram x :=
  (setNext_apply off).trans (setSize_apply off)

theorem free_takeBlock {a : Nat} : (h.takeBlock a).xFreeBytesRemaining = h.xFreeBytesRemaining - h.size a := rfl

theorem least_takeBlock {a : Nat} : (h.takeBlock a).xMinimumEverFreeBytesRemaining =
    min h.xMinimumEverFreeBytesRemaining (h.takeBlock a).xFreeBytesRemaining := by
  rw [free_takeBlock]
  change (if _ < _ then _ else _) = _
  split <;> omega

/-- Taken off the bytes of the list, the bytes of the block are no longer counted. -/
theorem free_cut (holds : h.Holds lo (pre ++ f :: post) used) (large : want ≤ f.2) :
    h.xFreeBytesRemaining - (taken f want).2 = Extents.total ((rest f want).foldr Extents.insert (pre ++ post)) := by
  have parts := parts_total (f := f) large
  rw [holds.count, total_putBack]
  simp only [Extents.total_append, Extents.total_cons]
  omega

/-- The heap with the block marked as used. -/
theorem takeBlock_holds (holds : h.Holds lo (pre ++ f :: post) used) (large : want ≤ f.2) (aligned : 8 ∣ want)
    (room : 2 * xHeapStructSize ≤ want)
    (chain : Chain h'.ram h'.xStart ((rest f want).foldr Extents.insert (pre ++ post)) h.pxEnd)
    (size : h'.size f.1 = (taken f want).2) (frame : Frame (rest f want ++ pre ++ f :: post) h h')
    (ram : ∀ x, OffHeaders (rest f want ++ pre ++ f :: post) x → (h'.takeBlock f.1).ram x = h.ram x) :
    (h'.takeBlock f.1).Holds lo ((rest f want).foldr Extents.insert (pre ++ post)) (taken f want :: used) := by
  have header : xHeapStructSize = 8 := rfl
  have block := holds.freeBlock f (by simp)
  have others : ∀ e ∈ pre ++ post, IsBlock lo h.pxEnd e := fun e member => holds.freeBlock e (by
    simp only [List.mem_cons, List.mem_append] at member ⊢
    tauto)
  have fits := IsBlock.fits (cut_isBlock holds large aligned room)
  have pxEnd : (h'.takeBlock f.1).pxEnd = h.pxEnd := frame.pxEnd
  obtain ⟨blockTaken, blockRest⟩ := parts_isBlock block large aligned room
  have listed := forall_putBack closed_isBlock blockRest others
  have apart := taken_disjoint holds.normal large (by omega)
  have small : (taken f want).2 < xBlockAllocatedBit := by
    have high := blockTaken.high
    have bound := holds.bound
    simp only [Extent.stop] at high
    omega
  exact
    { positive := holds.positive
      order := pxEnd ▸ holds.order
      bound := pxEnd ▸ holds.bound
      chain := by
        rw [pxEnd]
        refine chain.congr fun e member x low high => (takeBlock_apply ?_).symm
        have side := apart e member
        have own := blockTaken.room
        have length := (listed e member).room
        simp only [Extent.Disjoint, Extent.stop, taken_fst] at side
        omega
      normal := normal_putBack (Normal.remove holds.normal) (Normal.disjoint_others holds.normal) large
      freeBlock := pxEnd ▸ listed
      usedBlock := pxEnd ▸ List.forall_mem_cons.mpr ⟨blockTaken, holds.usedBlock⟩
      marked := by
        refine List.forall_mem_cons.mpr ⟨?_, fun e member => ?_⟩
        · have written := header_takeBlock (size ▸ small)
          rw [size] at written
          rw [taken_fst]
          exact written
        · have kept := header_kept ram (cut_disjoint holds large e member) (fun g inside => (fits g inside).1)
            (Nat.le_trans (by decide) (holds.usedBlock e member).room)
          obtain ⟨next, marked⟩ := holds.marked e member
          exact ⟨kept.1.trans next, kept.2.trans marked⟩
      apart := by
        refine List.forall_mem_cons.mpr ⟨apart, fun e member => ?_⟩
        have positive := (holds.usedBlock e member).room
        have side := cut_disjoint holds large e member
        refine forall_putBack (Extents.closed_disjoint (by omega)) (fun g new => side g (by simp [new])) fun g other => ?_
        exact side g (by rcases List.mem_append.mp other with left | right <;> simp [*])
      distinct := List.pairwise_cons.mpr ⟨fun e member =>
        (parts_disjoint (holds.apart e member f (by simp)) large).1.symm, holds.distinct⟩
      covered := by
        intro x low high
        rw [pxEnd] at high
        have old := holds.covered x low high
        rw [Extents.mem_cover_append, Extents.mem_cover_cons, mem_parts large] at old
        rw [mem_cover_putBack, Extents.mem_cover_append, Extents.mem_cover_cons]
        tauto
      count := by rw [free_takeBlock, size, frame.free, free_cut holds large]
      least := by
        rw [least_takeBlock]
        exact Nat.min_le_right _ _
      last := by
        have kept := end_kept ram fits
        rw [pxEnd]
        exact ⟨kept.1.trans holds.last.1, kept.2.trans holds.last.2⟩ }

/-- The first free block that is large enough is taken. -/
theorem allocate_spec (holds : h.Holds lo (pre ++ f :: post) used) (small : ∀ e ∈ pre, e.2 < want)
    (large : want ≤ f.2) (aligned : 8 ∣ want) (room : 2 * xHeapStructSize ≤ want) :
    ∃ h', h.allocate want = some (h', f.1 + xHeapStructSize) ∧ h'.pxEnd = h.pxEnd ∧
      h'.Holds lo ((rest f want).foldr Extents.insert (pre ++ post)) (taken f want :: used) ∧
      (∀ x, OffHeaders (rest f want ++ pre ++ f :: post) x → h'.ram x = h.ram x) ∧
      h'.xMinimumEverFreeBytesRemaining = min h.xMinimumEverFreeBytesRemaining h'.xFreeBytesRemaining := by
  have header : xHeapStructSize = 8 := rfl
  have start : h.next (linkAfter none pre) = f.1 := (next_linkAfter (l := none) holds.chain).1
  obtain ⟨h₁, split, chain, size, frame⟩ := cut_spec holds large room
  have ram : ∀ x, OffHeaders (rest f want ++ pre ++ f :: post) x → (h₁.takeBlock f.1).ram x = h.ram x := fun x off =>
    (takeBlock_apply (off f (by simp))).trans (frame.ram x off)
  refine ⟨h₁.takeBlock f.1, ?_, frame.pxEnd, takeBlock_holds holds large aligned room chain size frame ram, ram, ?_⟩
  · have enough : want > 0 ∧ want ≤ h.xFreeBytesRemaining := by
      rw [holds.count]
      simp only [Extents.total_append, Extents.total_cons]
      omega
    have proper : f.1 ≠ h.pxEnd := by
      have fits := IsBlock.fits holds.freeBlock f (by simp)
      have stop : f.stop = f.1 + f.2 := rfl
      omega
    unfold allocate
    rw [if_pos enough, firstFit_found holds small large, Option.bind_some]
    dsimp only
    rw [if_pos proper, start, split, Option.map_some]
  · rw [least_takeBlock, frame.least]

/-- Without a block that is large enough nothing is taken, and nothing changes. -/
theorem allocate_none (holds : h.Holds lo free used) (small : ∀ e ∈ free, e.2 < want) :
    h.allocate want = some (h, 0) := by
  unfold allocate
  split
  · rw [firstFit_none holds small, Option.bind_some]
    exact if_neg (by simp)
  · rfl

/-! ### Sizes -/

theorem alignedUp_spec (x : Nat) : 8 ∣ alignedUp x ∧ x ≤ alignedUp x ∧ alignedUp x < x + 8 := by
  have eight : portBYTE_ALIGNMENT = 8 := rfl
  unfold alignedUp
  rw [eight]
  split
  · refine ⟨?_, ?_, ?_⟩ <;> omega
  · refine ⟨?_, ?_, ?_⟩ <;> omega

theorem blockSizeFor_spec {n : Nat} (positive : 0 < n) :
    8 ∣ blockSizeFor n ∧ n + xHeapStructSize ≤ blockSizeFor n ∧ 2 * xHeapStructSize ≤ blockSizeFor n := by
  obtain ⟨aligned, low, high⟩ := alignedUp_spec (n + xHeapStructSize)
  have header : xHeapStructSize = 8 := rfl
  rw [blockSizeFor, if_pos positive]
  exact ⟨aligned, low, by omega⟩

theorem and_allocated {n : Nat} (word : n < 2 ^ 32) : n &&& xBlockAllocatedBit = 0 ↔ n < xBlockAllocatedBit := by
  have bit : xBlockAllocatedBit = 2 ^ 31 := rfl
  rw [bit]
  by_cases low : n < 2 ^ 31
  · refine iff_of_true (Nat.eq_of_testBit_eq fun i => ?_) low
    rw [Nat.testBit_and, Nat.testBit_two_pow, Nat.zero_testBit]
    by_cases top : 31 = i
    · subst top
      rw [Nat.testBit_lt_two_pow low, Bool.false_and]
    · rw [decide_eq_false top, Bool.and_false]
  · refine iff_of_false (fun zero => ?_) low
    have top : (n &&& 2 ^ 31).testBit 31 = true := by
      rw [Nat.testBit_and, Nat.testBit_of_two_pow_le_and_two_pow_add_one_gt (Nat.not_lt.mp low) word,
        Nat.testBit_two_pow_self, Bool.and_self]
    rw [zero, Nat.zero_testBit] at top
    cases top

theorem cleared_allocated {n : Nat} (small : n < xBlockAllocatedBit) : cleared (n ||| xBlockAllocatedBit) = n := by
  have bit : xBlockAllocatedBit = 2 ^ 31 := rfl
  rw [cleared, lor_allocated small, bit, Nat.and_two_pow_sub_one_eq_mod, Nat.add_mod_right]
  exact Nat.mod_eq_of_lt (bit ▸ small)

/-- How an allocation ends: with the first free block that is large enough, or with nothing changed
because there is none. -/
theorem mallocWithoutLock_spec (area : HeapArea) (holds : h.Holds lo free used) {n : Nat} (positive : 0 < n)
    (word : n < 2 ^ 32) :
    ((∀ e ∈ free, e.2 < blockSizeFor n) ∧ h.mallocWithoutLock area n = some (h, 0)) ∨
      ∃ pre f post h', free = pre ++ f :: post ∧ (∀ e ∈ pre, e.2 < blockSizeFor n) ∧ blockSizeFor n ≤ f.2 ∧
        h.mallocWithoutLock area n = some (h', f.1 + xHeapStructSize) ∧ h'.pxEnd = h.pxEnd ∧
        h'.Holds lo ((rest f (blockSizeFor n)).foldr Extents.insert (pre ++ post)) (taken f (blockSizeFor n) :: used) ∧
        (∀ x, OffHeaders (rest f (blockSizeFor n) ++ pre ++ f :: post) x → h'.ram x = h.ram x) ∧
        h'.xMinimumEverFreeBytesRemaining = min h.xMinimumEverFreeBytesRemaining h'.xFreeBytesRemaining := by
  obtain ⟨aligned, fits, room⟩ := blockSizeFor_spec positive
  have started : h.pxEnd ≠ 0 := Nat.ne_of_gt (Nat.lt_of_lt_of_le holds.positive holds.order)
  have small : ∀ e ∈ free, e.2 < xBlockAllocatedBit := by
    intro e member
    have high := (holds.freeBlock e member).high
    have bound := holds.bound
    simp only [Extent.stop] at high
    omega
  unfold mallocWithoutLock
  rw [if_neg started]
  dsimp only
  by_cases large : n < xBlockAllocatedBit
  · rw [if_pos ((and_allocated word).mpr large)]
    by_cases some : ∃ e ∈ free, blockSizeFor n ≤ e.2
    · obtain ⟨f, pre, post, rfl, fitsF, before⟩ : ∃ f pre post, free = pre ++ f :: post ∧ blockSizeFor n ≤ f.2 ∧
          ∀ e ∈ pre, e.2 < blockSizeFor n := by
        have found : (free.find? fun e => decide (blockSizeFor n ≤ e.2)).isSome := by
          simpa only [List.find?_isSome, decide_eq_true_eq] using some
        obtain ⟨f, eq⟩ := Option.isSome_iff_exists.mp found
        obtain ⟨fitsF, pre, post, split, before⟩ := List.find?_eq_some_iff_append.mp eq
        exact ⟨f, pre, post, split, by simpa using fitsF, fun e member => by simpa using before e member⟩
      obtain ⟨h', call, rest⟩ := allocate_spec holds before fitsF aligned room
      exact .inr ⟨pre, f, post, h', rfl, before, fitsF, call, rest⟩
    · have none : ∀ e ∈ free, e.2 < blockSizeFor n := by simpa using some
      exact .inl ⟨none, allocate_none holds none⟩
  · rw [if_neg (mt (and_allocated word).mp large)]
    refine .inl ⟨fun e member => ?_, rfl⟩
    have := small e member
    omega

/-! ### Releasing -/

theorem Holds.perm {used' : List Extent} (holds : h.Holds lo free used) (perm : used.Perm used') :
    h.Holds lo free used' :=
  { holds with
    usedBlock := fun e member => holds.usedBlock e (perm.mem_iff.mpr member)
    marked := fun e member => holds.marked e (perm.mem_iff.mpr member)
    apart := fun e member => holds.apart e (perm.mem_iff.mpr member)
    distinct := (perm.pairwise_iff fun apart => Extent.Disjoint.symm apart).mp holds.distinct
    covered := fun x low high => (holds.covered x low high).imp_right fun ⟨e, member, inside⟩ =>
      ⟨e, perm.mem_iff.mp member, inside⟩ }

/-- The block that is freed and the free blocks overlap no other used block. -/
theorem Holds.disjoint_freed (holds : h.Holds lo free (e :: used)) : ∀ g ∈ used, ∀ f ∈ e :: free, g.Disjoint f :=
  fun g member => List.forall_mem_cons.mpr
    ⟨((List.pairwise_cons.mp holds.distinct).1 g member).symm, holds.apart g (by simp [member])⟩

theorem Holds.fits_freed (holds : h.Holds lo free (e :: used)) : Fits h.pxEnd (e :: free) :=
  IsBlock.fits (List.forall_mem_cons.mpr ⟨holds.usedBlock e (by simp), holds.freeBlock⟩)

/-- A used block becomes free. -/
theorem release_spec (holds : h.Holds lo free (e :: used)) :
    ∃ h', h.release e.1 = some h' ∧ h'.pxEnd = h.pxEnd ∧ h'.Holds lo (Extents.insert e free) used ∧
      (∀ x, OffHeaders (e :: free) x → h'.ram x = h.ram x) ∧
      h'.xMinimumEverFreeBytesRemaining = h.xMinimumEverFreeBytesRemaining := by
  have header : xHeapStructSize = 8 := rfl
  have block := holds.usedBlock e (by simp)
  have blocks : ∀ f ∈ used, IsBlock lo h.pxEnd f := fun f member => holds.usedBlock f (by simp [member])
  have apart := holds.apart e (by simp)
  have small : e.2 < xBlockAllocatedBit := by
    have := block.high
    have := holds.bound
    simp only [Extent.stop] at *
    omega
  have bit : xBlockAllocatedBit = 2 ^ 31 := rfl
  have size : cleared (h.size e.1) = e.2 := by rw [(holds.marked e (by simp)).2, cleared_allocated small]
  -- the header without its mark
  let h₁ : Heap4 := { h.setSize e.1 e.2 with xFreeBytesRemaining := h.xFreeBytesRemaining + e.2 }
  have size₁ : h₁.size e.1 = e.2 := size_setSize_self (h := h) (by omega)
  have off : ∀ f ∈ free, ∀ x, f.1 ≤ x → x < f.1 + xHeapStructSize → x < e.1 ∨ e.1 + xHeapStructSize ≤ x := by
    intro f member x low high
    have side := apart f member
    have room := (holds.freeBlock f member).room
    have own := block.room
    simp only [Extent.Disjoint, Extent.stop] at side
    omega
  have chain₁ : Chain h₁.ram h₁.xStart free h₁.pxEnd :=
    holds.chain.congr fun f member x low high => (setSize_apply (off f member x low high)).symm
  have fits := holds.fits_freed
  obtain ⟨h', inserted, chain', frame⟩ := prvInsertBlockIntoFreeList_spec (e := e) chain₁ holds.normal size₁ holds.bound32
    fits apart
  have frameAll : ∀ x, OffHeaders (e :: free) x → h'.ram x = h.ram x := fun x offX =>
    (frame.ram x offX).trans (setSize_apply (offX e (by simp)))
  have pxEnd' : h'.pxEnd = h.pxEnd := frame.pxEnd
  have positive : 0 < e.2 := by
    have := block.room
    omega
  have fromE := List.pairwise_cons.mp holds.distinct
  refine ⟨h', ?_, pxEnd', ?_, frameAll, frame.least⟩
  · unfold release
    rw [size]
    have own : (h.setSize e.1 e.2).size e.1 = e.2 := size₁
    dsimp only
    rw [own]
    exact inserted
  · refine ⟨holds.positive, pxEnd' ▸ holds.order, pxEnd' ▸ holds.bound, pxEnd' ▸ chain', ?_, ?_, ?_, ?_, ?_,
      fromE.2, ?_, ?_, ?_, ?_⟩
    · exact Extents.normal_insert positive holds.normal apart
    · rw [pxEnd']
      exact Extents.forall_insert closed_isBlock block holds.freeBlock
    · rw [pxEnd']
      exact blocks
    · intro f member
      have kept := header_kept frameAll (holds.disjoint_freed f member) (fun g inside => (fits g inside).1)
        (Nat.le_trans (by decide) (blocks f member).room)
      obtain ⟨next, marked⟩ := holds.marked f (by simp [member])
      exact ⟨kept.1.trans next, kept.2.trans marked⟩
    · intro f member
      have room := (blocks f member).room
      exact Extents.forall_insert (Extents.closed_disjoint (by omega)) (fromE.1 f member).symm
        (holds.apart f (by simp [member]))
    · intro x low high
      rw [pxEnd'] at high
      have old := holds.covered x low high
      rw [Extents.mem_cover_insert]
      rw [Extents.mem_cover_cons] at old ⊢
      tauto
    · rw [frame.free, Extents.total_insert]
      change h.xFreeBytesRemaining + e.2 = _
      rw [holds.count, Nat.add_comm]
    · rw [frame.least, frame.free]
      exact Nat.le_trans holds.least (Nat.le_add_right _ _)
    · have kept := end_kept frameAll fits
      rw [pxEnd']
      exact ⟨kept.1.trans holds.last.1, kept.2.trans holds.last.2⟩

/-- `vPortFree` of a pointer that was returned. -/
theorem vPortFree_eq (holds : h.Holds lo free (e :: used)) : h.vPortFree (e.1 + xHeapStructSize) = h.release e.1 := by
  obtain ⟨next, size⟩ := holds.marked e (by simp)
  have small : e.2 < xBlockAllocatedBit := by
    have high := (holds.usedBlock e (by simp)).high
    have := holds.bound
    simp only [Extent.stop] at high
    omega
  have marked : h.size e.1 &&& xBlockAllocatedBit ≠ 0 := by
    rw [size, ne_eq, and_allocated (allocated_lt small), lor_allocated small]
    omega
  unfold vPortFree
  rw [if_pos (by have : xHeapStructSize = 8 := rfl; omega), Nat.add_sub_cancel]
  exact if_pos ⟨marked, next⟩

/-! ### The first call -/

/-- The whole area is one free block. -/
theorem prvHeapInit_spec {area : HeapArea} (ok : area.Ok) (h : Heap4) :
    ∃ n, (h.prvHeapInit area).Holds (alignedUp area.ucHeap) [(alignedUp area.ucHeap, n)] [] ∧
      (h.prvHeapInit area).pxEnd = alignedUp area.ucHeap + n ∧
      (h.prvHeapInit area).pxEnd + xHeapStructSize ≤ area.ucHeap + area.xTotalHeapSize := by
  obtain ⟨aligned, low, high⟩ := alignedUp_spec area.ucHeap
  have positive := ok.positive
  have room := ok.room
  have bound := ok.bound
  have bit : xBlockAllocatedBit = 2 ^ 31 := rfl
  have header : xHeapStructSize = 8 := rfl
  have eight : portBYTE_ALIGNMENT = 8 := rfl
  obtain ⟨lo, start⟩ : ∃ lo, alignedUp area.ucHeap = lo := ⟨_, rfl⟩
  obtain ⟨pxEnd, last⟩ : ∃ pxEnd, lo + (area.xTotalHeapSize - (lo - area.ucHeap)) - xHeapStructSize -
      (lo + (area.xTotalHeapSize - (lo - area.ucHeap)) - xHeapStructSize) % portBYTE_ALIGNMENT = pxEnd := ⟨_, rfl⟩
  have init : h.prvHeapInit area =
      { ((({ h with xStart := lo, pxEnd := pxEnd }.setSize pxEnd 0).setNext (some pxEnd) 0).setSize lo
          (pxEnd - lo)).setNext (some lo) pxEnd with
        xMinimumEverFreeBytesRemaining := pxEnd - lo, xFreeBytesRemaining := pxEnd - lo } := by
    simp only [prvHeapInit, start, last]
  rw [start] at aligned low high ⊢
  rw [header, eight] at last
  have above : lo + 16 ≤ pxEnd := by omega
  have inside : pxEnd + 8 ≤ area.ucHeap + area.xTotalHeapSize := by omega
  have below : pxEnd + 8 ≤ 2 ^ 31 := by omega
  have divides : 8 ∣ pxEnd := by omega
  rw [init]
  have apart : HeadersApart pxEnd lo := .inr (by omega)
  have marker : ∀ {g : Heap4}, g.next (some pxEnd) = 0 ∧ g.size pxEnd = 0 →
      ((g.setSize lo (pxEnd - lo)).setNext (some lo) pxEnd).next (some pxEnd) = 0 ∧
        ((g.setSize lo (pxEnd - lo)).setNext (some lo) pxEnd).size pxEnd = 0 := fun ⟨next, size⟩ =>
    ⟨(next_setNext apart).trans ((next_setSize (.inr apart)).trans next),
      (size_setNext (.inr apart)).trans ((size_setSize apart).trans size)⟩
  refine ⟨pxEnd - lo, ⟨by omega, ?_, ?_, ⟨rfl, ?_, ?_⟩, ⟨by dsimp only; omega, by simp, trivial⟩, ?_, by simp, by simp,
    by simp, List.Pairwise.nil, ?_, ?_, Nat.le_refl _, ?_⟩, ?_, inside⟩
  · change lo ≤ pxEnd
    omega
  · change pxEnd < xBlockAllocatedBit
    omega
  · exact (size_setNext (.inl rfl)).trans (size_setSize_self (by omega))
  · exact next_setNext_self (l := some lo) (by omega)
  · intro e member
    obtain rfl := List.mem_singleton.mp member
    exact ⟨Nat.le_refl _, by change lo + (pxEnd - lo) ≤ pxEnd; omega, aligned, Nat.dvd_sub divides aligned, by
      dsimp only
      omega⟩
  · intro x above upper
    refine .inl (Extents.mem_cover_cons.mpr (.inl ⟨above, ?_⟩))
    change x < lo + (pxEnd - lo)
    change x < pxEnd at upper
    omega
  · simp [Extents.total]
  · exact marker (header_setBlock _ (by decide))
  · change pxEnd = lo + (pxEnd - lo)
    omega

end Heap4

end Bk7251.Kernel
