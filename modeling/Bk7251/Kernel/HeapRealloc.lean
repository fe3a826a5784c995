import Bk7251.Kernel.HeapCalls
import Mathlib.Data.List.Pairwise

/-!
# Changing the size of a block

`pvPortRealloc` frees the block before it looks for a larger one. Where it finds none it takes the block
out of the list again and leaves the heap as it was. Where it finds one the old payload is still to be
copied, although the header of what is left of the new block may have been written into it by then.
-/
namespace Bk7251.Kernel

open Lib

namespace Heap4

variable {h h' : Heap4} {lo want : Nat} {l : Link} {e f g : Extent} {es pre post free used : List Extent}

/-! ### Taking the block out again -/

/-- Blocks in front of the one that contains the freed block are passed over. -/
theorem takeBack_append {n : Nat} (chain : Chain h.ram (h.next l) (pre ++ g :: post) h.pxEnd)
    (normal : Extents.Normal (pre ++ g :: post)) (positive : ∀ f ∈ pre, 0 < f.1) (low : g.1 ≤ e.1)
    (enough : pre.length < n) :
    h.takeBack e.1 e.2 n l (h.next l) = h.takeBack e.1 e.2 (n - pre.length) (linkAfter l pre) g.1 := by
  induction pre generalizing l n with
  | nil => rw [show h.next l = g.1 from chain.1]; rfl
  | cons f pre ih =>
    obtain ⟨fuel, rfl⟩ := Nat.exists_eq_succ_of_ne_zero (Nat.ne_of_gt (Nat.lt_of_le_of_lt (Nat.zero_le _) enough))
    have here : h.next l = f.1 := chain.1
    have size : h.size f.1 = f.2 := chain.2.1
    have gap := normal.2.1 g (by simp)
    have own := positive f (by simp)
    have length := normal.1
    have later := ih (l := some f.1) chain.2.2 normal.tail (fun k member => positive k (by simp [member]))
      (n := fuel) (by simpa using enough)
    simp only [Extent.stop] at gap
    rw [here, takeBack, size, if_neg (by omega), if_neg (by omega), if_neg (by omega), if_neg (by omega),
      linkAfter_cons, List.length_cons, Nat.succ_sub_succ]
    exact later

/-- Which headers the pieces around the block have. -/
def pieces (g e : Extent) : List Extent := g :: if e.stop < g.stop then [(e.stop, g.stop - e.stop)] else []

/-- The block `e` has become a part of the block `g` of the list, and what is left of `g` on either side of
it is a block of its own. -/
structure Joined (h : Heap4) (pre : List Extent) (g : Extent) (post : List Extent) (e : Extent) : Prop where
  chain : Chain h.ram h.xStart (pre ++ g :: post) h.pxEnd
  normal : Extents.Normal (pre ++ g :: post)
  fits : Fits h.pxEnd (pre ++ g :: post)
  bound : h.pxEnd < 2 ^ 32
  positive : ∀ f ∈ pre ++ g :: post, 0 < f.1
  low : g.1 ≤ e.1
  high : e.stop ≤ g.stop
  front : g.1 < e.1 → xHeapStructSize ≤ e.1 - g.1
  own : xHeapStructSize ≤ e.2
  back : e.stop < g.stop → xHeapStructSize ≤ g.stop - e.stop

theorem Joined.room (joined : Joined h pre g post e) : ∀ f ∈ pre, xHeapStructSize ≤ f.2 := fun f member =>
  (joined.fits f (by simp [member])).1

theorem Joined.size (joined : Joined h pre g post e) : h.size g.1 = g.2 :=
  (next_linkAfter (l := none) joined.chain).2.1

theorem Joined.stop_lt (joined : Joined h pre g post e) : g.stop < 2 ^ 32 :=
  Nat.lt_of_le_of_lt (joined.fits g (by simp)).2 joined.bound

theorem Joined.later (joined : Joined h pre g post e) : ∀ f ∈ post, g.stop ≤ f.1 := fun f member =>
  Nat.le_of_lt ((Extents.normal_append.mp joined.normal).2.1.2.1 f member)

/-- Behind `g` the list is as it was where nothing is written behind `g`. -/
theorem Joined.behind {k : Heap4} (joined : Joined h pre g post e) (same : ∀ x, g.stop ≤ x → k.ram x = h.ram x) :
    Chain k.ram (h.next (some g.1)) post h.pxEnd :=
  (next_linkAfter (l := none) joined.chain).2.2.congr fun f member x low _ =>
    (same x (Nat.le_trans (joined.later f member) low)).symm

/-- In front of `g` the list is as it was where nothing is written in front of `g`. -/
theorem Joined.replace {k : Heap4} {onward : List Extent} (joined : Joined h pre g post e)
    (start : k.xStart = h.xStart) (same : ∀ x, x < g.1 → k.ram x = h.ram x)
    (later : Chain k.ram g.1 onward h.pxEnd) : Chain k.ram k.xStart (pre ++ onward) h.pxEnd := by
  refine Chain.replace joined.chain ?_ joined.room start same later
  have normal := joined.normal
  rw [← List.singleton_append, ← List.append_assoc] at normal
  exact (Extents.normal_append.mp normal).1

/-- The search ends at `g`. -/
theorem Joined.takeBack_eq (joined : Joined h pre g post e) :
    ∃ fuel, h.takeBack e.1 e.2 (h.pxEnd + 1) none h.xStart =
      h.takeBack e.1 e.2 (fuel + 1) (linkAfter none pre) g.1 := by
  have few := joined.normal.length_le fun f member => (joined.fits f member).2
  simp only [List.length_append, List.length_cons] at few
  have passed := takeBack_append (e := e) (l := none) joined.chain joined.normal
    (fun f member => joined.positive f (by simp [member])) joined.low (n := h.pxEnd + 1) (by omega)
  obtain ⟨fuel, left⟩ := Nat.exists_eq_succ_of_ne_zero (show h.pxEnd + 1 - pre.length ≠ 0 by omega)
  rw [left] at passed
  exact ⟨fuel, passed⟩

/-- The block was the beginning of `g`: the rest gets a header, and the link in front. -/
theorem Joined.takeBack_start (joined : Joined h pre g post e) (first : g.1 = e.1) (larger : e.stop < g.stop) :
    Chain (((h.setSize e.stop (g.2 - e.2)).setNext (some e.stop) (h.next (some g.1))).setNext
          (linkAfter none pre) e.stop).ram
        (((h.setSize e.stop (g.2 - e.2)).setNext (some e.stop) (h.next (some g.1))).setNext
          (linkAfter none pre) e.stop).xStart (pre ++ (e.stop, g.stop - e.stop) :: post) h.pxEnd ∧
      Frame (pieces g e ++ pre) h
        (((h.setSize e.stop (g.2 - e.2)).setNext (some e.stop) (h.next (some g.1))).setNext
          (linkAfter none pre) e.stop) := by
  have header : xHeapStructSize = 8 := rfl
  have stopE : e.stop = e.1 + e.2 := rfl
  have stopG : g.stop = g.1 + g.2 := rfl
  have own := joined.own
  have after := joined.back larger
  have word := joined.stop_lt
  let h₁ := (h.setSize e.stop (g.2 - e.2)).setNext (some e.stop) (h.next (some g.1))
  have kept : ∀ x, x < e.stop ∨ g.stop ≤ x → h₁.ram x = h.ram x := fun x off =>
    (setNext_apply (by omega)).trans (setSize_apply (by omega))
  have onward : Chain h₁.ram e.stop ((e.stop, g.stop - e.stop) :: post) h.pxEnd := by
    have sized : (h.setSize e.stop (g.2 - e.2)).size e.stop = g.2 - e.2 := size_setSize_self (by omega)
    refine chain_setNext (e := (e.stop, g.stop - e.stop)) (joined.behind fun x above => setSize_apply (by omega))
      (Mem.word_lt _ _) (sized.trans (by dsimp only; omega)) after fun f member => ?_
    exact Nat.le_trans (by simp only [Extent.stop] at larger ⊢; omega) (joined.later f member)
  have old : Chain h₁.ram h₁.xStart (pre ++ g :: post) h.pxEnd := by
    have same := header_congr (a := g.1) fun x _ upper => kept x (.inl (by omega))
    refine joined.replace rfl (fun x below => kept x (.inl (by omega))) ⟨rfl, same.2.trans joined.size, ?_⟩
    rw [same.1]
    exact joined.behind fun x above => kept x (.inr above)
  have between : ∀ f ∈ pre, ∀ k ∈ (e.stop, g.stop - e.stop) :: post, f.stop ≤ k.1 := by
    intro f member k inside
    have gap := (Extents.normal_append.mp joined.normal).2.2 f member
    rcases List.mem_cons.mp inside with rfl | later
    · have := gap g (by simp)
      dsimp only
      omega
    · exact Nat.le_of_lt (gap k (by simp [later]))
  have marks : Frame (pieces g e ++ pre) h h₁ :=
    (frame_setSize (e := (e.stop, g.stop - e.stop)) (by simp [pieces, larger])).trans
      (frame_setNext (e := (e.stop, g.stop - e.stop)) (by simp [pieces, larger]))
  exact ⟨relink (h := h₁) old onward (by omega) (Extents.normal_append.mp joined.normal).1 joined.room between,
    marks.trans (frame_linkAfter fun f member => List.mem_append_right _ member)⟩

/-- The block was the end of `g`: `g` becomes smaller. -/
theorem Joined.takeBack_end (joined : Joined h pre g post e) (below : g.1 < e.1) (final : g.stop = e.stop) :
    Chain (h.setSize g.1 (g.2 - e.2)).ram (h.setSize g.1 (g.2 - e.2)).xStart (pre ++ (g.1, e.1 - g.1) :: post)
        h.pxEnd ∧
      Frame (pieces g e ++ pre) h (h.setSize g.1 (g.2 - e.2)) := by
  have stopE : e.stop = e.1 + e.2 := rfl
  have stopG : g.stop = g.1 + g.2 := rfl
  have before := joined.front below
  have word := joined.stop_lt
  have size : (h.setSize g.1 (g.2 - e.2)).size g.1 = g.2 - e.2 := size_setSize_self (by omega)
  refine ⟨joined.replace rfl (fun x low => setSize_apply (.inl low)) ⟨rfl, size.trans (by dsimp only; omega), ?_⟩,
    frame_setSize (by simp [pieces])⟩
  change Chain _ ((h.setSize g.1 (g.2 - e.2)).next (some g.1)) _ _
  rw [next_setSize (.inl rfl)]
  exact joined.behind fun x above => setSize_apply (by omega)

/-- The block was in the middle of `g`: `g` becomes smaller, and the rest behind it gets a header. -/
theorem Joined.takeBack_middle (joined : Joined h pre g post e) (below : g.1 < e.1) (larger : e.stop < g.stop) :
    Chain ((((h.setSize e.stop (g.stop - e.stop)).setNext (some g.1) e.stop).setSize g.1 (e.1 - g.1)).setNext
          (some e.stop) (h.next (some g.1))).ram h.xStart
        (pre ++ (g.1, e.1 - g.1) :: (e.stop, g.stop - e.stop) :: post) h.pxEnd ∧
      Frame (pieces g e ++ pre) h
        ((((h.setSize e.stop (g.stop - e.stop)).setNext (some g.1) e.stop).setSize g.1 (e.1 - g.1)).setNext
          (some e.stop) (h.next (some g.1))) := by
  have header : xHeapStructSize = 8 := rfl
  have stopE : e.stop = e.1 + e.2 := rfl
  have stopG : g.stop = g.1 + g.2 := rfl
  have before := joined.front below
  have after := joined.back larger
  have word := joined.stop_lt
  have apart : HeadersApart g.1 e.stop := .inl (by omega)
  let h₂ := ((h.setSize e.stop (g.stop - e.stop)).setNext (some g.1) e.stop).setSize g.1 (e.1 - g.1)
  let h₃ := h₂.setNext (some e.stop) (h.next (some g.1))
  have kept : ∀ x, x < g.1 ∨ g.stop ≤ x → h₂.ram x = h.ram x := fun x off =>
    (setSize_apply (by omega)).trans ((setNext_apply (by omega)).trans (setSize_apply (by omega)))
  have sizedRest : h₂.size e.stop = g.stop - e.stop := by
    have flip : HeadersApart e.stop g.1 := apart.symm
    exact (size_setSize flip).trans ((size_setNext (.inr flip)).trans (size_setSize_self (by omega)))
  have sized : h₃.size g.1 = e.1 - g.1 := (size_setNext (.inr apart)).trans (size_setSize_self (by omega))
  have linked : h₃.next (some g.1) = e.stop :=
    (next_setNext apart).trans ((next_setSize (.inl rfl)).trans (next_setNext_self (by omega)))
  have rest : Chain h₃.ram e.stop ((e.stop, g.stop - e.stop) :: post) h.pxEnd := by
    refine chain_setNext (e := (e.stop, g.stop - e.stop)) (joined.behind fun x above => kept x (.inr above))
      (Mem.word_lt _ _) sizedRest after fun f member => ?_
    exact Nat.le_trans (by simp only [Extent.stop] at larger ⊢; omega) (joined.later f member)
  have new : (e.stop, g.stop - e.stop) ∈ pieces g e ++ pre := by simp [pieces, larger]
  have self : g ∈ pieces g e ++ pre := by simp [pieces]
  refine ⟨joined.replace (k := h₃) rfl (fun x low => ?_) ⟨rfl, sized, ?_⟩,
    ((frame_setSize new).trans (frame_setNext self)).trans ((frame_setSize self).trans (frame_setNext new))⟩
  · exact (setNext_apply (by omega)).trans (kept x (.inl low))
  · change Chain _ (h₃.next (some g.1)) _ _
    rw [linked]
    exact rest

/-- The block leaves the list, and what is free around it stays. -/
theorem takeBack_spec (joined : Joined h pre g post e) :
    ∃ h', h.takeBack e.1 e.2 (h.pxEnd + 1) none h.xStart = some h' ∧
      Chain h'.ram h'.xStart (pre ++ Extents.around g e ++ post) h.pxEnd ∧ Frame (pieces g e ++ pre) h h' := by
  have stopE : e.stop = e.1 + e.2 := rfl
  have stopG : g.stop = g.1 + g.2 := rfl
  have low := joined.low
  have high := joined.high
  have positive := joined.positive g (by simp)
  obtain ⟨fuel, found⟩ := joined.takeBack_eq
  rw [found, takeBack, if_neg (by omega), joined.size, List.append_assoc]
  by_cases first : g.1 = e.1
  · rw [if_pos first]
    by_cases more : g.2 > e.2
    · rw [if_pos more, Extents.around, if_neg (by omega), if_pos (by omega)]
      have nextG : (h.setSize e.stop (g.2 - e.2)).next (some g.1) = h.next (some g.1) := by
        have own := joined.own
        exact next_setSize (.inr (.inl (by omega)))
      refine ⟨_, rfl, ?_⟩
      rw [← stopE, nextG]
      exact joined.takeBack_start first (by omega)
    · rw [if_neg more, Extents.around, if_neg (by omega), if_neg (by omega)]
      exact ⟨_, rfl, unlink joined.chain joined.normal joined.fits,
        frame_linkAfter fun f member => List.mem_append_right _ member⟩
  · have below : g.1 < e.1 := by omega
    rw [if_neg first, Extents.around, if_pos below]
    by_cases final : g.1 + g.2 = e.1 + e.2
    · rw [if_pos final, if_neg (by omega)]
      exact ⟨_, rfl, joined.takeBack_end below final⟩
    · rw [if_neg final, if_pos (by omega), if_pos (by omega)]
      have before := joined.front below
      have nextG : (h.setSize e.stop (g.stop - e.stop)).next (some g.1) = h.next (some g.1) :=
        next_setSize (.inr (.inl (by omega)))
      refine ⟨_, rfl, ?_⟩
      rw [← stopE, ← stopG, nextG]
      exact joined.takeBack_middle below (by omega)

/-! ### Growing a block -/

/-- `memcpy` as the standard describes it: only the destination is written, and where the ranges do not
overlap it receives the source. -/
structure IsMemcpy (memcpy : Mem UInt8 → Nat → Nat → Nat → Mem UInt8) : Prop where
  outside : ∀ m d s n x, x < d ∨ d + n ≤ x → memcpy m d s n x = m x
  copied : ∀ m d s n, d + n ≤ s ∨ s + n ≤ d → (memcpy m d s n).read d n = m.read s n

theorem isMemcpy_copy : IsMemcpy fun m d s n => m.copy d m s n where
  outside m d s n x off := by
    rcases off with below | above
    · exact Mem.write_of_lt _ _ _ _ below
    · exact Mem.write_of_ge _ _ _ _ (by rw [Mem.length_read]; exact above)
  copied m d s n _ := by
    have stored := Mem.read_write_self m d (m.read s n)
    rwa [Mem.length_read] at stored

/-- The payload behind the header of a block. -/
def payload (h : Heap4) (e : Extent) : List UInt8 := h.ram.read (e.1 + xHeapStructSize) (e.2 - xHeapStructSize)

/-- Bytes of a payload are the owner's: the blocks are what they were. -/
theorem Holds.write {m : Mem UInt8} (holds : h.Holds lo free used) (member : e ∈ used)
    (same : ∀ x, x < e.1 + xHeapStructSize ∨ e.stop ≤ x → m x = h.ram x) :
    Holds { h with ram := m } lo free used := by
  have room : ∀ f ∈ used ++ free, e = f ∨ e.Disjoint f := by
    intro f inside
    rcases List.mem_append.mp inside with used' | free'
    · by_cases eq : e = f
      · exact .inl eq
      · exact .inr (holds.distinct.forall member used' eq)
    · exact .inr (holds.apart e member f free')
  have headers : ∀ f ∈ used ++ free, ∀ x, f.1 ≤ x → x < f.1 + xHeapStructSize → m x = h.ram x := by
    intro f inside x low high
    have block : IsBlock lo h.pxEnd f := (List.mem_append.mp inside).elim (holds.usedBlock f) (holds.freeBlock f)
    have length := block.room
    rcases room f inside with rfl | apart
    · exact same x (.inl high)
    · refine same x ?_
      simp only [Extent.Disjoint, Extent.stop] at apart ⊢
      omega
  have last : pxNextFreeBlock m h.pxEnd = pxNextFreeBlock h.ram h.pxEnd ∧
      xBlockSize m h.pxEnd = xBlockSize h.ram h.pxEnd := header_congr fun x low _ => same x (.inr (by
    have := (holds.usedBlock e member).high
    omega))
  exact { holds with
    chain := holds.chain.congr fun f inside x low high => (headers f (by simp [inside]) x low high).symm
    marked := fun f inside => by
      have kept := header_congr (headers f (by simp [inside]))
      obtain ⟨next, size⟩ := holds.marked f inside
      exact ⟨kept.1.trans next, kept.2.trans size⟩
    last := ⟨last.1.trans holds.last.1, last.2.trans holds.last.2⟩ }

/-- A block that was freed is part of a block of the list. -/
theorem joined_release (holds : h.Holds lo free (e :: used)) (holds' : h'.Holds lo (pre ++ g :: post) used)
    (low : g.1 ≤ e.1) (high : e.stop ≤ g.stop) : Joined h' pre g post e := by
  have header : xHeapStructSize = 8 := rfl
  have block := holds.usedBlock e (by simp)
  have blockG := holds'.freeBlock g (by simp)
  have stopE : e.stop = e.1 + e.2 := rfl
  have stopG : g.stop = g.1 + g.2 := rfl
  have d₁ := block.start
  have d₂ := block.length
  have d₃ := blockG.start
  have d₄ := blockG.length
  have own := block.room
  exact ⟨holds'.chain, holds'.normal, IsBlock.fits holds'.freeBlock, holds'.bound32,
    fun f member => Nat.lt_of_lt_of_le holds'.positive (holds'.freeBlock f member).low, low, high,
    fun below => by omega, by omega, fun larger => by omega⟩

/-- The headers that are written are those of the block and of blocks that are free without it. -/
theorem pieces_heads (low : g.1 ≤ e.1) (back : pre ++ Extents.around g e ++ post = free) :
    ∀ f ∈ pieces g e ++ pre, ∃ k ∈ e :: free, f.1 = k.1 := by
  have ofFree : ∀ f ∈ pre ++ Extents.around g e ++ post, ∃ k ∈ e :: free, f.1 = k.1 := by
    intro f member
    rw [back] at member
    exact ⟨f, by simp [member], rfl⟩
  intro f member
  simp only [pieces, List.cons_append, List.mem_cons, List.mem_append] at member
  rcases member with rfl | piece | before
  · by_cases below : f.1 < e.1
    · obtain ⟨k, inside, same⟩ := ofFree (f.1, e.1 - f.1) (by simp [Extents.around, below])
      exact ⟨k, inside, same⟩
    · exact ⟨e, by simp, by omega⟩
  · split at piece
    next larger =>
      obtain rfl := List.mem_singleton.mp piece
      exact ofFree _ (by simp [Extents.around, larger])
    · cases piece
  · exact ofFree f (by simp [before])

/-- The header of the block with its mark, and the counter without the block. -/
def marked (h : Heap4) (e : Extent) : Heap4 :=
  let h' := (h.setSize e.1 (e.2 ||| xBlockAllocatedBit)).setNext (some e.1) 0
  { h' with xFreeBytesRemaining := h'.xFreeBytesRemaining - e.2 }

theorem keepBlock_eq (taken : h.takeBack e.1 e.2 (h.pxEnd + 1) none h.xStart = some h') :
    h.keepBlock e.1 e.2 = some (h'.marked e) := by
  unfold keepBlock
  rw [taken, Option.map_some, marked]

theorem marked_apply {x : Nat} (off : x < e.1 ∨ e.1 + xHeapStructSize ≤ x) : (h.marked e).ram x = h.ram x :=
  (setNext_apply off).trans (setSize_apply off)

/-- With the block marked again the heap holds what it held. -/
theorem marked_holds (holds : h.Holds lo free (e :: used)) (chain : Chain h'.ram h'.xStart free h.pxEnd)
    (pxEnd : h'.pxEnd = h.pxEnd) (count : (h'.marked e).xFreeBytesRemaining = h.xFreeBytesRemaining)
    (least : h'.xMinimumEverFreeBytesRemaining = h.xMinimumEverFreeBytesRemaining)
    (ram : ∀ x, OffHeaders (e :: free) x → (h'.marked e).ram x = h.ram x) :
    (h'.marked e).Holds lo free (e :: used) := by
  have block := holds.usedBlock e (by simp)
  have fits := holds.fits_freed
  have small : e.2 < xBlockAllocatedBit := by
    have high := block.high
    have bound := holds.bound
    simp only [Extent.stop] at high
    omega
  have pxEnd' : (h'.marked e).pxEnd = h.pxEnd := pxEnd
  exact
    { holds with
      order := pxEnd' ▸ holds.order
      bound := pxEnd' ▸ holds.bound
      chain := by
        rw [pxEnd']
        refine chain.congr fun f member x low high => (marked_apply ?_).symm
        have side := holds.apart e (by simp) f member
        have length := (holds.freeBlock f member).room
        have own := block.room
        simp only [Extent.Disjoint, Extent.stop] at side
        omega
      freeBlock := pxEnd' ▸ holds.freeBlock
      usedBlock := pxEnd' ▸ holds.usedBlock
      marked := by
        refine List.forall_mem_cons.mpr ⟨header_setBlock h' (allocated_lt small), fun f member => ?_⟩
        have kept := header_kept ram (holds.disjoint_freed f member) (fun k inside => (fits k inside).1)
          (Nat.le_trans (by decide) (holds.usedBlock f (by simp [member])).room)
        obtain ⟨next, size⟩ := holds.marked f (by simp [member])
        exact ⟨kept.1.trans next, kept.2.trans size⟩
      covered := pxEnd' ▸ holds.covered
      count := count.trans holds.count
      least := by
        rw [count]
        exact Nat.le_trans (Nat.le_of_eq least) holds.least
      last := by
        have kept := end_kept ram fits
        rw [pxEnd']
        exact ⟨kept.1.trans holds.last.1, kept.2.trans holds.last.2⟩ }

/-- Where no block is large enough, the heap is what it was. -/
theorem keepBlock_spec (holds : h.Holds lo free (e :: used)) (released : h.release e.1 = some h') :
    ∃ h'', h'.keepBlock e.1 e.2 = some h'' ∧ h''.pxEnd = h.pxEnd ∧ h''.Holds lo free (e :: used) ∧
      (∀ x, OffHeaders (e :: free) x → h''.ram x = h.ram x) ∧
      h''.xFreeBytesRemaining = h.xFreeBytesRemaining ∧
      h''.xMinimumEverFreeBytesRemaining = h.xMinimumEverFreeBytesRemaining := by
  have block := holds.usedBlock e (by simp)
  have positive : 0 < e.2 := Nat.lt_of_lt_of_le (by decide) block.room
  obtain ⟨h₁, call, pxEnd₁, holds₁, frame₁, least₁⟩ := release_spec holds
  obtain rfl : h₁ = h' := Option.some.inj (call.symm.trans released)
  have count₁ : h₁.xFreeBytesRemaining = e.2 + h.xFreeBytesRemaining := by
    rw [holds₁.count, Extents.total_insert, holds.count]
  obtain ⟨pre, g, post, inserted, low, high⟩ : Extents.Holding e (Extents.insert e free) := Extents.holding_insert
  have back := Extents.around_insert holds.normal positive (holds.apart e (by simp)) inserted low high
  rw [inserted] at holds₁
  obtain ⟨h₂, taken₂, chain₂, frame₂⟩ := takeBack_spec (joined_release holds holds₁ low high)
  rw [back, pxEnd₁] at chain₂
  have pxEnd₂ : h₂.pxEnd = h.pxEnd := frame₂.pxEnd.trans pxEnd₁
  have least₂ := frame₂.least.trans least₁
  have ram : ∀ x, OffHeaders (e :: free) x → (h₂.marked e).ram x = h.ram x := fun x off =>
    (marked_apply (off e (by simp))).trans (((frame₂.mono (pieces_heads low back)).ram x off).trans (frame₁ x off))
  have count : (h₂.marked e).xFreeBytesRemaining = h.xFreeBytesRemaining := by
    change h₂.xFreeBytesRemaining - e.2 = _
    rw [frame₂.free, count₁, Nat.add_sub_cancel_left]
  exact ⟨h₂.marked e, keepBlock_eq taken₂, pxEnd₂, marked_holds holds chain₂ pxEnd₂ count least₂ ram, ram, count, least₂⟩

/-- The old payload is still there when it is copied: the block grows where it is, or neither the new
payload nor the header of what is left of the new block meets the old one. -/
def Survives (e f : Extent) (want : Nat) : Prop :=
  f.1 = e.1 ∨
    (f.1 + e.2 ≤ e.1 + xHeapStructSize ∨ e.stop ≤ f.1 + xHeapStructSize) ∧
      ∀ r ∈ rest f want, r.1 ≤ e.1 ∨ e.stop ≤ r.1

instance (e f : Extent) (want : Nat) : Decidable (Survives e f want) := inferInstanceAs (Decidable (_ ∨ _))

theorem survives_of_disjoint (apart : f.Disjoint e) (large : want ≤ f.2) (grows : e.2 ≤ f.2) : Survives e f want := by
  have header : xHeapStructSize = 8 := rfl
  refine .inr ⟨?_, fun r member => ?_⟩
  · simp only [Extent.Disjoint, Extent.stop] at apart ⊢
    omega
  · have side := (parts_disjoint apart.symm large).2 r member
    unfold rest at member
    split at member
    · obtain rfl := List.mem_singleton.mp member
      simp only [Extent.Disjoint, Extent.stop] at side ⊢
      omega
    · cases member

/-- Off the headers of the block, of the free ones and of what is left, nothing is written. -/
theorem offHeaders_cut {x : Nat} (inserted : Extents.insert e free = pre ++ f :: post) (off : OffHeaders (e :: free) x)
    (offRest : OffHeaders (rest f want) x) : OffHeaders (rest f want ++ pre ++ f :: post) x := by
  intro k member
  rw [List.append_assoc, ← inserted] at member
  rcases List.mem_append.mp member with new | old
  · exact offRest k new
  · rcases Extents.head_le_of_mem_insert old with same | ⟨g, inside, same⟩
    · exact same ▸ off e (by simp)
    · exact same ▸ off g (by simp [inside])

/-- What is left of a block that overlaps no used one has no header in used blocks. -/
theorem offHeaders_rest (holds : h.Holds lo (pre ++ f :: post) used) (large : want ≤ f.2) (aligned : 8 ∣ want)
    (room : 2 * xHeapStructSize ≤ want) (member : g ∈ used) {x : Nat} (low : g.1 ≤ x) (high : x < g.stop) :
    OffHeaders (rest f want) x := fun r inside =>
  offHeaders_of_disjoint (cut_disjoint holds large g member)
    (fun k cut => (IsBlock.fits (cut_isBlock holds large aligned room) k cut).1) low high r (by simp [inside])

/-- A block is freed and another one is taken, or there is none that is large enough. Off the header of what is
left, the payload of the block is still there; the other used blocks keep their bytes. -/
theorem releaseMalloc_spec (area : HeapArea) (holds : h.Holds lo free (e :: used)) {n : Nat} (positive : 0 < n)
    (word : n < 2 ^ 32) :
    ∃ h₁, h.release e.1 = some h₁ ∧
      ((∀ f ∈ Extents.insert e free, f.2 < blockSizeFor n) ∧ h₁.mallocWithoutLock area n = some (h₁, 0) ∨
        ∃ pre f post h₂, Extents.insert e free = pre ++ f :: post ∧ (∀ g ∈ pre, g.2 < blockSizeFor n) ∧
          blockSizeFor n ≤ f.2 ∧ h₁.mallocWithoutLock area n = some (h₂, f.1 + xHeapStructSize) ∧
          h₂.pxEnd = h.pxEnd ∧
          h₂.Holds lo ((rest f (blockSizeFor n)).foldr Extents.insert (pre ++ post)) (taken f (blockSizeFor n) :: used) ∧
          (∀ g ∈ used, g.Disjoint f ∧ ∀ x, g.1 ≤ x → x < g.stop → h₂.ram x = h.ram x) ∧
          ∀ x, e.1 + xHeapStructSize ≤ x → x < e.stop → OffHeaders (rest f (blockSizeFor n)) x →
            h₂.ram x = h.ram x) := by
  obtain ⟨aligned, -, room⟩ := blockSizeFor_spec positive
  obtain ⟨h₁, call₁, pxEnd₁, holds₁, ram₁, -⟩ := release_spec holds
  refine ⟨h₁, call₁, ?_⟩
  rcases mallocWithoutLock_spec area holds₁ positive word with
    ⟨none, call₂⟩ | ⟨pre, f, post, h₂, split, before, large, call₂, pxEnd₂, holds₂, ram₂, -⟩
  · exact .inl ⟨none, call₂⟩
  · rw [split] at holds₁
    have ram : ∀ x, OffHeaders (e :: free) x → OffHeaders (rest f (blockSizeFor n)) x → h₂.ram x = h.ram x :=
      fun x off offRest => (ram₂ x (offHeaders_cut split off offRest)).trans (ram₁ x off)
    have room' : ∀ k ∈ e :: free, xHeapStructSize ≤ k.2 := fun k member => (holds.fits_freed k member).1
    refine .inr ⟨pre, f, post, h₂, split, before, large, call₂, pxEnd₂.trans pxEnd₁, holds₂, fun g member => ?_,
      fun x low high offRest => ram x (List.forall_mem_cons.mpr ⟨.inr low, ?_⟩) offRest⟩
    · refine ⟨holds₁.apart g member f (by simp), fun x low high => ram x ?_ ?_⟩
      · exact offHeaders_of_disjoint (holds.disjoint_freed g member) room' low high
      · exact offHeaders_rest holds₁ large aligned room member low high
    · exact offHeaders_of_disjoint (holds.apart e (by simp)) (fun k inside => room' k (by simp [inside]))
        (Nat.le_trans (Nat.le_add_right _ _) low) high

/-- The payload of a block that grows where it is. -/
theorem payload_grown (same : f.1 = e.1) (grows : e.2 ≤ want)
    (ram : ∀ x, e.1 + xHeapStructSize ≤ x → x < e.stop → OffHeaders (rest f want) x → h'.ram x = h.ram x) :
    h'.ram.read (f.1 + xHeapStructSize) (e.2 - xHeapStructSize) = h.payload e := by
  have stopE : e.stop = e.1 + e.2 := rfl
  rw [same]
  refine Mem.read_congr _ _ _ _ fun x low high => ram x low (by omega) fun r member => .inl ?_
  unfold rest at member
  split at member
  · obtain rfl := List.mem_singleton.mp member
    dsimp only
    omega
  · cases member

/-- The payload of a block that is copied. -/
theorem payload_moved {memcpy : Mem UInt8 → Nat → Nat → Nat → Mem UInt8} (standard : IsMemcpy memcpy)
    (room : xHeapStructSize ≤ e.2) (ne : f.1 ≠ e.1) (survives : Survives e f want)
    (ram : ∀ x, e.1 + xHeapStructSize ≤ x → x < e.stop → OffHeaders (rest f want) x → h'.ram x = h.ram x) :
    (memcpy h'.ram (f.1 + xHeapStructSize) (e.1 + xHeapStructSize) (e.2 - xHeapStructSize)).read
      (f.1 + xHeapStructSize) (e.2 - xHeapStructSize) = h.payload e := by
  have stopE : e.stop = e.1 + e.2 := rfl
  rcases survives with same | ⟨ranges, offRest⟩
  · exact absurd same ne
  · refine (standard.copied _ _ _ _ (by omega)).trans ?_
    refine Mem.read_congr _ _ _ _ fun x low high => ram x low (by omega) fun r member => ?_
    have side := offRest r member
    omega

/-- Copying writes only into the payload of the new block. -/
theorem memcpy_apply {memcpy : Mem UInt8 → Nat → Nat → Nat → Mem UInt8} (standard : IsMemcpy memcpy)
    (large : want ≤ f.2) (grows : e.2 ≤ want) (room : xHeapStructSize ≤ e.2) {m : Mem UInt8} {s x : Nat}
    (off : x < f.1 + xHeapStructSize ∨ (taken f want).stop ≤ x) :
    memcpy m (f.1 + xHeapStructSize) s (e.2 - xHeapStructSize) x = m x := by
  have enough : want ≤ (taken f want).2 := by
    unfold taken
    split
    · exact Nat.le_refl _
    · exact large
  simp only [Extent.stop, taken_fst] at off
  exact standard.outside _ _ _ _ _ (by omega)

/-- How a call with a used block ends. -/
theorem pvPortRealloc_spec (area : HeapArea) {memcpy : Mem UInt8 → Nat → Nat → Nat → Mem UInt8}
    (standard : IsMemcpy memcpy) (holds : h.Holds lo free (e :: used)) {n : Nat} (word : n < 2 ^ 32) :
    n + xHeapStructSize ≤ e.2 ∧
        h.pvPortRealloc area memcpy (e.1 + xHeapStructSize) n = some (h, e.1 + xHeapStructSize) ∨
      e.2 < n + xHeapStructSize ∧
        ((∀ f ∈ Extents.insert e free, f.2 < blockSizeFor n) ∧
            (∃ h', h.pvPortRealloc area memcpy (e.1 + xHeapStructSize) n = some (h', 0) ∧ h'.pxEnd = h.pxEnd ∧
              h'.Holds lo free (e :: used) ∧ (∀ x, OffHeaders (e :: free) x → h'.ram x = h.ram x) ∧
              h'.xFreeBytesRemaining = h.xFreeBytesRemaining ∧
              h'.xMinimumEverFreeBytesRemaining = h.xMinimumEverFreeBytesRemaining) ∨
          ∃ pre f post h', Extents.insert e free = pre ++ f :: post ∧ (∀ g ∈ pre, g.2 < blockSizeFor n) ∧
            blockSizeFor n ≤ f.2 ∧
            h.pvPortRealloc area memcpy (e.1 + xHeapStructSize) n = some (h', f.1 + xHeapStructSize) ∧
            h'.pxEnd = h.pxEnd ∧
            h'.Holds lo ((rest f (blockSizeFor n)).foldr Extents.insert (pre ++ post))
              (taken f (blockSizeFor n) :: used) ∧
            (∀ g ∈ used, ∀ x, g.1 ≤ x → x < g.stop → h'.ram x = h.ram x) ∧
            (Survives e f (blockSizeFor n) →
              h'.ram.read (f.1 + xHeapStructSize) (e.2 - xHeapStructSize) = h.payload e)) := by
  have header : xHeapStructSize = 8 := rfl
  have block := holds.usedBlock e (by simp)
  have room := block.room
  have small : e.2 < xBlockAllocatedBit := by
    have := block.high
    have := holds.bound
    simp only [Extent.stop] at *
    omega
  have presize : cleared (h.size e.1) = e.2 := by rw [(holds.marked e (by simp)).2, cleared_allocated small]
  unfold pvPortRealloc
  rw [if_neg (by omega), Nat.add_sub_cancel]
  dsimp only
  rw [presize]
  by_cases enough : e.2 - xHeapStructSize ≥ n
  · rw [if_pos enough]
    exact .inl ⟨by omega, rfl⟩
  rw [if_neg enough]
  refine .inr ⟨by omega, ?_⟩
  obtain ⟨-, wide, -⟩ := blockSizeFor_spec (show 0 < n by omega)
  obtain ⟨h₁, call₁, none | found⟩ := releaseMalloc_spec area holds (show 0 < n by omega) word
  · -- none is large enough
    obtain ⟨none, call₂⟩ := none
    obtain ⟨h₃, call₃, rest⟩ := keepBlock_spec holds call₁
    rw [call₁, Option.bind_some, call₂, Option.bind_some]
    dsimp only
    rw [if_neg (by simp), call₃, Option.map_some]
    exact .inl ⟨none, h₃, rfl, rest⟩
  · obtain ⟨pre, f, post, h₂, split, before, large, call₂, pxEnd₂, holds₂, others, own⟩ := found
    rw [call₁, Option.bind_some, call₂, Option.bind_some]
    dsimp only
    rw [if_pos (by omega)]
    by_cases same : f.1 = e.1
    · -- the block grows where it is
      rw [if_neg (by rw [same]; simp)]
      exact .inr ⟨pre, f, post, h₂, split, before, large, rfl, pxEnd₂, holds₂, fun g member => (others g member).2,
        fun _ => payload_grown same (by omega) own⟩
    · -- the payload is copied
      rw [if_pos (by omega)]
      refine .inr ⟨pre, f, post, _, split, before, large, rfl, pxEnd₂, ?_, fun g member x low high => ?_,
        fun survives => payload_moved standard (by omega) same survives own⟩
      · refine Holds.write (e := taken f (blockSizeFor n)) holds₂ (by simp) fun x off => ?_
        exact memcpy_apply standard large (by omega) (by omega) (by rwa [taken_fst] at off)
      · obtain ⟨apart, kept⟩ := others g member
        have side := (parts_disjoint apart large).1
        refine (memcpy_apply standard large (by omega) (by omega) ?_).trans (kept x low high)
        simp only [Extent.Disjoint, Extent.stop, taken_fst] at side high ⊢
        omega

end Heap4

end Bk7251.Kernel
