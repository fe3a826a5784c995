import Bk7251.Kernel.HeapRealloc
import Bk7251.Lib.Guarded
import Mathlib.Order.Interval.Set.Basic

/-!
# The heap over whole runs

Applications allocate, release and grow blocks in any order, and write into what they hold. At every
point the heap is cut into the blocks they hold and the maximal free runs between them, what they hold
does not overlap and keeps what they wrote, and the counters are exact.
-/
namespace Bk7251.Kernel

open Lib

/-- What an application does; a pointer is one it was given. -/
inductive HeapCall
  | malloc (xWantedSize : UInt32)
  | free (pv : Nat)
  | realloc (pv : Nat) (xWantedSize : UInt32)
  | store (pv offset : Nat) (bytes : List UInt8)

/-- The heap, and the pointers that are held with what their holders wrote there. -/
structure HeapSession where
  heap : Heap4
  held : List (Nat × List UInt8)

/-- The block behind a pointer. -/
def Heap4.block (h : Heap4) (pv : Nat) : Extent := (pv - xHeapStructSize, cleared (h.size (pv - xHeapStructSize)))

namespace HeapSession

/-- The static variables before the first call. -/
def start (ram : Mem UInt8) : HeapSession := ⟨⟨ram, 0, 0, 0, 0⟩, []⟩

/-- Without the pointer. -/
def drop (pv : Nat) (held : List (Nat × List UInt8)) : List (Nat × List UInt8) := held.eraseP (·.1 = pv)

/-- The answer of a call: a new pointer, with what is there. -/
def receive (heap : Heap4) (pv n : Nat) (held : List (Nat × List UInt8)) : HeapSession :=
  ⟨heap, (pv, heap.ram.read pv n) :: held⟩

/-- The step of a call; without a result where a loop of the heap does not end. -/
def step (area : HeapArea) (memcpy : Mem UInt8 → Nat → Nat → Nat → Mem UInt8) (s : HeapSession) :
    HeapCall → Option HeapSession
  | .malloc n => (s.heap.pvPortMalloc area n.toNat).map fun (heap, pv) =>
      if pv = 0 then ⟨heap, s.held⟩ else receive heap pv n.toNat s.held
  | .free pv => (s.heap.vPortFree pv).map fun heap => ⟨heap, drop pv s.held⟩
  | .realloc pv n => (s.heap.pvPortRealloc area memcpy pv n.toNat).map fun (heap, pv') =>
      if pv' = 0 then ⟨heap, s.held⟩ else receive heap pv' n.toNat (drop pv s.held)
  | .store pv offset bytes => some
      ⟨{ s.heap with ram := s.heap.ram.write (pv + offset) bytes },
        s.held.map fun c => if c.1 = pv then (pv, splice c.2 offset bytes) else c⟩

/-- Pointers are used while they are held, and within the size that was asked for. -/
def Legal (s : HeapSession) : HeapCall → Prop
  | .malloc _ => True
  | .free pv => pv = 0 ∨ pv ∈ s.held.map (·.1)
  | .realloc pv _ => pv = 0 ∨ pv ∈ s.held.map (·.1)
  | .store pv offset bytes =>
    pv ∈ s.held.map (·.1) ∧ ∀ c ∈ s.held, c.1 = pv → offset + bytes.length ≤ c.2.length

instance : (s : HeapSession) → (call : HeapCall) → Decidable (s.Legal call)
  | _, .malloc _ => isTrue trivial
  | _, .free _ => inferInstanceAs (Decidable (_ ∨ _))
  | _, .realloc _ _ => inferInstanceAs (Decidable (_ ∨ _))
  | _, .store _ _ _ => inferInstanceAs (Decidable (_ ∧ _))

/-- A used block holds what its holder wrote behind the header. -/
def Serves (h : Heap4) (e : Extent) (c : Nat × List UInt8) : Prop :=
  c.1 = e.1 + xHeapStructSize ∧ c.2.length + xHeapStructSize ≤ e.2 ∧ h.ram.read c.1 c.2.length = c.2

/-- The state of a heap that is in use. -/
structure Sound (area : HeapArea) (s : HeapSession) (free used : List Extent) : Prop where
  holds : s.heap.Holds (Heap4.alignedUp area.ucHeap) free used
  serves : List.Forall₂ (Serves s.heap) used s.held
  inside : Heap4.alignedUp area.ucHeap < s.heap.pxEnd ∧ s.heap.pxEnd ≤ area.ucHeap + area.xTotalHeapSize

/-- Unused so far, or sound. -/
def Ok (area : HeapArea) (s : HeapSession) : Prop :=
  s.heap.pxEnd = 0 ∧ s.held = [] ∨ ∃ free used, s.Sound area free used

variable {area : HeapArea} {s : HeapSession} {free used : List Extent} {e : Extent} {h : Heap4}
  {held : List (Nat × List UInt8)}

/-! ### Blocks and their holders -/

theorem Serves.congr {h' : Heap4} {c : Nat × List UInt8} (serves : Serves h e c)
    (same : ∀ x, e.1 + xHeapStructSize ≤ x → x < e.stop → h'.ram x = h.ram x) : Serves h' e c := by
  obtain ⟨start, fits, bytes⟩ := serves
  refine ⟨start, fits, Eq.trans (Mem.read_congr _ _ _ _ fun x low high => ?_) bytes⟩
  refine same x (by omega) ?_
  simp only [Extent.stop]
  omega

theorem serves_congr {h' : Heap4} (serves : List.Forall₂ (Serves h) used held)
    (same : ∀ e ∈ used, ∀ x, e.1 + xHeapStructSize ≤ x → x < e.stop → h'.ram x = h.ram x) :
    List.Forall₂ (Serves h') used held := by
  induction serves with
  | nil => exact .nil
  | cons one _ ih =>
    exact .cons (one.congr (same _ (by simp))) (ih fun e member => same e (by simp [member]))

/-- A pointer that is held belongs to a used block; the others keep their holders. -/
theorem serves_find (serves : List.Forall₂ (Serves h) used held) {pv : Nat} {bytes : List UInt8}
    (member : (pv, bytes) ∈ held) :
    ∃ e others, used.Perm (e :: others) ∧ pv = e.1 + xHeapStructSize ∧
      List.Forall₂ (Serves h) others (drop pv held) ∧ e ∈ used := by
  induction serves with
  | nil => cases member
  | @cons e c used held one rest ih =>
    by_cases here : c.1 = pv
    · exact ⟨e, used, List.Perm.refl _, here ▸ one.1, by simpa [drop, here] using rest, by simp⟩
    · have later : (pv, bytes) ∈ held := by
        rcases List.mem_cons.mp member with rfl | later
        · exact absurd rfl here
        · exact later
      obtain ⟨f, others, perm, start, serves, inside⟩ := ih later
      refine ⟨f, e :: others, (perm.cons e).trans (List.Perm.swap f e others), start, ?_, by simp [inside]⟩
      simpa [drop, List.eraseP_cons, here] using List.Forall₂.cons one serves

theorem serves_owner (serves : List.Forall₂ (Serves h) used held) {c : Nat × List UInt8} (member : c ∈ held) :
    ∃ e ∈ used, Serves h e c := by
  induction serves with
  | nil => cases member
  | cons one _ ih =>
    rcases List.mem_cons.mp member with rfl | later
    · exact ⟨_, by simp, one⟩
    · obtain ⟨e, inside, serving⟩ := ih later
      exact ⟨e, by simp [inside], serving⟩

theorem serves_pairwise (serves : List.Forall₂ (Serves h) used held) (distinct : used.Pairwise Extent.Disjoint) :
    held.Pairwise fun c d => c.1 + c.2.length < d.1 ∨ d.1 + d.2.length < c.1 := by
  have header : xHeapStructSize = 8 := rfl
  induction serves with
  | nil => exact .nil
  | @cons e c used held one rest ih =>
    obtain ⟨apart, later⟩ := List.pairwise_cons.mp distinct
    refine .cons (fun d member => ?_) (ih later)
    obtain ⟨f, inside, start, fits, -⟩ := serves_owner rest member
    have side := apart f inside
    obtain ⟨first, length, -⟩ := one
    simp only [Extent.Disjoint, Extent.stop] at side
    omega

theorem receive_serves (blocks : List.Forall₂ (Serves h) used held) {n : Nat} (fits : n + xHeapStructSize ≤ e.2) :
    List.Forall₂ (Serves h) (e :: used) (receive h (e.1 + xHeapStructSize) n held).held := by
  refine .cons ⟨rfl, ?_, ?_⟩ blocks
  · rwa [Mem.length_read]
  · rw [Mem.length_read]

/-- Writing part of a range is splicing its contents. -/
theorem read_write_splice (m : Mem UInt8) (a offset : Nat) (bytes : List UInt8) {n : Nat}
    (fits : offset + bytes.length ≤ n) :
    (m.write (a + offset) bytes).read a n = splice (m.read a n) offset bytes := by
  obtain ⟨k, rfl⟩ := Nat.exists_eq_add_of_le fits
  have stored := Mem.read_write_self m (a + offset) bytes
  have front := Mem.read_write_disjoint m a offset (a + offset) bytes (.inl (Nat.le_refl _))
  have back := Mem.read_write_disjoint m (a + (offset + bytes.length)) k (a + offset) bytes (.inr (by omega))
  rw [splice, Mem.take_read, Mem.drop_read, Nat.min_eq_right (by omega), Nat.add_sub_cancel_left, Mem.read_add,
    Mem.read_add, front, stored, back]

theorem forall₂_imp {α β : Type*} {R S : α → β → Prop} {xs : List α} {ys : List β} (all : List.Forall₂ R xs ys)
    (imp : ∀ x ∈ xs, ∀ y ∈ ys, R x y → S x y) : List.Forall₂ S xs ys := by
  induction all with
  | nil => exact .nil
  | cons one _ ih =>
    exact .cons (imp _ (by simp) _ (by simp) one) (ih fun x mx y my => imp x (by simp [mx]) y (by simp [my]))

/-- The owner of one block writes; the holders of the others find what they wrote. -/
theorem serves_store {pv offset : Nat} {bytes : List UInt8} (distinct : used.Pairwise Extent.Disjoint)
    (serves : List.Forall₂ (Serves h) used held) (member : e ∈ used) (start : pv = e.1 + xHeapStructSize)
    (inside : pv + offset + bytes.length ≤ e.stop) (room : ∀ e ∈ used, 2 * xHeapStructSize ≤ e.2)
    (fits : ∀ old, (pv, old) ∈ held → offset + bytes.length ≤ old.length) :
    List.Forall₂ (Serves { h with ram := h.ram.write (pv + offset) bytes }) used
      (held.map fun c => if c.1 = pv then (pv, splice c.2 offset bytes) else c) := by
  have header : xHeapStructSize = 8 := rfl
  refine List.forall₂_map_right_iff.mpr (forall₂_imp serves fun f used' c held' serving => ?_)
  by_cases here : c.1 = pv
  · rw [if_pos here]
    obtain ⟨first, length, read⟩ := serving
    have within := fits c.2 (by rw [← here]; exact held')
    refine ⟨here.symm.trans first, ?_, ?_⟩
    · rwa [length_splice within]
    · rw [length_splice within, read_write_splice _ _ _ _ within, ← here, read]
  · rw [if_neg here]
    refine serving.congr fun x low high => ?_
    have ne : e ≠ f := by
      rintro rfl
      exact here (serving.1.trans start.symm)
    have apart := distinct.forall member used' ne
    have large := room f used'
    simp only [Extent.Disjoint, Extent.stop] at apart high inside
    by_cases below : x < pv + offset
    · exact Mem.write_of_lt _ _ _ _ below
    · exact Mem.write_of_ge _ _ _ _ (by omega)

/-! ### One call -/

theorem taken_fits {f : Extent} {n want : Nat} (positive : 0 < want) (enough : n ≤ want)
    (large : Heap4.blockSizeFor want ≤ f.2) : n + xHeapStructSize ≤ (Heap4.taken f (Heap4.blockSizeFor want)).2 := by
  obtain ⟨-, wide, -⟩ := Heap4.blockSizeFor_spec positive
  unfold Heap4.taken
  split
  · dsimp only
    omega
  · omega

/-- An allocation in a heap that is in use. -/
theorem malloc_keeps (sound : s.Sound area free used) {n want : Nat} (word : want < 2 ^ 32) (positive : 0 < want)
    (enough : n ≤ want) :
    ∃ h pv, s.heap.mallocWithoutLock area want = some (h, pv) ∧
      (pv = 0 ∧ h = s.heap ∨ pv ≠ 0 ∧ ∃ free' used', (receive h pv n s.held).Sound area free' used') := by
  have header : xHeapStructSize = 8 := rfl
  obtain ⟨holds, serves, inside⟩ := sound
  rcases Heap4.mallocWithoutLock_spec area holds positive word with
    ⟨-, call⟩ | ⟨pre, f, post, h, rfl, -, large, call, pxEnd, holds', ram, -⟩
  · exact ⟨_, _, call, .inl ⟨rfl, rfl⟩⟩
  · refine ⟨_, _, call, .inr ⟨by omega, _, _, holds', ?_, pxEnd ▸ inside⟩⟩
    obtain ⟨aligned, -, minimum⟩ := Heap4.blockSizeFor_spec positive
    have block := holds.freeBlock f (by simp)
    have ofFree : ∀ k ∈ pre ++ f :: post, xHeapStructSize ≤ k.2 := fun k mk =>
      (Heap4.IsBlock.fits holds.freeBlock k mk).1
    have ofRest : ∀ r ∈ Heap4.rest f (Heap4.blockSizeFor want), xHeapStructSize ≤ r.2 := fun r mr =>
      Nat.le_trans (by decide) ((Heap4.parts_isBlock block large aligned minimum).2 r mr).room
    have blocks : List.Forall₂ (Serves h) used s.held := by
      refine serves_congr serves fun e member x low high => ram x ?_
      have above : e.1 ≤ x := Nat.le_trans (Nat.le_add_right _ _) low
      have apart := holds.apart e member
      refine Heap4.offHeaders_of_disjoint (e := e) (fun g at_g => ?_) (fun g at_g => ?_) above high
      · rcases List.mem_append.mp (List.append_assoc .. ▸ at_g) with r | old
        · exact (Heap4.parts_disjoint (apart f (by simp)) large).2 g r
        · exact apart g old
      · rcases List.mem_append.mp (List.append_assoc .. ▸ at_g) with r | old
        · exact ofRest g r
        · exact ofFree g old
    have given := receive_serves (e := Heap4.taken f (Heap4.blockSizeFor want)) blocks (taken_fits positive enough large)
    rwa [Heap4.taken_fst] at given

/-- The payloads of used blocks lie off the headers of the free ones and off their own. -/
theorem payload_offHeaders {lo : Nat} (holds : h.Holds lo free (e :: used)) {f : Extent} (member : f ∈ e :: used)
    {x : Nat} (low : f.1 + xHeapStructSize ≤ x) (high : x < f.stop) : OffHeaders (e :: free) x := by
  have above : f.1 ≤ x := Nat.le_trans (Nat.le_add_right _ _) low
  have both := List.pairwise_cons.mp holds.distinct
  have offFree : OffHeaders free x := Heap4.offHeaders_of_disjoint (e := f) (holds.apart f member)
    (fun k inside => (Heap4.IsBlock.fits holds.freeBlock k inside).1) above high
  refine List.forall_mem_cons.mpr ⟨?_, offFree⟩
  rcases List.mem_cons.mp member with rfl | other
  · exact .inr low
  · have room : ∀ k ∈ [e], xHeapStructSize ≤ k.2 := by
      simpa using (Heap4.IsBlock.fits holds.usedBlock e (by simp)).1
    have apart : ∀ k ∈ [e], f.Disjoint k := by simpa using (both.1 f other).symm
    exact Heap4.offHeaders_of_disjoint apart room above high e (by simp)

/-- Only headers have been written since. -/
theorem Sound.restored (sound : s.Sound area free used) {others : List Extent} (perm : used.Perm (e :: others))
    (pxEnd : h.pxEnd = s.heap.pxEnd) (holds : h.Holds (Heap4.alignedUp area.ucHeap) free (e :: others))
    (ram : ∀ x, OffHeaders (e :: free) x → h.ram x = s.heap.ram x) : Sound area ⟨h, s.held⟩ free used := by
  refine ⟨holds.perm perm.symm, serves_congr sound.serves fun f own x low high => ram x ?_, pxEnd ▸ sound.inside⟩
  exact payload_offHeaders holds (perm.mem_iff.mp own) low high

theorem release_keeps (sound : s.Sound area free used) {pv : Nat} {bytes : List UInt8}
    (member : (pv, bytes) ∈ s.held) :
    ∃ h, s.heap.vPortFree pv = some h ∧ ∃ free' used', Sound area ⟨h, drop pv s.held⟩ free' used' := by
  obtain ⟨holds, serves, inside⟩ := sound
  obtain ⟨e, others, perm, rfl, rest, -⟩ := serves_find serves member
  have holds' := holds.perm perm
  obtain ⟨h, call, pxEnd, after, ram, -⟩ := Heap4.release_spec holds'
  refine ⟨h, (Heap4.vPortFree_eq holds').trans call, _, others, after, ?_, pxEnd ▸ inside⟩
  exact serves_congr rest fun f other x low high =>
    ram x (payload_offHeaders holds' (List.mem_cons_of_mem _ other) low high)

/-- A block that is given back and taken again, possibly elsewhere. -/
theorem realloc_keeps (sound : s.Sound area free used) {memcpy : Mem UInt8 → Nat → Nat → Nat → Mem UInt8}
    (standard : Heap4.IsMemcpy memcpy) {n pv : Nat} (word : n < 2 ^ 32) {bytes : List UInt8}
    (member : (pv, bytes) ∈ s.held) :
    ∃ h pv', s.heap.pvPortRealloc area memcpy pv n = some (h, pv') ∧
      (pv' = 0 ∧ (∃ free' used', Sound area ⟨h, s.held⟩ free' used') ∨
        pv' ≠ 0 ∧ ∃ free' used', (receive h pv' n (drop pv s.held)).Sound area free' used') := by
  have header : xHeapStructSize = 8 := rfl
  obtain ⟨holds, serves, inside⟩ := sound
  obtain ⟨e, others, perm, rfl, rest, -⟩ := serves_find serves member
  have holds' := holds.perm perm
  rcases Heap4.pvPortRealloc_spec area standard holds' word with
    ⟨fits, call⟩ | ⟨short, ⟨-, h, call, pxEnd, after, ram, -⟩ | ⟨pre, f, post, h, -, -, large, call, pxEnd, after, ram, -⟩⟩
  · exact ⟨_, _, call, .inr ⟨by omega, free, e :: others, holds', receive_serves rest fits, inside⟩⟩
  · -- nothing was found, and the block is taken back
    exact ⟨_, _, call, .inl ⟨rfl, free, used, Sound.restored ⟨holds, serves, inside⟩ perm pxEnd after ram⟩⟩
  · have room := (holds'.usedBlock e (by simp)).room
    have kept : List.Forall₂ (Serves h) others (drop (e.1 + xHeapStructSize) s.held) :=
      serves_congr rest fun g other x low => ram g other x (Nat.le_trans (Nat.le_add_right _ _) low)
    have given := receive_serves (e := Heap4.taken f (Heap4.blockSizeFor n)) kept
      (taken_fits (by omega) (Nat.le_refl n) large)
    rw [Heap4.taken_fst] at given
    exact ⟨_, _, call, .inr ⟨by omega, _, _, after, given, pxEnd ▸ inside⟩⟩

theorem store_keeps (sound : s.Sound area free used) {pv offset : Nat} {bytes old : List UInt8}
    (member : (pv, old) ∈ s.held) (fits : ∀ old, (pv, old) ∈ s.held → offset + bytes.length ≤ old.length) :
    Sound area ⟨{ s.heap with ram := s.heap.ram.write (pv + offset) bytes },
      s.held.map fun c => if c.1 = pv then (pv, splice c.2 offset bytes) else c⟩ free used := by
  have header : xHeapStructSize = 8 := rfl
  obtain ⟨holds, serves, inside⟩ := sound
  obtain ⟨e, used', ⟨start, length, -⟩⟩ := serves_owner serves member
  have short := fits old member
  simp only at start length
  have within : pv + offset + bytes.length ≤ e.stop := by
    simp only [Extent.stop]
    omega
  refine ⟨Heap4.Holds.write holds used' fun x off => ?_, ?_, inside⟩
  · rcases off with below | above
    · exact Mem.write_of_lt _ _ _ _ (by omega)
    · exact Mem.write_of_ge _ _ _ _ (by omega)
  · exact serves_store holds.distinct serves used' start within (fun f own => (holds.usedBlock f own).room) fits

/-- The first allocation makes the heap. -/
theorem first_malloc (ok : area.Ok) (unused : s.heap.pxEnd = 0) (none : s.held = []) {n want : Nat}
    (word : want < 2 ^ 32) (positive : 0 < want) (enough : n ≤ want) :
    ∃ h pv, s.heap.mallocWithoutLock area want = some (h, pv) ∧
      (pv = 0 ∧ (∃ free used, Sound area ⟨h, s.held⟩ free used) ∨
        pv ≠ 0 ∧ ∃ free used, (receive h pv n s.held).Sound area free used) := by
  obtain ⟨len, holds, wide, last⟩ := Heap4.prvHeapInit_spec ok s.heap
  have room := (holds.freeBlock _ (List.mem_singleton.mpr rfl)).room
  have made : (s.heap.prvHeapInit area).pxEnd ≠ 0 := by
    have := holds.positive
    have := holds.order
    omega
  have aboveStart : Heap4.alignedUp area.ucHeap < (s.heap.prvHeapInit area).pxEnd := by
    have header : xHeapStructSize = 8 := rfl
    dsimp only at room
    omega
  have sound : Sound area ⟨s.heap.prvHeapInit area, s.held⟩ [(Heap4.alignedUp area.ucHeap, len)] [] :=
    ⟨holds, by rw [none]; exact .nil, aboveStart, Nat.le_trans (Nat.le_add_right _ _) last⟩
  obtain ⟨h, pv, call, after⟩ := malloc_keeps sound word positive enough
  have same : s.heap.mallocWithoutLock area want = (s.heap.prvHeapInit area).mallocWithoutLock area want := by
    simp only [Heap4.mallocWithoutLock, unused, if_true, if_neg made]
  refine ⟨h, pv, same.trans call, ?_⟩
  rcases after with ⟨null, rfl⟩ | given
  · exact .inl ⟨null, _, _, sound⟩
  · exact .inr given

/-- `pvPortMalloc`, in any state. -/
theorem pvPortMalloc_keeps (ok : area.Ok) (sound : s.Ok area) (n : UInt32) :
    ∃ h pv, s.heap.pvPortMalloc area n.toNat = some (h, pv) ∧
      (pv = 0 ∧ Ok area ⟨h, s.held⟩ ∨ pv ≠ 0 ∧ (receive h pv n.toNat s.held).Ok area) := by
  have word := n.toNat_lt
  obtain ⟨want, amount⟩ : ∃ want, want = if n.toNat = 0 then 4 else n.toNat := ⟨_, rfl⟩
  have positive : 0 < want := by
    split at amount <;> omega
  have enough : n.toNat ≤ want := by
    split at amount <;> omega
  have small : want < 2 ^ 32 := by
    split at amount <;> omega
  unfold Heap4.pvPortMalloc
  rw [← amount]
  rcases sound with ⟨unused, none⟩ | ⟨free, used, sound⟩
  · obtain ⟨h, pv, call, after⟩ := first_malloc ok unused none small positive enough
    exact ⟨h, pv, call, after.imp (.imp_right .inr) (.imp_right .inr)⟩
  · obtain ⟨h, pv, call, ⟨null, rfl⟩ | ⟨given, after⟩⟩ := malloc_keeps sound small positive enough
    · exact ⟨_, pv, call, .inl ⟨null, .inr ⟨_, _, sound⟩⟩⟩
    · exact ⟨h, pv, call, .inr ⟨given, .inr after⟩⟩

theorem drop_null (sound : s.Ok area) : drop 0 s.held = s.held := by
  refine List.eraseP_of_forall_not fun c member => ?_
  rcases sound with ⟨-, none⟩ | ⟨free, used, sound⟩
  · rw [none] at member
    cases member
  · obtain ⟨e, -, start, -⟩ := serves_owner sound.serves member
    have header : xHeapStructSize = 8 := rfl
    simp only [decide_eq_true_eq]
    omega

/-- The step lemma. -/
theorem step_keeps (ok : area.Ok) {memcpy : Mem UInt8 → Nat → Nat → Nat → Mem UInt8}
    (standard : Heap4.IsMemcpy memcpy) (s : HeapSession) (call : HeapCall) (sound : s.Ok area)
    (legal : s.Legal call) : ∃ s', s.step area memcpy call = some s' ∧ s'.Ok area := by
  cases call with
  | malloc n =>
    obtain ⟨h, pv, call, ⟨rfl, after⟩ | ⟨given, after⟩⟩ := pvPortMalloc_keeps ok sound n
    · exact ⟨⟨h, s.held⟩, by simp [step, call], after⟩
    · exact ⟨receive h pv n.toNat s.held, by simp [step, call, given], after⟩
  | free pv =>
    rcases legal with rfl | own
    · exact ⟨s, by simp [step, Heap4.vPortFree, drop_null sound], sound⟩
    · obtain ⟨⟨_, bytes⟩, member, rfl⟩ := List.mem_map.mp own
      rcases sound with ⟨-, none⟩ | ⟨free, used, sound⟩
      · rw [none] at member
        cases member
      · obtain ⟨h, call, after⟩ := release_keeps sound member
        exact ⟨⟨h, _⟩, by simp [step, call], .inr after⟩
  | realloc pv n =>
    rcases legal with rfl | own
    · obtain ⟨h, pv, call, ⟨rfl, after⟩ | ⟨given, after⟩⟩ := pvPortMalloc_keeps ok sound n
      · exact ⟨⟨h, s.held⟩, by simp [step, Heap4.pvPortRealloc, call], after⟩
      · exact ⟨receive h pv n.toNat s.held, by simp [step, Heap4.pvPortRealloc, call, given, drop_null sound], after⟩
    · obtain ⟨⟨_, bytes⟩, member, rfl⟩ := List.mem_map.mp own
      rcases sound with ⟨-, none⟩ | ⟨free, used, sound⟩
      · rw [none] at member
        cases member
      · obtain ⟨h, pv', call, ⟨rfl, after⟩ | ⟨given, after⟩⟩ := realloc_keeps sound standard n.toNat_lt member
        · exact ⟨⟨h, s.held⟩, by simp [step, call], .inr after⟩
        · exact ⟨_, by simp [step, call, given], .inr after⟩
  | store pv offset bytes =>
    obtain ⟨own, fits⟩ := legal
    obtain ⟨⟨_, old⟩, member, rfl⟩ := List.mem_map.mp own
    rcases sound with ⟨-, none⟩ | ⟨free, used, sound⟩
    · rw [none] at member
      cases member
    · exact ⟨_, rfl, .inr ⟨free, used, store_keeps sound member fun old inside => fits _ inside rfl⟩⟩

/-! ### Runs -/

/-- A state that a run of legal calls ends in, from the static variables before the first call. -/
def Reached (area : HeapArea) (memcpy : Mem UInt8 → Nat → Nat → Nat → Mem UInt8) (s : HeapSession) : Prop :=
  ∃ ram calls, Guarded.Allowed (step area memcpy) Legal (start ram) calls ∧
    calls.foldlM (step area memcpy) (start ram) = some s

theorem Reached.ok {memcpy : Mem UInt8 → Nat → Nat → Nat → Mem UInt8} (ok : area.Ok)
    (standard : Heap4.IsMemcpy memcpy) (reached : Reached area memcpy s) : s.Ok area := by
  obtain ⟨ram, calls, legal, run⟩ := reached
  obtain ⟨s', run', sound⟩ := Guarded.run_keeps (step_keeps ok standard) (.inl ⟨rfl, rfl⟩) legal
  obtain rfl := Option.some.inj (run.symm.trans run')
  exact sound

theorem Reached.of_run (area : HeapArea) (memcpy : Mem UInt8 → Nat → Nat → Nat → Mem UInt8) {α : Type*}
    {f : HeapSession → α} {v : α} (ram : Mem UInt8) (calls : List HeapCall) (legal : Guarded.Allowed (step area memcpy) Legal (start ram) calls)
    (run : (calls.foldlM (step area memcpy) (start ram)).map f = some v) : ∃ s, Reached area memcpy s ∧ f s = v := by
  obtain ⟨s, ends, value⟩ := Option.map_eq_some_iff.mp run
  exact ⟨s, ⟨ram, calls, legal, ends⟩, value⟩

/-- Every loop of the heap ends, and what is held is aligned, inside the area, apart from everything else
that is held, and as its holder left it. -/
theorem heap_runs {memcpy : Mem UInt8 → Nat → Nat → Nat → Mem UInt8} (ok : area.Ok)
    (standard : Heap4.IsMemcpy memcpy) {ram : Mem UInt8} {calls : List HeapCall}
    (legal : Guarded.Allowed (step area memcpy) Legal (start ram) calls) :
    ∃ s, calls.foldlM (step area memcpy) (start ram) = some s ∧
      (∀ c ∈ s.held, 8 ∣ c.1 ∧ area.ucHeap + xHeapStructSize ≤ c.1 ∧
        c.1 + c.2.length ≤ area.ucHeap + area.xTotalHeapSize ∧ s.heap.ram.read c.1 c.2.length = c.2) ∧
      s.held.Pairwise fun c d => c.1 + c.2.length < d.1 ∨ d.1 + d.2.length < c.1 := by
  have header : xHeapStructSize = 8 := rfl
  obtain ⟨s, run, sound⟩ := Guarded.run_keeps (step_keeps ok standard) (.inl ⟨rfl, rfl⟩) legal
  refine ⟨s, run, ?_⟩
  rcases sound with ⟨-, none⟩ | ⟨free, used, holds, serves, -, inside⟩
  · rw [none]
    exact ⟨by simp, .nil⟩
  · refine ⟨fun c member => ?_, ?_⟩
    · obtain ⟨e, used', start, fits, read⟩ := serves_owner serves member
      have block := holds.usedBlock e used'
      have low := block.low
      have high := block.high
      have aligned := block.start
      have up := (Heap4.alignedUp_spec area.ucHeap).2.1
      simp only [Extent.stop] at high
      exact ⟨by omega, by omega, by omega, read⟩
    · exact serves_pairwise serves holds.distinct

/-- A heap that the linker could place, and a run that grows a block away from its place. -/
theorem heap_runs_moved :
    let calls := [.malloc 20, .malloc 50, .store 304 4 [1, 2, 3], .realloc 272 100, .free 304, .malloc 10]
    let memcpy := fun m d s n => m.copy d m s n
    ∃ s, calls.foldlM (step ⟨0x104, 0x200⟩ memcpy) (start fun _ => 0) = some s ∧
      (∀ c ∈ s.held, 8 ∣ c.1 ∧ 0x104 + xHeapStructSize ≤ c.1 ∧ c.1 + c.2.length ≤ 0x104 + 0x200 ∧
        s.heap.ram.read c.1 c.2.length = c.2) ∧
      s.held.Pairwise fun c d => c.1 + c.2.length < d.1 ∨ d.1 + d.2.length < c.1 :=
  heap_runs ⟨by decide, by decide, by decide⟩ Heap4.isMemcpy_copy (by decide +kernel)

/-! ### What is free -/

theorem block_eq {lo : Nat} (holds : h.Holds lo free used) (inside : e ∈ used) : h.block (e.1 + xHeapStructSize) = e := by
  have small : e.2 < xBlockAllocatedBit := by
    have high := (holds.usedBlock e inside).high
    have bound := holds.bound
    simp only [Extent.stop] at high
    omega
  rw [Heap4.block, Nat.add_sub_cancel, (holds.marked e inside).2, Heap4.cleared_allocated small]

/-- Used blocks are those behind their pointers. -/
theorem blocks_eq {lo : Nat} (holds : h.Holds lo free used) {es : List Extent} (sub : ∀ e ∈ es, e ∈ used)
    (serves : List.Forall₂ (Serves h) es held) : es = held.map fun c => h.block c.1 := by
  refine (congrFun₂ List.forall₂_eq_eq_eq _ _).mp ?_
  refine List.forall₂_map_right_iff.mpr (forall₂_imp serves fun e inside c _ serving => ?_)
  rw [serving.1, block_eq holds (sub e inside)]

/-- The addresses of the heap that no used block takes. -/
def Unused (area : HeapArea) (s : HeapSession) : Set Nat :=
  {x | (Heap4.alignedUp area.ucHeap ≤ x ∧ x < s.heap.pxEnd) ∧
    x ∉ Extents.cover (s.held.map fun c => s.heap.block c.1)}

theorem cover_free {lo : Nat} (holds : h.Holds lo free used) :
    Extents.cover free = {x | (lo ≤ x ∧ x < h.pxEnd) ∧ x ∉ Extents.cover used} := by
  ext x
  constructor
  · rintro ⟨e, member, low, high⟩
    have block := holds.freeBlock e member
    refine ⟨⟨Nat.le_trans block.low low, Nat.lt_of_lt_of_le high block.high⟩, ?_⟩
    rintro ⟨f, used', low', high'⟩
    have apart := holds.apart f used' e member
    simp only [Extent.Disjoint] at apart
    omega
  · rintro ⟨⟨low, high⟩, off⟩
    exact (holds.covered x low high).resolve_right off

theorem Sound.cover_free (sound : s.Sound area free used) : Extents.cover free = s.Unused area := by
  rw [Unused, ← blocks_eq sound.holds (fun _ => id) sound.serves]
  exact HeapSession.cover_free sound.holds

theorem Reached.sound {memcpy : Mem UInt8 → Nat → Nat → Nat → Mem UInt8} (ok : area.Ok)
    (standard : Heap4.IsMemcpy memcpy) (reached : Reached area memcpy s) (made : s.heap.pxEnd ≠ 0) :
    ∃ free, s.Sound area free (s.held.map fun c => s.heap.block c.1) := by
  rcases reached.ok ok standard with ⟨unused, -⟩ | ⟨free, used, sound⟩
  · exact absurd unused made
  · exact ⟨free, blocks_eq sound.holds (fun _ => id) sound.serves ▸ sound⟩

/-- Allocating takes the first of the maximal free runs that is large enough, and fails only where there is
none: neither the order in which blocks were taken and given back nor their number matters. -/
theorem malloc_first_fit {memcpy : Mem UInt8 → Nat → Nat → Nat → Mem UInt8} (ok : area.Ok)
    (standard : Heap4.IsMemcpy memcpy) (reached : Reached area memcpy s) (made : s.heap.pxEnd ≠ 0)
    {runs : List Extent} (normal : Extents.Normal runs) (cover : Extents.cover runs = s.Unused area) :
    s.heap.xFreeBytesRemaining = Extents.total runs ∧ ∀ n : UInt32,
      (s.heap.pvPortMalloc area n.toNat).map (·.2) =
        some (((runs.find? fun e => Heap4.blockSizeFor (if n = 0 then 4 else n.toNat) ≤ e.2).map
          fun e => e.1 + xHeapStructSize).getD 0) := by
  obtain ⟨free, sound⟩ := reached.sound ok standard made
  obtain rfl := Extents.Normal.ext normal sound.holds.normal (cover.trans sound.cover_free.symm)
  refine ⟨sound.holds.count, fun n => ?_⟩
  have zero : n.toNat = 0 ↔ n = 0 := ⟨fun h => UInt32.toNat_inj.mp h, fun h => by rw [h]; rfl⟩
  have amount : (if n.toNat = 0 then 4 else n.toNat) = if n = 0 then 4 else n.toNat := by simp only [zero]
  have word := n.toNat_lt
  rw [Heap4.pvPortMalloc, amount]
  have positive : 0 < if n = 0 then 4 else n.toNat := by
    rw [← amount]
    split <;> omega
  have small : (if n = 0 then 4 else n.toNat) < 2 ^ 32 := by
    rw [← amount]
    split <;> omega
  rcases Heap4.mallocWithoutLock_spec area sound.holds positive small with
    ⟨none, call⟩ | ⟨pre, f, post, h, rfl, before, large, call, -⟩
  · rw [call, List.find?_eq_none.mpr fun e member => by simpa using none e member]
    rfl
  · rw [call, List.find?_append, List.find?_eq_none.mpr fun e member => by simpa using before e member,
      Option.none_or, List.find?_cons_of_pos (by simpa using large)]
    rfl

/-- Two blocks and the gap in front of the second: 20 bytes go into the gap, 30 behind. -/
theorem malloc_first_fit_gap : ∃ s, Reached ⟨0x104, 0x200⟩ (fun m d s n => m.copy d m s n) s ∧
    s.heap.xFreeBytesRemaining = 432 ∧ (s.heap.pvPortMalloc ⟨0x104, 0x200⟩ 20).map (·.2) = some 272 ∧
    (s.heap.pvPortMalloc ⟨0x104, 0x200⟩ 30).map (·.2) = some 368 := by
  obtain ⟨s, reached, facts⟩ := Reached.of_run ⟨0x104, 0x200⟩ (fun m d s n => m.copy d m s n)
    (f := fun s => (s.heap.pxEnd, s.held.map fun c => s.heap.block c.1)) (v := (760, [(296, 64)])) (fun _ => 0)
    [.malloc 20, .malloc 50, .free 272] (by decide +kernel) (by decide +kernel)
  obtain ⟨pxEnd, blocks⟩ := Prod.mk.inj facts
  have start : Heap4.alignedUp 0x104 = 264 := by decide
  have normal : Extents.Normal [(264, 32), (360, 400)] := by simp [Extents.Normal, Extent.stop]
  have all := malloc_first_fit ⟨by decide, by decide, by decide⟩ Heap4.isMemcpy_copy reached (by omega) normal (by
      ext x
      simp only [Unused, blocks, pxEnd, start, Extents.mem_cover_cons, Extents.cover_nil, Set.mem_empty_iff_false,
        or_false, Extent.stop, Set.mem_ofPred_eq]
      omega)
  exact ⟨s, reached, all.1, all.2 20, all.2 30⟩

/-- When everything has been given back the heap is what it was before the first allocation. -/
theorem all_released {memcpy : Mem UInt8 → Nat → Nat → Nat → Mem UInt8} (ok : area.Ok)
    (standard : Heap4.IsMemcpy memcpy) (reached : Reached area memcpy s) (made : s.heap.pxEnd ≠ 0)
    (released : s.held = []) :
    let start := Heap4.alignedUp area.ucHeap
    s.heap.xFreeBytesRemaining = s.heap.pxEnd - start ∧ s.heap.xStart = start ∧
      s.heap.size start = s.heap.pxEnd - start ∧ s.heap.next (some start) = s.heap.pxEnd := by
  obtain ⟨free, sound⟩ := reached.sound ok standard made
  obtain ⟨lo, start⟩ : ∃ lo, Heap4.alignedUp area.ucHeap = lo := ⟨_, rfl⟩
  have wide := sound.inside.1
  have cover := sound.cover_free
  have whole : free = [(lo, s.heap.pxEnd - lo)] := by
    refine Extents.Normal.ext sound.holds.normal ⟨by dsimp only; omega, by simp, trivial⟩ (cover.trans ?_)
    ext x
    simp only [Unused, released, start, List.map_nil, Extents.cover_nil, Set.mem_empty_iff_false, not_false_iff,
      and_true, Extents.mem_cover_cons, or_false, Extent.stop, Set.mem_ofPred_eq]
    omega
  subst whole
  obtain ⟨first, size, next⟩ := sound.holds.chain
  dsimp only
  rw [start, sound.holds.count]
  exact ⟨by simp, first, size, next⟩

/-- Three blocks, given back in another order than they were taken. -/
theorem all_released_three : ∃ s, Reached ⟨0x104, 0x200⟩ (fun m d s n => m.copy d m s n) s ∧
    s.heap.xFreeBytesRemaining = 760 - 264 ∧ s.heap.size 264 = 760 - 264 := by
  obtain ⟨s, reached, facts⟩ := Reached.of_run ⟨0x104, 0x200⟩ (fun m d s n => m.copy d m s n)
    (f := fun s => (s.heap.pxEnd, s.held)) (v := (760, [])) (fun _ => 0)
    [.malloc 20, .malloc 50, .malloc 10, .free 304, .free 368, .free 272] (by decide +kernel) (by decide +kernel)
  obtain ⟨pxEnd, released⟩ := Prod.mk.inj facts
  have all := all_released ⟨by decide, by decide, by decide⟩ Heap4.isMemcpy_copy reached (by omega) released
  have start : Heap4.alignedUp 0x104 = 264 := by decide
  dsimp only at all
  rw [start, pxEnd] at all
  exact ⟨s, reached, all.1, all.2.2.1⟩

theorem find?_split {runs pre post : List Extent} {f : Extent} {want : Nat} (split : runs = pre ++ f :: post)
    (before : ∀ g ∈ pre, g.2 < want) (large : want ≤ f.2) : (runs.find? fun g => want ≤ g.2) = some f := by
  have passed : (pre.find? fun g => want ≤ g.2) = none :=
    List.find?_eq_none.mpr fun g member => by simpa using before g member
  rw [split, List.find?_append, passed, Option.none_or, List.find?_cons_of_pos (by simpa using large)]

/-- Growing a block chooses among the free runs as they are once the block has been given back. Where none is
large enough nothing changes; where the one that is chosen leaves the old payload alone, what it held is there. -/
theorem realloc_first_fit {memcpy : Mem UInt8 → Nat → Nat → Nat → Mem UInt8} (ok : area.Ok)
    (standard : Heap4.IsMemcpy memcpy) (reached : Reached area memcpy s) {pv : Nat} {bytes : List UInt8}
    (member : (pv, bytes) ∈ s.held) {runs : List Extent} (normal : Extents.Normal runs)
    (cover : Extents.cover runs = Unused area ⟨s.heap, drop pv s.held⟩) {n : UInt32}
    (grows : (s.heap.block pv).2 < n.toNat + xHeapStructSize) :
    match runs.find? fun f => Heap4.blockSizeFor n.toNat ≤ f.2 with
    | none => ∃ h, s.heap.pvPortRealloc area memcpy pv n.toNat = some (h, 0) ∧
        Unused area ⟨h, s.held⟩ = s.Unused area ∧ h.xFreeBytesRemaining = s.heap.xFreeBytesRemaining
    | some f => ∃ h, s.heap.pvPortRealloc area memcpy pv n.toNat = some (h, f.1 + xHeapStructSize) ∧
        (Heap4.Survives (s.heap.block pv) f (Heap4.blockSizeFor n.toNat) →
          h.ram.read (f.1 + xHeapStructSize) bytes.length = bytes) := by
  rcases reached.ok ok standard with ⟨-, none⟩ | ⟨free, used, sound⟩
  · rw [none] at member
    cases member
  · obtain ⟨holds, serves, inside⟩ := sound
    obtain ⟨e, others, perm, rfl, rest, own⟩ := serves_find serves member
    have holds' := holds.perm perm
    rw [block_eq holds own] at grows ⊢
    have given : runs = Extents.insert e free := by
      obtain ⟨h, -, pxEnd, released, -⟩ := Heap4.release_spec holds'
      have others_eq := blocks_eq holds (fun f other => perm.mem_iff.mpr (List.mem_cons_of_mem _ other)) rest
      refine Extents.Normal.ext normal released.normal ?_
      rw [cover, cover_free released, pxEnd, others_eq]
      rfl
    subst given
    rcases Heap4.pvPortRealloc_spec area standard holds' n.toNat_lt with
      ⟨fits, -⟩ | ⟨-, ⟨none, h, call, pxEnd, after, ram, count, -⟩ |
        ⟨pre, f, post, h, split, before, large, call, -, -, -, survives⟩⟩
    · omega
    · have nothing : ((Extents.insert e free).find? fun f => Heap4.blockSizeFor n.toNat ≤ f.2) = Option.none :=
        List.find?_eq_none.mpr fun f inside => by simpa using none f inside
      have restored := Sound.restored ⟨holds, serves, inside⟩ perm pxEnd after ram
      rw [nothing]
      exact ⟨h, call, restored.cover_free.symm.trans (Sound.cover_free ⟨holds, serves, inside⟩), count⟩
    · rw [find?_split split before large]
      refine ⟨h, call, fun left => ?_⟩
      obtain ⟨e', own', start, fits, read⟩ := serves_owner serves member
      have same : e' = e := by
        rw [← block_eq holds own', ← block_eq holds own]
        exact congrArg _ start.symm
      subst same
      have whole := congrArg (List.take bytes.length) (survives left)
      rw [Heap4.payload, Mem.take_read, Mem.take_read, Nat.min_eq_right (by dsimp only at fits; omega)] at whole
      exact whole.trans read

/-- The block moves behind the one that follows it, with what it held. -/
theorem realloc_first_fit_moves : ∃ s h, Reached ⟨0x104, 0x200⟩ (fun m d s n => m.copy d m s n) s ∧
    s.heap.pvPortRealloc ⟨0x104, 0x200⟩ (fun m d s n => m.copy d m s n) 272 100 = some (h, 352) ∧
    h.ram.read 352 3 = [1, 2, 3] := by
  obtain ⟨s, reached, facts⟩ := Reached.of_run ⟨0x104, 0x200⟩ (fun m d s n => m.copy d m s n)
    (f := fun s => (s.heap.pxEnd, s.heap.block 272, (drop 272 s.held).map fun c => s.heap.block c.1,
      decide ((272, [1, 2, 3]) ∈ s.held)))
    (v := (760, (264, 16), [(280, 64)], true)) (fun _ => 0)
    [.malloc 3, .malloc 50, .store 272 0 [1, 2, 3]] (by decide +kernel) (by decide +kernel)
  simp only [Prod.mk.injEq, decide_eq_true_eq] at facts
  obtain ⟨pxEnd, own, others, member⟩ := facts
  have start : Heap4.alignedUp 0x104 = 264 := by decide
  have normal : Extents.Normal [(264, 16), (344, 416)] := by simp [Extents.Normal, Extent.stop]
  have all := realloc_first_fit (n := 100) ⟨by decide, by decide, by decide⟩ Heap4.isMemcpy_copy reached member
    normal (by
      ext x
      simp only [Unused, others, pxEnd, start, Extents.mem_cover_cons, Extents.cover_nil, Set.mem_empty_iff_false,
        or_false, Extent.stop, Set.mem_ofPred_eq]
      omega) (by rw [own]; decide)
  obtain ⟨h, call, kept⟩ := all
  rw [own] at kept
  exact ⟨s, h, reached, call, kept (by decide)⟩

/-- The block is put in front of where it was, and the header of what is left is written into the old bytes. -/
example :
    let memcpy := fun m d s n => m.copy d m s n
    let calls : List HeapCall := [.malloc 20, .malloc 50, .malloc 30, .malloc 10, .free 304, .store 368 0 (List.replicate 30 7)]
    ((calls.foldlM (step ⟨0x104, 0x200⟩ memcpy) (start fun _ => 0)).bind fun s =>
      (s.heap.pvPortRealloc ⟨0x104, 0x200⟩ memcpy 368 60).map fun (h, pv) => (pv, h.ram.read pv 10)) =
        some (304, [168, 1, 0, 0, 32, 0, 0, 0, 7, 7]) := by
  decide +kernel

end HeapSession

end Bk7251.Kernel
