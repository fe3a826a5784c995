import Bk7251.Kernel.Heap4
import Bk7251.Lib.Extents
import Mathlib.Data.List.Induction

/-!
# The list of free blocks

The free blocks of the heap are linked in the order of their addresses. `prvInsertBlockIntoFreeList`
puts a block at its place and joins it with the neighbours that it touches, and writes nothing but
block headers.
-/
namespace Bk7251.Kernel

open Lib

/-- The blocks linked from `p` on, up to `stop`. -/
def Chain (m : Mem UInt8) : Nat → List Extent → Nat → Prop
  | p, [], stop => p = stop
  | p, e :: es, stop => p = e.1 ∧ xBlockSize m e.1 = e.2 ∧ Chain m (pxNextFreeBlock m e.1) es stop

/-- Two headers do not overlap. -/
def HeadersApart (a b : Nat) : Prop := a + xHeapStructSize ≤ b ∨ b + xHeapStructSize ≤ a

/-- The byte belongs to no header of these blocks. -/
def OffHeaders (es : List Extent) (x : Nat) : Prop := ∀ e ∈ es, x < e.1 ∨ e.1 + xHeapStructSize ≤ x

variable {m m' : Mem UInt8} {es fs : List Extent} {e f : Extent} {p stop : Nat}

theorem header_congr {a : Nat} (same : ∀ x, a ≤ x → x < a + xHeapStructSize → m x = m' x) :
    pxNextFreeBlock m a = pxNextFreeBlock m' a ∧ xBlockSize m a = xBlockSize m' a := by
  simp only [xHeapStructSize] at same
  exact ⟨Mem.word_congr fun x low high => same x low (by omega),
    Mem.word_congr fun x low high => same x (by omega) (by omega)⟩

theorem Chain.congr (chain : Chain m p es stop)
    (same : ∀ e ∈ es, ∀ x, e.1 ≤ x → x < e.1 + xHeapStructSize → m x = m' x) : Chain m' p es stop := by
  induction es generalizing p with
  | nil => exact chain
  | cons e es ih =>
    obtain ⟨next, size⟩ := header_congr (same e (by simp))
    refine ⟨chain.1, size ▸ chain.2.1, next ▸ ih chain.2.2 fun f member => ?_⟩
    exact same f (List.mem_cons_of_mem _ member)

theorem chain_append : Chain m p (es ++ fs) stop ↔ ∃ q, Chain m p es q ∧ Chain m q fs stop := by
  induction es generalizing p with
  | nil => simp [Chain]
  | cons e es ih => simp only [List.cons_append, Chain, ih, exists_and_left, and_assoc]

/-- Where a chain starts. -/
def first (es : List Extent) (stop : Nat) : Nat := (es.head?.map (·.1)).getD stop

theorem Chain.start_eq (chain : Chain m p es stop) : p = first es stop := by
  cases es with
  | nil => exact chain
  | cons e es => exact chain.1

namespace Heap4

variable {h h' : Heap4} {a b v x : Nat} {l : Link}

/-! ### Header fields -/

@[simp] theorem pxEnd_setNext : (h.setNext l v).pxEnd = h.pxEnd := by cases l <;> rfl

@[simp] theorem pxEnd_setSize : (h.setSize a v).pxEnd = h.pxEnd := rfl

@[simp] theorem free_setNext : (h.setNext l v).xFreeBytesRemaining = h.xFreeBytesRemaining := by cases l <;> rfl

@[simp] theorem free_setSize : (h.setSize a v).xFreeBytesRemaining = h.xFreeBytesRemaining := rfl

@[simp] theorem min_setNext : (h.setNext l v).xMinimumEverFreeBytesRemaining = h.xMinimumEverFreeBytesRemaining := by
  cases l <;> rfl

@[simp] theorem min_setSize : (h.setSize a v).xMinimumEverFreeBytesRemaining = h.xMinimumEverFreeBytesRemaining := rfl

@[simp] theorem xStart_setSize : (h.setSize a v).xStart = h.xStart := rfl

@[simp] theorem xStart_setNext_some : (h.setNext (some a) v).xStart = h.xStart := rfl

@[simp] theorem ram_setNext_none : (h.setNext none v).ram = h.ram := rfl

theorem setNext_apply (off : x < a ∨ a + xHeapStructSize ≤ x) : (h.setNext (some a) v).ram x = h.ram x := by
  simp only [xHeapStructSize] at off
  exact Mem.setWord_apply (by omega)

theorem setSize_apply (off : x < a ∨ a + xHeapStructSize ≤ x) : (h.setSize a v).ram x = h.ram x := by
  simp only [xHeapStructSize] at off
  exact Mem.setWord_apply (by omega)

@[simp] theorem next_setNext_self (fits : v < 2 ^ 32) : (h.setNext l v).next l = v := by
  cases l with
  | none => rfl
  | some a => exact Mem.word_setWord h.ram a fits

@[simp] theorem size_setSize_self (fits : v < 2 ^ 32) : (h.setSize a v).size a = v :=
  Mem.word_setWord h.ram (a + 4) fits

theorem next_setNext (apart : HeadersApart a b) : (h.setNext (some b) v).next (some a) = h.next (some a) := by
  simp only [HeadersApart, xHeapStructSize] at apart
  exact Mem.word_setWord_of_disjoint (by omega)

theorem size_setSize (apart : HeadersApart a b) : (h.setSize b v).size a = h.size a := by
  simp only [HeadersApart, xHeapStructSize] at apart
  exact Mem.word_setWord_of_disjoint (by omega)

theorem size_setNext (apart : a = b ∨ HeadersApart a b) : (h.setNext (some b) v).size a = h.size a := by
  simp only [HeadersApart, xHeapStructSize] at apart
  exact Mem.word_setWord_of_disjoint (by omega)

theorem next_setSize (apart : a = b ∨ HeadersApart a b) : (h.setSize b v).next (some a) = h.next (some a) := by
  simp only [HeadersApart, xHeapStructSize] at apart
  exact Mem.word_setWord_of_disjoint (by omega)

/-- The fields that no write to a header touches, and the bytes outside these headers. -/
structure Frame (es : List Extent) (h h' : Heap4) : Prop where
  pxEnd : h'.pxEnd = h.pxEnd
  free : h'.xFreeBytesRemaining = h.xFreeBytesRemaining
  least : h'.xMinimumEverFreeBytesRemaining = h.xMinimumEverFreeBytesRemaining
  ram : ∀ x, OffHeaders es x → h'.ram x = h.ram x

theorem Frame.refl (es : List Extent) (h : Heap4) : Frame es h h := ⟨rfl, rfl, rfl, fun _ _ => rfl⟩

theorem Frame.trans {h'' : Heap4} (first : Frame es h h') (second : Frame es h' h'') : Frame es h h'' where
  pxEnd := second.pxEnd.trans first.pxEnd
  free := second.free.trans first.free
  least := second.least.trans first.least
  ram x off := (second.ram x off).trans (first.ram x off)

theorem Frame.mono (frame : Frame es h h') (sub : ∀ e ∈ es, ∃ f ∈ fs, e.1 = f.1) : Frame fs h h' where
  pxEnd := frame.pxEnd
  free := frame.free
  least := frame.least
  ram x off := frame.ram x fun e member => by
    obtain ⟨f, inside, same⟩ := sub e member
    exact same ▸ off f inside

theorem frame_setSize (member : e ∈ es) : Frame es h (h.setSize e.1 v) :=
  ⟨rfl, rfl, rfl, fun _ off => setSize_apply (off e member)⟩

theorem frame_setNext (member : e ∈ es) : Frame es h (h.setNext (some e.1) v) :=
  ⟨rfl, rfl, rfl, fun _ off => setNext_apply (off e member)⟩

theorem frame_setStart : Frame es h (h.setNext none v) := ⟨rfl, rfl, rfl, fun _ _ => rfl⟩

/-! ### The place of a block -/

/-- The link behind the blocks of `pre`. -/
def linkAfter (l : Link) (pre : List Extent) : Link := (pre.getLast?.map (·.1)).elim l some

@[simp] theorem linkAfter_nil : linkAfter l [] = l := rfl

@[simp] theorem linkAfter_snoc : linkAfter l (es ++ [f]) = some f.1 := by simp [linkAfter]

theorem linkAfter_cons : linkAfter l (e :: es) = linkAfter (some e.1) es := by
  induction es using List.reverseRecOn with
  | nil => rfl
  | append_singleton es f => rw [← List.cons_append, linkAfter_snoc, linkAfter_snoc]

theorem frame_linkAfter {pre : List Extent} (sub : ∀ e ∈ pre, e ∈ es) :
    Frame es h (h.setNext (linkAfter none pre) v) := by
  rcases List.eq_nil_or_concat pre with rfl | ⟨init, e, rfl⟩
  · exact frame_setStart
  · rw [List.concat_eq_append, linkAfter_snoc]
    exact frame_setNext (sub e (by simp))

/-- Behind its last block a chain goes on. -/
theorem next_linkAfter (chain : Chain h.ram (h.next l) (es ++ fs) stop) :
    Chain h.ram (h.next (linkAfter l es)) fs stop := by
  induction es generalizing l with
  | nil => exact chain
  | cons e es ih =>
    rw [linkAfter_cons]
    exact ih chain.2.2

theorem insertionPoint_eq {pxBlockToInsert fuel : Nat} (chain : Chain h.ram (h.next l) (es ++ fs) stop)
    (before : ∀ e ∈ es, e.1 < pxBlockToInsert) (behind : pxBlockToInsert ≤ first fs stop)
    (enough : es.length < fuel) :
    h.insertionPoint pxBlockToInsert fuel l = some (linkAfter l es) := by
  induction es generalizing l fuel with
  | nil =>
    obtain ⟨fuel, rfl⟩ := Nat.exists_eq_succ_of_ne_zero (Nat.ne_of_gt enough)
    rw [insertionPoint, if_neg (by rw [chain.start_eq]; simpa using behind)]
    rfl
  | cons e es ih =>
    obtain ⟨fuel, rfl⟩ := Nat.exists_eq_succ_of_ne_zero (Nat.ne_of_gt (Nat.lt_of_le_of_lt (Nat.zero_le _) enough))
    have here : h.next l = e.1 := chain.1
    rw [insertionPoint, here, if_pos (before e (by simp)), linkAfter_cons]
    refine ih chain.2.2 (fun f member => before f (List.mem_cons_of_mem _ member)) ?_
    simpa using enough

/-! ### Joining with the neighbours -/

/-- Every block has room for its header, and ends within the heap. -/
def Fits (pxEnd : Nat) (es : List Extent) : Prop :=
  ∀ e ∈ es, xHeapStructSize ≤ e.2 ∧ e.stop ≤ pxEnd

theorem headersApart_of_disjoint (left : xHeapStructSize ≤ e.2) (right : xHeapStructSize ≤ f.2)
    (apart : e.Disjoint f) : HeadersApart e.1 f.1 := by
  simp only [Extent.Disjoint, Extent.stop, HeadersApart] at *
  omega

/-- A block is linked to what follows it. -/
theorem chain_setNext {post : List Extent} (onward : Chain h.ram v post stop) (small : v < 2 ^ 32)
    (size : h.size e.1 = e.2) (room : xHeapStructSize ≤ e.2) (behind : ∀ f ∈ post, e.stop ≤ f.1) :
    Chain (h.setNext (some e.1) v).ram e.1 (e :: post) stop := by
  refine ⟨rfl, (size_setNext (.inl rfl)).trans size, ?_⟩
  change Chain _ ((h.setNext (some e.1) v).next (some e.1)) post stop
  rw [next_setNext_self small]
  refine onward.congr fun f member x low _ => (setNext_apply (.inr ?_)).symm
  have later := behind f member
  simp only [Extent.stop] at later
  omega

/-- A block takes in the one behind it, and gets its link. -/
theorem chain_takeIn {post : List Extent} (chain : Chain h.ram f.1 (f :: post) stop) (room : xHeapStructSize ≤ e.2)
    (touch : e.stop = f.1) (whole : e.2 + f.2 < 2 ^ 32) (normal : Extents.Normal (f :: post)) :
    Chain ((h.setSize e.1 (e.2 + f.2)).setNext (some e.1) (h.next (some f.1))).ram e.1 ((e.1, e.2 + f.2) :: post) stop := by
  have stopE : e.stop = e.1 + e.2 := rfl
  have stopF : f.stop = f.1 + f.2 := rfl
  have sized : (h.setSize e.1 (e.2 + f.2)).size e.1 = e.2 + f.2 := size_setSize_self whole
  have behind : ∀ g ∈ post, e.1 + (e.2 + f.2) ≤ g.1 := by
    intro g member
    have further := normal.2.1 g member
    omega
  refine chain_setNext (e := (e.1, e.2 + f.2)) (chain.2.2.congr fun g member x low _ => ?_) (Mem.word_lt _ _) sized
    (Nat.le_trans room (Nat.le_add_right _ _)) behind
  have later := behind g member
  exact (setSize_apply (.inr (by omega))).symm

/-- The block in front of `post` gets its link, and its size where it takes in the block behind. -/
theorem joinBack_chain {e : Extent} {post : List Extent} (chain : Chain h.ram (h.next l) post h.pxEnd)
    (size : h.size e.1 = e.2) (bound : h.pxEnd < 2 ^ 32) (fits : Fits h.pxEnd (e :: post))
    (behind : ∀ f ∈ post, e.stop ≤ f.1) (link : ∀ a ∈ l, a = e.1 ∨ HeadersApart a e.1)
    (normal : Extents.Normal post) :
    Chain (h.joinBack l e.1).ram e.1 (Extents.join e post) h.pxEnd ∧
      Frame [e] h (h.joinBack l e.1) := by
  have header : xHeapStructSize = 8 := rfl
  have room := (fits e (by simp)).1
  have start := chain.start_eq
  unfold joinBack
  rw [size, start]
  cases post with
  | nil =>
    have linked := chain_setNext chain (v := h.next l) (start ▸ bound) size room behind
    rw [start] at linked
    rw [show first [] h.pxEnd = h.pxEnd from rfl] at linked ⊢
    simp only [ne_eq, not_true_eq_false, if_false, ite_self]
    exact ⟨linked, frame_setNext (by simp)⟩
  | cons f post =>
    have inside := fits f (by simp)
    have later := behind f (by simp)
    have stopE : e.stop = e.1 + e.2 := rfl
    have stopF : f.stop = f.1 + f.2 := rfl
    rw [show first (f :: post) h.pxEnd = f.1 from rfl] at start ⊢
    split
    next touch =>
      have same : (h.setSize e.1 (e.2 + f.2)).next l = f.1 := by
        rw [← start]
        cases l with
        | none => rfl
        | some a => exact next_setSize (link a rfl)
      rw [if_pos (by omega), show h.size f.1 = f.2 from chain.2.1]
      dsimp only
      rw [same, next_setSize (.inr (.inr (by omega))), Extents.join, if_pos (show e.stop = f.1 from touch)]
      exact ⟨chain_takeIn (start ▸ chain) room touch (by omega) normal,
        (frame_setSize (by simp)).trans (frame_setNext (by simp))⟩
    next gap =>
      rw [Extents.join, if_neg (show ¬e.stop = f.1 from gap)]
      exact ⟨chain_setNext (start ▸ chain) (by omega) size room behind, frame_setNext (by simp)⟩

@[simp] theorem xStart_joinBack : (h.joinBack l a).xStart = h.xStart := by
  unfold joinBack
  split
  · split <;> rfl
  · rfl

/-! ### Putting a block into the list -/

/-- The place of a block: behind the blocks of `pre`, in front of those of `post`. -/
structure Place (pxEnd : Nat) (pre : List Extent) (e : Extent) (post : List Extent) : Prop where
  normal : Extents.Normal (pre ++ post)
  fits : Fits pxEnd (e :: (pre ++ post))
  earlier : ∀ f ∈ pre, f.stop ≤ e.1
  later : ∀ f ∈ post, e.stop ≤ f.1

variable {pre post : List Extent}

/-- A block that overlaps no other one has a place. -/
theorem exists_place {pxEnd : Nat} (normal : Extents.Normal es) (fits : Fits pxEnd (e :: es))
    (apart : ∀ f ∈ es, e.Disjoint f) : ∃ pre post, es = pre ++ post ∧ Place pxEnd pre e post := by
  obtain ⟨pre, post, rfl, before, behind⟩ := Extents.split_at e.1 normal
  have header : xHeapStructSize = 8 := rfl
  refine ⟨pre, post, rfl, normal, fits, fun f member => ?_, fun f member => ?_⟩
  · have side := apart f (List.mem_append_left _ member)
    have low := before f member
    have positive := (fits e (by simp)).1
    simp only [Extent.Disjoint, Extent.stop] at side ⊢
    omega
  · have side := apart f (List.mem_append_right _ member)
    have low := behind f member
    have positive := (fits f (by simp [member])).1
    simp only [Extent.Disjoint, Extent.stop] at side ⊢
    omega

theorem Place.own {pxEnd : Nat} (place : Place pxEnd pre e post) : xHeapStructSize ≤ e.2 ∧ e.stop ≤ pxEnd :=
  place.fits e (by simp)

theorem Place.fits_post {pxEnd : Nat} (place : Place pxEnd pre e post) : Fits pxEnd (e :: post) := by
  intro f member
  rcases List.mem_cons.mp member with rfl | inside
  · exact place.own
  · exact place.fits f (by simp [inside])

theorem Place.normal_post {pxEnd : Nat} (place : Place pxEnd pre e post) : Extents.Normal post :=
  (Extents.normal_append.mp place.normal).2.1

theorem Place.behind {pxEnd : Nat} (place : Place pxEnd pre e post) : ∀ f ∈ post, e.1 ≤ f.1 := fun f member =>
  Nat.le_trans (Nat.le_add_right _ _) (place.later f member)

theorem Place.before {pxEnd : Nat} (place : Place pxEnd pre e post) : ∀ f ∈ pre, f.1 < e.1 := by
  intro f member
  have header : xHeapStructSize = 8 := rfl
  have ends := place.earlier f member
  have positive := (place.fits f (by simp [member])).1
  simp only [Extent.stop] at ends
  omega

theorem Place.insertionPoint_eq (place : Place h.pxEnd pre e post) (chain : Chain h.ram h.xStart (pre ++ post) h.pxEnd) :
    h.insertionPoint e.1 (h.pxEnd + 1) none = some (linkAfter none pre) := by
  have few := place.normal.length_le fun f member => (place.fits f (List.mem_cons_of_mem _ member)).2
  refine Heap4.insertionPoint_eq chain place.before ?_ (by rw [List.length_append] at few; omega)
  cases post with
  | nil => exact Nat.le_trans (Nat.le_add_right _ _) place.own.2
  | cons f post => exact place.behind f (by simp)

/-- From the block `f` on the list is another one; the blocks in front of `f` stay. -/
theorem Chain.replace {k : Heap4} {onward : List Extent} (chain : Chain h.ram h.xStart (pre ++ f :: post) stop)
    (normal : Extents.Normal (pre ++ [f])) (room : ∀ e ∈ pre, xHeapStructSize ≤ e.2) (start : k.xStart = h.xStart)
    (same : ∀ x, x < f.1 → k.ram x = h.ram x) (later : Chain k.ram f.1 onward stop) :
    Chain k.ram k.xStart (pre ++ onward) stop := by
  obtain ⟨q, upto, here, -⟩ := chain_append.mp chain
  subst here
  refine chain_append.mpr ⟨f.1, ?_, later⟩
  rw [start]
  refine upto.congr fun e member x _ high => (same x ?_).symm
  have gap := (Extents.normal_append.mp normal).2.2 e member f (by simp)
  have length := room e member
  simp only [Extent.stop] at gap
  omega

/-- The block in front ends where the block starts: both are one piece. -/
theorem joinFront_touching (place : Place h.pxEnd (pre ++ [f]) e post)
    (chain : Chain h.ram h.xStart (pre ++ f :: post) h.pxEnd) (bound : h.pxEnd < 2 ^ 32) (touch : f.stop = e.1) :
    Chain ((h.setSize f.1 (f.2 + e.2)).joinBack (some f.1) f.1).ram
        ((h.setSize f.1 (f.2 + e.2)).joinBack (some f.1) f.1).xStart
        (pre ++ Extents.join f (Extents.join e post)) h.pxEnd ∧
      Frame [f] h ((h.setSize f.1 (f.2 + e.2)).joinBack (some f.1) f.1) := by
  have own := place.own
  have front := place.fits f (by simp)
  have stopE : e.stop = e.1 + e.2 := rfl
  have stopF : f.stop = f.1 + f.2 := rfl
  have between := (Extents.normal_append.mp place.normal).2.2
  have cut := (Extents.normal_append.mp place.normal).1
  have sized : (h.setSize f.1 (f.2 + e.2)).size f.1 = f.2 + e.2 := size_setSize_self (by omega)
  have rest : Chain h.ram (h.next (some f.1)) post h.pxEnd := (chain_append.mp chain).choose_spec.2.2.2
  have follows : Chain (h.setSize f.1 (f.2 + e.2)).ram ((h.setSize f.1 (f.2 + e.2)).next (some f.1)) post h.pxEnd := by
    rw [next_setSize (.inl rfl)]
    refine rest.congr fun g member x above _ => (setSize_apply (.inr ?_)).symm
    have further := between f (by simp) g member
    omega
  have fits : Fits h.pxEnd ((f.1, f.2 + e.2) :: post) := by
    intro g member
    rcases List.mem_cons.mp member with rfl | inside
    · simp only [Extent.stop]
      exact ⟨by omega, by omega⟩
    · exact place.fits_post g (List.mem_cons_of_mem _ inside)
  have behind : ∀ g ∈ post, Extent.stop (f.1, f.2 + e.2) ≤ g.1 := by
    intro g member
    have further := place.later g member
    simp only [Extent.stop] at further touch ⊢
    omega
  obtain ⟨joined, frame⟩ := joinBack_chain (e := (f.1, f.2 + e.2)) follows sized bound fits behind
    (fun a eq => .inl (Option.some.inj eq).symm) place.normal_post
  have framed : Frame [f] h ((h.setSize f.1 (f.2 + e.2)).joinBack (some f.1) f.1) :=
    (frame_setSize (e := f) (by simp)).trans (frame.mono fun g member => ⟨f, by simp, by rw [List.mem_singleton.mp member]⟩)
  rw [Extents.join_join touch]
  refine ⟨Chain.replace chain cut (fun g member => (place.fits g (by simp [member])).1) ?_ (fun x below => ?_) joined,
    framed⟩
  · rw [xStart_joinBack, xStart_setSize]
  · exact framed.ram x fun g member => .inl (by rw [List.mem_singleton.mp member]; exact below)

/-- The block in front ends before the block starts: it is linked to the block. -/
theorem joinFront_apart (place : Place h.pxEnd (pre ++ [f]) e post)
    (chain : Chain h.ram h.xStart (pre ++ f :: post) h.pxEnd) (size : h.size e.1 = e.2) (bound : h.pxEnd < 2 ^ 32)
    (gap : f.stop ≠ e.1) :
    Chain ((h.joinBack (some f.1) e.1).setNext (some f.1) e.1).ram
        ((h.joinBack (some f.1) e.1).setNext (some f.1) e.1).xStart
        (pre ++ Extents.join f (Extents.join e post)) h.pxEnd ∧
      Frame [e, f] h ((h.joinBack (some f.1) e.1).setNext (some f.1) e.1) := by
  have own := place.own
  have room := (place.fits f (by simp)).1
  have low := place.earlier f (by simp)
  have stopE : e.stop = e.1 + e.2 := rfl
  have stopF : f.stop = f.1 + f.2 := rfl
  have cut := (Extents.normal_append.mp place.normal).1
  have front : HeadersApart f.1 e.1 := .inl (by omega)
  obtain ⟨-, here⟩ := (chain_append.mp chain).choose_spec
  obtain ⟨joined, frame⟩ := joinBack_chain (l := some f.1) here.2.2 size bound place.fits_post place.later
    (fun a eq => .inr (Option.some.inj eq ▸ front)) place.normal_post
  have framed : Frame [e, f] h ((h.joinBack (some f.1) e.1).setNext (some f.1) e.1) :=
    (frame.mono fun g member => ⟨e, by simp, by rw [List.mem_singleton.mp member]⟩).trans
      (frame_setNext (e := f) (by simp))
  have kept : (h.joinBack (some f.1) e.1).size f.1 = f.2 := by
    refine Eq.trans (header_congr fun x _ high => (frame.ram x fun g single => .inl ?_)).2 here.2.1
    rw [List.mem_singleton.mp single]
    omega
  have alone : Extents.join f (Extents.join e post) = f :: Extents.join e post := by
    refine Extents.join_of_ne fun g head touch => gap ?_
    rw [← Extents.head_join head]
    exact touch
  have linked : Chain ((h.joinBack (some f.1) e.1).setNext (some f.1) e.1).ram f.1 (f :: Extents.join e post) h.pxEnd := by
    refine chain_setNext joined (by omega) kept room fun g member => ?_
    exact Nat.le_trans low (Extents.head_le_of_mem_join place.later member)
  rw [alone]
  refine ⟨Chain.replace chain cut (fun g member => (place.fits g (by simp [member])).1) ?_ (fun x below => ?_) linked,
    framed⟩
  · rw [xStart_setNext_some, xStart_joinBack]
  · refine framed.ram x fun g member => .inl ?_
    rcases List.mem_pair.mp member with rfl | rfl
    · exact Nat.lt_trans below (place.before f (by simp))
    · exact below

/-- Freed and split blocks are put at their place in the list. -/
theorem prvInsertBlockIntoFreeList_spec (chain : Chain h.ram h.xStart es h.pxEnd) (normal : Extents.Normal es)
    (size : h.size e.1 = e.2) (bound : h.pxEnd < 2 ^ 32) (fits : Fits h.pxEnd (e :: es))
    (apart : ∀ f ∈ es, e.Disjoint f) :
    ∃ h', h.prvInsertBlockIntoFreeList e.1 = some h' ∧
      Chain h'.ram h'.xStart (Extents.insert e es) h.pxEnd ∧ Frame (e :: es) h h' := by
  obtain ⟨pre, post, rfl, place⟩ := exists_place normal fits apart
  unfold prvInsertBlockIntoFreeList
  rw [place.insertionPoint_eq chain, Option.map_some]
  refine ⟨_, rfl, ?_⟩
  rcases List.eq_nil_or_concat pre with rfl | ⟨pre, f, rfl⟩
  · -- no block in front
    simp only [linkAfter_nil, joinFront, ne_eq, reduceCtorEq, not_false_eq_true, if_true, List.nil_append] at chain ⊢
    obtain ⟨joined, frame⟩ := joinBack_chain (l := none) chain size bound place.fits_post place.later (by simp)
      place.normal_post
    rw [Extents.insert_of_le place.behind]
    refine ⟨joined, (frame.mono fun g member => ?_).trans frame_setStart⟩
    exact ⟨e, by simp, by rw [List.mem_singleton.mp member]⟩
  · -- behind the block `f`
    rw [List.concat_eq_append] at *
    have ahead : f.1 < e.1 := place.before f (by simp)
    have cut := (Extents.normal_append.mp place.normal).1
    rw [List.append_assoc, List.singleton_append] at chain ⊢
    have sizeF : h.size f.1 = f.2 := (next_linkAfter (l := none) chain).2.1
    rw [linkAfter_snoc, Extents.insert_append cut ahead, Extents.insert, if_pos ahead,
      Extents.insert_of_le place.behind]
    unfold joinFront
    dsimp only
    rw [sizeF, size]
    split
    next touch =>
      rw [if_neg (by simp)]
      obtain ⟨joined, frame⟩ := joinFront_touching place chain bound touch
      exact ⟨joined, frame.mono fun g member => ⟨f, by simp, by rw [List.mem_singleton.mp member]⟩⟩
    next gap =>
      rw [if_pos (by simp only [ne_eq, Option.some.injEq]; omega)]
      obtain ⟨joined, frame⟩ := joinFront_apart place chain size bound gap
      refine ⟨joined, frame.mono fun g member => ⟨g, ?_, rfl⟩⟩
      rcases List.mem_pair.mp member with rfl | rfl <;> simp

end Heap4

end Bk7251.Kernel
