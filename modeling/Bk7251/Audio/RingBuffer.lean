import Bk7251.Lib.Ring
import Bk7251.Lib.Bytes

/-!
# The audio ring buffer

`driver/audio/ring_buffer.c`. The two DMA variants of the buffer repeat the pointer
arithmetic of `rb_read` and `rb_write` with one pointer read from the hardware, so
the arithmetic stands on its own here: a plan says which ranges are copied and where
the moved pointer comes to rest.
-/
namespace Bk7251.Audio

open Lib

/-- `RWP_SAFE_INTERVAL` -/
def rwpSafeInterval : UInt32 := 4

/-- One `memcpy(dst, src, len)`; one of the two offsets is into the ring. -/
structure Copy where
  dst : UInt32
  src : UInt32
  len : UInt32
  deriving DecidableEq

def Copy.apply (c : Copy) (dst src : Mem UInt8) : Mem UInt8 :=
  dst.copy c.dst.toNat src c.src.toNat c.len.toNat

/-- `if(rb->wp >= rb->capacity && rb->rp) rb->wp = 0` -/
def wrapWp (capacity rp wp : UInt32) : UInt32 := if wp ≥ capacity ∧ rp ≠ 0 then 0 else wp

/-- The branches of `rb_write`: `none` where it returns 0, otherwise the copies into the
ring and the `wp` they leave, which `wrapWp` has not seen yet. -/
def writePlan (capacity wp rp writeBytes : UInt32) : Option (List Copy × UInt32) :=
  if wp ≥ rp then
    if capacity - wp + rp ≥ writeBytes + rwpSafeInterval then
      let remainBytes := capacity - wp
      if remainBytes ≥ writeBytes then
        some ([⟨wp, 0, writeBytes⟩], wp + writeBytes)
      else
        some ([⟨wp, 0, remainBytes⟩, ⟨0, remainBytes, writeBytes - remainBytes⟩],
          writeBytes - remainBytes)
    else none
  else
    if rp - wp ≥ writeBytes + rwpSafeInterval then
      some ([⟨wp, 0, writeBytes⟩], wp + writeBytes)
    else none

/-- The branches of `rb_read`: the copies out of the ring, the new `rp` and the number of
bytes read. -/
def readPlan (capacity wp rp requiredBytes : UInt32) : List Copy × UInt32 × UInt32 :=
  if wp ≥ rp then
    let remainBytes := wp - rp
    let readBytes := if requiredBytes > remainBytes then remainBytes else requiredBytes
    ([⟨0, rp, readBytes⟩], rp + readBytes, readBytes)
  else
    let remainBytes := capacity - rp
    if requiredBytes > remainBytes then
      if requiredBytes - remainBytes > wp then
        ([⟨0, rp, remainBytes⟩, ⟨remainBytes, 0, wp⟩], wp, remainBytes + wp)
      else
        ([⟨0, rp, remainBytes⟩, ⟨remainBytes, 0, requiredBytes - remainBytes⟩],
          requiredBytes - remainBytes, requiredBytes)
    else ([⟨0, rp, requiredBytes⟩], rp + requiredBytes, requiredBytes)

/-- `RB_ST`; `address` is memory as seen from the buffer's first byte. -/
structure RbSt where
  address : Mem UInt8
  capacity : UInt32
  wp : UInt32
  rp : UInt32

def rbInit (addr : Mem UInt8) (capacity : UInt32) : RbSt := ⟨addr, capacity, 0, 0⟩

def rbClear (rb : RbSt) : RbSt := { rb with wp := 0, rp := 0 }

/-- The buffer struct, the caller's buffer and the returned `read_bytes`. -/
def rbRead (rb : RbSt) (buffer : Mem UInt8) (size count : UInt32) : RbSt × Mem UInt8 × UInt32 :=
  if size * count = 0 then (rb, buffer, 0)
  else
    let (copies, rp, readBytes) := readPlan rb.capacity rb.wp rb.rp (size * count)
    ({ rb with rp }, copies.foldl (fun b c => c.apply b rb.address) buffer, readBytes)

/-- The buffer struct and the returned `write_bytes`. -/
def rbWrite (rb : RbSt) (buffer : Mem UInt8) (size count : UInt32) : RbSt × UInt32 :=
  if size * count = 0 then (rb, 0)
  else
    match writePlan rb.capacity rb.wp rb.rp (size * count) with
    | none => (rb, 0)
    | some (copies, wp) =>
      ({ rb with
          address := copies.foldl (fun a c => c.apply a buffer) rb.address
          wp := wrapWp rb.capacity rb.rp wp },
        size * count)

def rbGetFillSize (rb : RbSt) : UInt32 :=
  if rb.wp ≥ rb.rp then rb.wp - rb.rp else rb.capacity - rb.rp + rb.wp

def rbGetFreeSize (rb : RbSt) : UInt32 :=
  let freeSize := if rb.wp ≥ rb.rp then rb.capacity - rb.wp + rb.rp else rb.rp - rb.wp
  if freeSize > rwpSafeInterval then freeSize - rwpSafeInterval else 0

/-! ### What the plans do

Both pointers rest inside the ring, the read pointer possibly at its very end, and the
gap behind the read pointer keeps a full ring apart from an empty one. -/

/-- The pointers a run can reach. -/
structure PointersOk (cap rp wp : Nat) : Prop where
  rp_le : rp ≤ cap
  wp_lt : wp < cap ∨ wp = 0
  gap : Ring.span cap rp wp = 0 ∨ Ring.span cap rp wp + 4 ≤ cap

theorem PointersOk.empty (cap : Nat) : PointersOk cap 0 0 :=
  ⟨Nat.zero_le _, Or.inr rfl, Or.inl rfl⟩

theorem PointersOk.wp_le {cap rp wp : Nat} (ok : PointersOk cap rp wp) : wp ≤ cap := by
  rcases ok.wp_lt with inside | front <;> omega

theorem PointersOk.span_le {cap rp wp : Nat} (ok : PointersOk cap rp wp) :
    Ring.span cap rp wp ≤ cap :=
  Ring.span_le _ _ _ ok.rp_le ok.wp_le

/-- A range of the ring is copied in one piece, or in two when it passes the end. -/
def Splits (cap start n : Nat) (ring flat : Copy → UInt32) (copies : List Copy) : Prop :=
  (∃ c, copies = [c] ∧ start + n ≤ cap ∧
    (ring c).toNat = start ∧ (flat c).toNat = 0 ∧ c.len.toNat = n) ∨
  (∃ c d, copies = [c, d] ∧ start ≤ cap ∧ cap ≤ start + n ∧
    (ring c).toNat = start ∧ (flat c).toNat = 0 ∧ c.len.toNat = cap - start ∧
    (ring d).toNat = 0 ∧ (flat d).toNat = cap - start ∧ d.len.toNat = start + n - cap)

theorem wrapWp_inside (capacity rp wp : UInt32) (inside : wp.toNat < capacity.toNat) :
    wrapWp capacity rp wp = wp := by
  simp only [wrapWp, ge_iff_le, UInt32.le_iff_toNat_le]
  exact if_neg (by omega)

theorem wrapWp_end (capacity rp wp : UInt32) (atEnd : wp.toNat = capacity.toNat)
    (pos : 0 < rp.toNat) : wrapWp capacity rp wp = 0 := by
  simp only [wrapWp, ge_iff_le, UInt32.le_iff_toNat_le, toNat_ne_zero]
  exact if_pos (by omega)

section

variable (capacity wp rp n : UInt32)

theorem writePlan_room (ok : PointersOk capacity.toNat rp.toNat wp.toNat)
    (small : n.toNat + 4 < 2 ^ 32)
    (room : Ring.span capacity.toNat rp.toNat wp.toNat + n.toNat + 4 ≤ capacity.toNat) :
    ∃ copies wp', writePlan capacity wp rp n = some (copies, wp') ∧
      Splits capacity.toNat wp.toNat n.toNat Copy.dst Copy.src copies ∧
      (wp'.toNat = Ring.slot capacity.toNat wp.toNat n.toNat ∧ wp'.toNat < capacity.toNat ∨
        wp' = capacity ∧ Ring.slot capacity.toNat wp.toNat n.toNat = 0 ∧
          0 < rp.toNat ∧ rp.toNat ≤ wp.toNat) := by
  obtain ⟨rpLe, wpLt, -⟩ := ok
  have gap : (n + rwpSafeInterval).toNat = n.toNat + 4 := toNat_add n _ small
  have bound := capacity.toNat_lt
  simp only [writePlan, Ring.span, ge_iff_le, UInt32.le_iff_toNat_le, gap] at *
  split at room
  next ahead =>
    have tail := toNat_sub capacity wp (by omega)
    have free := toNat_add (capacity - wp) rp (by omega)
    rw [if_pos ahead, free, tail, if_pos (by omega)]
    by_cases fits : n.toNat ≤ capacity.toNat - wp.toNat
    · have moved := toNat_add wp n (by omega)
      rw [if_pos fits]
      refine ⟨_, _, rfl, Or.inl ⟨_, rfl, by omega, rfl, rfl, rfl⟩, ?_⟩
      by_cases inside : wp.toNat + n.toNat < capacity.toNat
      · left
        rw [moved, Ring.slot, if_pos inside]
        omega
      · -- the read pointer left the front, so the write pointer may go there
        right
        rw [Ring.slot, if_neg inside]
        exact ⟨UInt32.toNat_inj.mp (by omega), by omega, by omega, by omega⟩
    · have moved := toNat_sub n (capacity - wp) (by omega)
      rw [if_neg fits]
      refine ⟨_, _, rfl, Or.inr ⟨_, _, rfl, by omega, by omega, rfl, rfl, tail, rfl, tail, ?_⟩, ?_⟩
      · rw [moved]
        omega
      · left
        rw [moved, Ring.slot, if_neg (by omega)]
        omega
  next behind =>
    have free := toNat_sub rp wp (by omega)
    have moved := toNat_add wp n (by omega)
    rw [if_neg behind, free, if_pos (by omega)]
    refine ⟨_, _, rfl, Or.inl ⟨_, rfl, by omega, rfl, rfl, rfl⟩, ?_⟩
    left
    rw [moved, Ring.slot, if_pos (by omega)]
    omega

theorem writePlan_full (ok : PointersOk capacity.toNat rp.toNat wp.toNat)
    (small : n.toNat + 4 < 2 ^ 32)
    (full : capacity.toNat < Ring.span capacity.toNat rp.toNat wp.toNat + n.toNat + 4) :
    writePlan capacity wp rp n = none := by
  obtain ⟨rpLe, wpLt, -⟩ := ok
  have gap : (n + rwpSafeInterval).toNat = n.toNat + 4 := toNat_add n _ small
  have bound := capacity.toNat_lt
  simp only [writePlan, Ring.span, ge_iff_le, UInt32.le_iff_toNat_le, gap] at *
  split at full
  next ahead =>
    have tail := toNat_sub capacity wp (by omega)
    have free := toNat_add (capacity - wp) rp (by omega)
    rw [if_pos ahead, free, tail, if_neg (by omega)]
  next behind =>
    have free := toNat_sub rp wp (by omega)
    rw [if_neg behind, free, if_neg (by omega)]

theorem readPlan_spec (rpLe : rp.toNat ≤ capacity.toNat) (wpLe : wp.toNat ≤ capacity.toNat) :
    ∃ copies rp' k, readPlan capacity wp rp n = (copies, rp', k) ∧
      k.toNat = min n.toNat (Ring.span capacity.toNat rp.toNat wp.toNat) ∧
      Splits capacity.toNat rp.toNat k.toNat Copy.src Copy.dst copies ∧
      Ring.span capacity.toNat rp'.toNat wp.toNat =
        Ring.span capacity.toNat rp.toNat wp.toNat - k.toNat ∧
      (rp'.toNat = Ring.slot capacity.toNat rp.toNat k.toNat ∨
        rp' = capacity ∧ Ring.slot capacity.toNat rp.toNat k.toNat = 0) := by
  have bound := capacity.toNat_lt
  simp only [readPlan, Ring.span, ge_iff_le, gt_iff_lt, UInt32.le_iff_toNat_le,
    UInt32.lt_iff_toNat_lt]
  by_cases ahead : rp.toNat ≤ wp.toNat
  · -- no wrap: one copy of what is there, at most
    have filled := toNat_sub wp rp ahead
    rw [if_pos ahead, if_pos ahead, filled]
    generalize hk : (if wp.toNat - rp.toNat < n.toNat then wp - rp else n) = k
    have taken : k.toNat = min n.toNat (wp.toNat - rp.toNat) := by
      rw [← hk]
      split <;> omega
    have moved := toNat_add rp k (by omega)
    refine ⟨_, _, _, rfl, taken, Or.inl ⟨_, rfl, by omega, rfl, rfl, rfl⟩, ?_, ?_⟩
    · rw [moved, if_pos (by omega)]
      omega
    · by_cases inside : rp.toNat + k.toNat < capacity.toNat
      · left
        rw [moved, Ring.slot, if_pos inside]
      · -- all there is was read, up to a write pointer at the very end
        right
        rw [Ring.slot, if_neg inside]
        exact ⟨UInt32.toNat_inj.mp (by omega), by omega⟩
  · have tail := toNat_sub capacity rp rpLe
    rw [if_neg ahead, if_neg ahead, tail]
    by_cases past : capacity.toNat - rp.toNat < n.toNat
    · have beyond := toNat_sub n (capacity - rp) (by omega)
      rw [if_pos past, beyond, tail]
      by_cases all : wp.toNat < n.toNat - (capacity.toNat - rp.toNat)
      · -- the request asks for more than the front holds
        have total := toNat_add (capacity - rp) wp (by omega)
        rw [if_pos all]
        refine ⟨_, _, _, rfl, by omega, Or.inr ⟨_, _, rfl, rpLe, by omega, rfl, rfl, tail, rfl,
          tail, ?_⟩, ?_, Or.inl ?_⟩
        · change wp.toNat = _
          omega
        · rw [if_pos (Nat.le_refl _)]
          omega
        · rw [total, tail, Ring.slot]
          split <;> omega
      · rw [if_neg all]
        refine ⟨_, _, _, rfl, by omega, Or.inr ⟨_, _, rfl, rpLe, by omega, rfl, rfl, tail, rfl,
          tail, ?_⟩, ?_, Or.inl ?_⟩
        · rw [beyond, tail]
          omega
        · rw [beyond, tail, if_pos (by omega)]
          omega
        · rw [beyond, tail, Ring.slot]
          split <;> omega
    · -- the request ends before the ring does, or exactly there: then `rp` stays at `capacity`
      have moved := toNat_add rp n (by omega)
      rw [if_neg past]
      refine ⟨_, _, _, rfl, by omega, Or.inl ⟨_, rfl, by omega, rfl, rfl, rfl⟩, ?_, ?_⟩
      · rw [moved, if_neg (by omega)]
        omega
      · by_cases inside : rp.toNat + n.toNat < capacity.toNat
        · left
          rw [moved, Ring.slot, if_pos inside]
        · right
          rw [Ring.slot, if_neg inside]
          exact ⟨UInt32.toNat_inj.mp (by omega), by omega⟩

end

theorem Splits.start_le {cap start n : Nat} {ring flat : Copy → UInt32} {copies : List Copy}
    (split : Splits cap start n ring flat copies) : start ≤ cap := by
  rcases split with ⟨_, -, inside, -⟩ | ⟨_, _, -, inside, -⟩ <;> omega

/-- The copies of a write store the block in the ring. -/
theorem Splits.foldl_store {cap start n : Nat} {copies : List Copy}
    (split : Splits cap start n Copy.dst Copy.src copies) (mem buffer : Mem UInt8) :
    copies.foldl (fun a c => c.apply a buffer) mem = Ring.store mem cap start (buffer.read 0 n) := by
  rw [← Ring.copies_eq_store]
  rcases split with ⟨c, rfl, flat, hd, hs, hl⟩ |
    ⟨c, d, rfl, inside, past, hd, hs, hl, hd', hs', hl'⟩
  · -- the second copy is empty
    rw [Nat.min_eq_left (by omega), Nat.sub_self]
    simp only [List.foldl_cons, List.foldl_nil, Copy.apply, Mem.copy, hd, hs, hl, Mem.read_zero,
      Mem.write_nil]
  · have rest : n - (cap - start) = start + n - cap := by omega
    rw [Nat.min_eq_right (by omega), rest]
    simp only [List.foldl_cons, List.foldl_nil, Copy.apply, hd, hs, hl, hd', hs', hl']

/-- Copying into the ring right behind a window extends the window by the block. -/
theorem Splits.store {cap start n : Nat} {copies : List Copy}
    (split : Splits cap start n Copy.dst Copy.src copies) (mem buffer : Mem UInt8) (rp filled : Nat)
    (hr : rp ≤ cap) (behind : Ring.slot cap rp filled = start) (room : filled + n ≤ cap) :
    Ring.contents (copies.foldl (fun a c => c.apply a buffer) mem) cap rp (filled + n) =
        Ring.contents mem cap rp filled ++ buffer.read 0 n ∧
      ∀ x, cap ≤ x → copies.foldl (fun a c => c.apply a buffer) mem x = mem x := by
  rw [split.foldl_store]
  constructor
  · have stored := Ring.contents_store mem cap rp filled (buffer.read 0 n) hr
      (by rw [Mem.length_read]; exact room)
    rwa [behind, Mem.length_read] at stored
  · intro x beyond
    exact Ring.store_frame _ _ _ _ _ split.start_le (by rw [Mem.length_read]; omega) beyond

/-- The copies of a read load the block into the caller's buffer. -/
theorem Splits.foldl_load {cap start n : Nat} {copies : List Copy}
    (split : Splits cap start n Copy.src Copy.dst copies) (mem buffer : Mem UInt8) :
    copies.foldl (fun b c => c.apply b mem) buffer = buffer.write 0 (Ring.load mem cap start n) := by
  rw [← Ring.copies_eq_load]
  rcases split with ⟨c, rfl, flat, hs, hd, hl⟩ |
    ⟨c, d, rfl, inside, past, hs, hd, hl, hs', hd', hl'⟩
  · -- the second copy is empty
    rw [Nat.min_eq_left (by omega), Nat.sub_self]
    simp only [List.foldl_cons, List.foldl_nil, Copy.apply, Mem.copy, hd, hs, hl, Mem.read_zero,
      Mem.write_nil]
  · have rest : n - (cap - start) = start + n - cap := by omega
    rw [Nat.min_eq_right (by omega), rest]
    simp only [List.foldl_cons, List.foldl_nil, Copy.apply, hd, hs, hl, hd', hs', hl']

/-- Copying out of the ring delivers the window and touches nothing behind it. -/
theorem Splits.load {cap start n : Nat} {copies : List Copy}
    (split : Splits cap start n Copy.src Copy.dst copies) (mem buffer : Mem UInt8)
    (hn : n ≤ cap) :
    (copies.foldl (fun b c => c.apply b mem) buffer).read 0 n = Ring.contents mem cap start n ∧
      ∀ x, n ≤ x → copies.foldl (fun b c => c.apply b mem) buffer x = buffer x := by
  rw [split.foldl_load]
  exact Ring.read_write_load _ _ _ _ _ split.start_le hn

end Bk7251.Audio
