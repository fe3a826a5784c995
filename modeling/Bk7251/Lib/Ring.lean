import Bk7251.Lib.Mem

/-!
# Circular windows of a memory

The cells `[0, cap)` of a memory seen as a ring. A window is a run of cells that
starts at some offset and wraps once past the end.
-/
namespace Lib

namespace Ring

variable {α : Type*}

/-- The offset `i` cells after `start`. -/
def slot (cap start i : Nat) : Nat := if start + i < cap then start + i else start + i - cap

/-- The `n` cells from `start` on, each with its offset. -/
def window (m : Mem α) (cap start n : Nat) : List (Nat × α) :=
  (List.range n).map fun i => (slot cap start i, m (slot cap start i))

/-- The contents of the `n` cells from `start` on. -/
def contents (m : Mem α) (cap start n : Nat) : List α :=
  (List.range n).map fun i => m (slot cap start i)

theorem slot_lt (cap start i : Nat) (hs : start ≤ cap) (hi : i < cap) : slot cap start i < cap := by
  unfold slot
  split <;> omega

theorem slot_zero (cap start : Nat) (hs : start < cap) : slot cap start 0 = start := by
  simp [slot, hs]

/-- Distinct steps below the capacity reach distinct offsets. -/
theorem slot_ne (cap start i j : Nat) (hi : i < j) (hj : j < cap) :
    slot cap start i ≠ slot cap start j := by
  unfold slot
  split <;> split <;> omega

theorem slot_slot (cap start i j : Nat) (hs : start ≤ cap) (hij : i + j < cap) :
    slot cap (slot cap start i) j = slot cap start (i + j) := by
  unfold slot
  split <;> split <;> split <;> omega

/-- A counter that runs freely, reduced by the capacity. -/
theorem slot_eq_mod (cap start i : Nat) (hs : start < cap) (hi : i ≤ cap) :
    slot cap start i = (start + i) % cap := by
  unfold slot
  split
  next flat => exact (Nat.mod_eq_of_lt flat).symm
  next wrap => rw [Nat.mod_eq_sub_mod (Nat.not_lt.mp wrap), Nat.mod_eq_of_lt (by omega)]

/-- Behind the last cell comes the first. -/
theorem slot_tail (cap start : Nat) (hs : start ≤ cap) : slot cap start (cap - start) = 0 := by
  unfold slot
  split <;> omega

/-- How many cells lie from `rp` up to `wp`. -/
def span (cap rp wp : Nat) : Nat := if rp ≤ wp then wp - rp else cap - rp + wp

theorem span_le (cap rp wp : Nat) (hr : rp ≤ cap) (hw : wp ≤ cap) : span cap rp wp ≤ cap := by
  unfold span
  split <;> omega

theorem slot_span (cap rp wp : Nat) (hr : rp ≤ cap) (hw : wp < cap ∨ wp = 0) :
    slot cap rp (span cap rp wp) = wp := by
  unfold slot span
  split <;> split <;> omega

theorem span_slot_left (cap rp wp k : Nat) (hr : rp ≤ cap) (hw : wp < cap ∨ wp = 0)
    (hk : k ≤ span cap rp wp) : span cap (slot cap rp k) wp = span cap rp wp - k := by
  unfold span slot at *
  split at hk <;> split <;> split <;> omega

theorem span_slot_right (cap rp wp k : Nat) (hr : rp ≤ cap)
    (hk : span cap rp wp + k < cap) : span cap rp (slot cap wp k) = span cap rp wp + k := by
  unfold span slot at *
  split at hk <;> split <;> split <;> omega

theorem span_eq_zero (cap rp wp : Nat) (hr : rp < cap) : span cap rp wp = 0 ↔ rp = wp := by
  unfold span
  split <;> omega

theorem span_end (cap wp : Nat) (hw : wp < cap ∨ wp = 0) : span cap cap wp = span cap 0 wp := by
  unfold span
  split <;> split <;> omega

@[simp] theorem length_window (m : Mem α) (cap start n : Nat) :
    (window m cap start n).length = n := by
  simp [window]

@[simp] theorem length_contents (m : Mem α) (cap start n : Nat) :
    (contents m cap start n).length = n := by
  simp [contents]

@[simp] theorem window_zero (m : Mem α) (cap start : Nat) : window m cap start 0 = [] := rfl

@[simp] theorem contents_zero (m : Mem α) (cap start : Nat) : contents m cap start 0 = [] := rfl

theorem contents_add (m : Mem α) (cap start n k : Nat) (hs : start ≤ cap) (hk : n + k ≤ cap) :
    contents m cap start (n + k) = contents m cap start n ++ contents m cap (slot cap start n) k := by
  rw [contents, List.range_add, List.map_append, List.map_map]
  congr 1
  apply List.map_congr_left
  intro i member
  have bound := List.mem_range.mp member
  simp only [Function.comp_apply, slot_slot cap start n i hs (by omega)]

theorem window_add (m : Mem α) (cap start n k : Nat) (hs : start ≤ cap) (hk : n + k ≤ cap) :
    window m cap start (n + k) = window m cap start n ++ window m cap (slot cap start n) k := by
  rw [window, List.range_add, List.map_append, List.map_map]
  congr 1
  apply List.map_congr_left
  intro i member
  have bound := List.mem_range.mp member
  simp only [Function.comp_apply, slot_slot cap start n i hs (by omega)]

theorem window_succ (m : Mem α) (cap start n : Nat) (hs : start < cap) (hn : n + 1 ≤ cap) :
    window m cap start (n + 1) = (start, m start) :: window m cap (slot cap start 1) n := by
  rw [Nat.add_comm, window_add m cap start 1 n (by omega) (by omega)]
  simp [window, slot_zero cap start hs]

theorem contents_congr (m m' : Mem α) (cap start n : Nat)
    (same : ∀ i < n, m (slot cap start i) = m' (slot cap start i)) :
    contents m cap start n = contents m' cap start n := by
  apply List.map_congr_left
  intro i member
  exact same i (List.mem_range.mp member)

theorem window_congr (m m' : Mem α) (cap start n : Nat)
    (same : ∀ i < n, m (slot cap start i) = m' (slot cap start i)) :
    window m cap start n = window m' cap start n := by
  apply List.map_congr_left
  intro i member
  rw [same i (List.mem_range.mp member)]

/-- A window that does not pass the end is an ordinary range. -/
theorem contents_flat (m : Mem α) (cap start n : Nat) (flat : start + n ≤ cap) :
    contents m cap start n = m.read start n := by
  apply List.map_congr_left
  intro i member
  have bound := List.mem_range.mp member
  simp only [slot, if_pos (show start + i < cap by omega)]

/-- Starting at the very end is starting at the front. -/
theorem contents_end (m : Mem α) (cap n : Nat) (hn : n ≤ cap) :
    contents m cap cap n = contents m cap 0 n := by
  apply List.map_congr_left
  intro i member
  have bound := List.mem_range.mp member
  have same : slot cap cap i = slot cap 0 i := by
    unfold slot
    split <;> split <;> omega
  rw [same]

theorem window_end (m : Mem α) (cap n : Nat) (hn : n ≤ cap) :
    window m cap cap n = window m cap 0 n := by
  apply List.map_congr_left
  intro i member
  have bound := List.mem_range.mp member
  have same : slot cap cap i = slot cap 0 i := by
    unfold slot
    split <;> split <;> omega
  rw [same]

theorem window_drop (m : Mem α) (cap start n k : Nat) (hs : start ≤ cap) (hk : k ≤ n)
    (hn : n ≤ cap) :
    (window m cap start n).drop k = window m cap (slot cap start k) (n - k) := by
  obtain ⟨rest, rfl⟩ := Nat.exists_eq_add_of_le hk
  rw [window_add m cap start k rest hs hn, Nat.add_sub_cancel_left]
  exact List.drop_left' (by simp)

/-- A window that passes the end is the tail of the ring followed by its front. -/
theorem contents_wrap (m : Mem α) (cap start n : Nat) (hs : start ≤ cap) (hn : n ≤ cap)
    (wrap : cap ≤ start + n) :
    contents m cap start n = m.read start (cap - start) ++ m.read 0 (start + n - cap) := by
  have split : n = (cap - start) + (start + n - cap) := by omega
  conv_lhs => rw [split]
  rw [contents_add m cap start _ _ hs (by omega),
    contents_flat m cap start (cap - start) (by omega)]
  congr 1
  by_cases empty : start + n - cap = 0
  · simp [empty]
  · rw [slot_tail cap start hs, contents_flat _ _ _ _ (by omega)]

/-- A range that starts where a window stops, and fits, misses that window. -/
theorem slot_apart (cap start n k i : Nat) (room : n + k ≤ cap) (hi : i < n) :
    slot cap start i < slot cap start n ∨ slot cap start n + k ≤ slot cap start i := by
  unfold slot
  split <;> split <;> omega

/-- Storing right behind a window extends it. -/
theorem contents_write (m : Mem α) (cap start n : Nat) (xs : List α) (hs : start ≤ cap)
    (room : n + xs.length ≤ cap) (flat : slot cap start n + xs.length ≤ cap) :
    contents (m.write (slot cap start n) xs) cap start (n + xs.length) =
      contents m cap start n ++ xs := by
  rw [contents_add _ _ _ _ _ hs room, contents_flat _ _ (slot cap start n) _ flat,
    Mem.read_write_self]
  congr 1
  apply contents_congr
  intro i hi
  rcases slot_apart cap start n xs.length i room hi with below | above
  · exact Mem.write_of_lt _ _ _ _ below
  · exact Mem.write_of_ge _ _ _ _ above

/-- Store `xs` from `start` on in two copies, the second one at the front of the ring. -/
def store (m : Mem α) (cap start : Nat) (xs : List α) : Mem α :=
  (m.write start (xs.take (cap - start))).write 0 (xs.drop (cap - start))

/-- Read `n` cells from `start` on in two copies, the second one from the front of the ring. -/
def load (m : Mem α) (cap start n : Nat) : List α :=
  m.read start (min n (cap - start)) ++ m.read 0 (n - min n (cap - start))

theorem load_eq_contents (m : Mem α) (cap start n : Nat) (hs : start ≤ cap) (hn : n ≤ cap) :
    load m cap start n = contents m cap start n := by
  by_cases flat : start + n ≤ cap
  · rw [load, Nat.min_eq_left (by omega), Nat.sub_self, Mem.read_zero, List.append_nil,
      contents_flat _ _ _ _ flat]
  · rw [load, Nat.min_eq_right (by omega), contents_wrap _ _ _ _ hs hn (by omega)]
    congr 2
    omega

/-- The two copies that store a block of another memory. -/
theorem copies_eq_store (m src : Mem α) (cap start n : Nat) :
    (m.copy start src 0 (min n (cap - start))).copy 0 src (min n (cap - start))
        (n - min n (cap - start)) =
      store m cap start (src.read 0 n) := by
  have rest : (src.read 0 n).drop (cap - start) =
      src.read (min n (cap - start)) (n - min n (cap - start)) := by
    rw [Mem.drop_read, Nat.zero_add]
    by_cases past : cap - start ≤ n
    · rw [Nat.min_eq_right past]
    · have none : n - (cap - start) = 0 := by omega
      rw [Nat.min_eq_left (by omega), Nat.sub_self, none, Mem.read_zero, Mem.read_zero]
  rw [store, Mem.take_read, rest]
  rfl

/-- The two copies that load a block into another memory. -/
theorem copies_eq_load (dst m : Mem α) (cap start n : Nat) :
    (dst.copy 0 m start (min n (cap - start))).copy (min n (cap - start)) m 0
        (n - min n (cap - start)) =
      dst.write 0 (load m cap start n) := by
  rw [load, Mem.write_append, Mem.length_read, Nat.zero_add]
  rfl

/-- What is loaded is what the ring holds, and nothing behind it is touched. -/
theorem read_write_load (dst m : Mem α) (cap start n : Nat) (hs : start ≤ cap) (hn : n ≤ cap) :
    (dst.write 0 (load m cap start n)).read 0 n = contents m cap start n ∧
      ∀ x, n ≤ x → dst.write 0 (load m cap start n) x = dst x := by
  rw [load_eq_contents _ _ _ _ hs hn]
  constructor
  · have loaded := Mem.read_write_self dst 0 (contents m cap start n)
    rwa [length_contents] at loaded
  · intro x beyond
    exact Mem.write_of_ge _ _ _ _ (by rw [length_contents]; omega)

theorem store_frame (m : Mem α) (cap start x : Nat) (xs : List α) (hs : start ≤ cap)
    (room : xs.length ≤ cap) (hx : cap ≤ x) : store m cap start xs x = m x := by
  rw [store, Mem.write_of_ge _ _ _ _ (by rw [List.length_drop]; omega),
    Mem.write_of_ge _ _ _ _ (by rw [List.length_take]; omega)]

/-- Storing in two copies right behind a window extends it. -/
theorem contents_store (m : Mem α) (cap start n : Nat) (xs : List α) (hs : start ≤ cap)
    (room : n + xs.length ≤ cap) :
    contents (store m cap (slot cap start n) xs) cap start (n + xs.length) =
      contents m cap start n ++ xs := by
  have inside : slot cap start n ≤ cap := by
    unfold slot
    split <;> omega
  by_cases flat : slot cap start n + xs.length ≤ cap
  · rw [store, List.take_of_length_le (by omega), List.drop_eq_nil_of_le (by omega), Mem.write_nil]
    exact contents_write m cap start n xs hs room flat
  · -- the block is cut at the end of the ring; its rest goes to the front
    obtain ⟨first, rest, rfl, cut⟩ : ∃ first rest, xs = first ++ rest ∧
        first.length = cap - slot cap start n :=
      ⟨_, _, (List.take_append_drop (cap - slot cap start n) xs).symm, by
        rw [List.length_take]
        omega⟩
    rw [List.length_append] at room flat ⊢
    have front : slot cap start (n + first.length) = 0 := by
      rw [← slot_slot _ _ _ _ hs (by omega), cut]
      exact slot_tail _ _ inside
    have second := contents_write (m.write (slot cap start n) first) cap start (n + first.length) rest hs
      (by omega) (by omega)
    rw [store, ← cut, List.take_left, List.drop_left, ← Nat.add_assoc, ← front, second,
      contents_write _ _ _ _ _ hs (by omega) (by omega), List.append_assoc]

theorem contents_drop (m : Mem α) (cap start n k : Nat) (hs : start ≤ cap) (hk : k ≤ n)
    (hn : n ≤ cap) :
    (contents m cap start n).drop k = contents m cap (slot cap start k) (n - k) := by
  obtain ⟨rest, rfl⟩ := Nat.exists_eq_add_of_le hk
  rw [contents_add m cap start k rest hs hn, Nat.add_sub_cancel_left]
  exact List.drop_left' (by simp)

theorem contents_take (m : Mem α) (cap start n k : Nat) (hk : k ≤ n) :
    (contents m cap start n).take k = contents m cap start k := by
  rw [contents, ← List.map_take, List.take_range, Nat.min_eq_left hk, contents]

/-- A cell stored right behind a window joins it. -/
theorem window_push (m : Mem α) (cap start n : Nat) (x : α) (hs : start ≤ cap) (hn : n < cap) :
    window (m.write (slot cap start n) [x]) cap start (n + 1) =
      window m cap start n ++ [(slot cap start n, x)] := by
  have inside := slot_lt cap start n hs hn
  have cell := Mem.write_getElem m (slot cap start n) 0 [x] (by simp)
  rw [window_add _ cap start n 1 hs (by omega)]
  congr 1
  · apply window_congr
    intro i hi
    rcases slot_apart cap start n 1 i (by omega) hi with below | above
    · exact Mem.write_of_lt _ _ _ _ below
    · exact Mem.write_of_ge _ _ _ _ above
  · simpa [window, slot_zero cap _ inside] using cell

end Ring

end Lib
