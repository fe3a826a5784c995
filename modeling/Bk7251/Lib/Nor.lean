import Mathlib.Data.List.Induction
import Bk7251.Lib.Mem

/-!
# NOR flash

Programming can only clear bits, erasing sets a whole range to ones. A byte can be programmed to
a value exactly when it still has every bit of that value.
-/
namespace Lib

namespace Nor

/-- Program `xs` from `a` on: every cell keeps only the bits it has in common with its byte. -/
def program (m : Mem UInt8) (a : Nat) (xs : List UInt8) : Mem UInt8 :=
  fun x => if a ≤ x then (xs[x - a]?).elim (m x) (m x &&& ·) else m x

def erase (m : Mem UInt8) (a n : Nat) : Mem UInt8 :=
  fun x => if a ≤ x ∧ x < a + n then 0xFF else m x

theorem and_erased (b : UInt8) : 0xFF &&& b = b := by
  apply UInt8.toBitVec_inj.mp
  rw [UInt8.toBitVec_and]
  exact BitVec.allOnes_and

theorem erase_of_lt (m : Mem UInt8) {a n x : Nat} (h : x < a) : erase m a n x = m x :=
  if_neg fun inside => absurd inside.1 (Nat.not_le.mpr h)

theorem erase_of_ge (m : Mem UInt8) {a n x : Nat} (h : a + n ≤ x) : erase m a n x = m x :=
  if_neg fun inside => absurd inside.2 (Nat.not_lt.mpr h)

theorem erase_inside (m : Mem UInt8) {a n x : Nat} (lower : a ≤ x) (upper : x < a + n) :
    erase m a n x = 0xFF := if_pos ⟨lower, upper⟩

theorem program_of_lt (m : Mem UInt8) {a x : Nat} (xs : List UInt8) (h : x < a) :
    program m a xs x = m x := if_neg (Nat.not_le.mpr h)

theorem program_of_ge (m : Mem UInt8) {a x : Nat} (xs : List UInt8) (h : a + xs.length ≤ x) :
    program m a xs x = m x := by
  have beyond : xs.length ≤ x - a := by omega
  simp [program, List.getElem?_eq_none beyond]

theorem program_getElem (m : Mem UInt8) (a : Nat) {i : Nat} {xs : List UInt8}
    (h : i < xs.length) : program m a xs (a + i) = m (a + i) &&& xs[i] := by
  simp [program, h]

@[simp] theorem program_nil (m : Mem UInt8) (a : Nat) : program m a [] = m := by
  funext x
  simp [program]

theorem program_append (m : Mem UInt8) (a : Nat) (xs ys : List UInt8) :
    program m a (xs ++ ys) = program (program m a xs) (a + xs.length) ys := by
  funext x
  by_cases low : x < a
  · rw [program_of_lt _ _ low, program_of_lt _ _ (by omega), program_of_lt _ _ low]
  obtain ⟨i, rfl⟩ := Nat.exists_eq_add_of_le (Nat.not_lt.mp low)
  by_cases first : i < xs.length
  · rw [program_getElem _ _ (by simp; omega), program_of_lt _ _ (by omega),
      program_getElem _ _ first, List.getElem_append_left first]
  by_cases second : i < xs.length + ys.length
  · obtain ⟨j, rfl⟩ := Nat.exists_eq_add_of_le (Nat.not_lt.mp first)
    have bound : j < ys.length := by omega
    rw [program_getElem _ _ (by simp; omega), ← Nat.add_assoc, program_getElem _ _ bound,
      program_of_ge _ _ (by omega)]
    simp
  · rw [program_of_ge _ _ (by simp; omega), program_of_ge _ _ (by omega),
      program_of_ge _ _ (by omega)]

/-- Programming a range with what it holds changes nothing. -/
theorem program_read (m : Mem UInt8) (a n : Nat) : program m a (m.read a n) = m := by
  funext x
  by_cases low : x < a
  · exact program_of_lt _ _ low
  by_cases high : a + n ≤ x
  · exact program_of_ge _ _ (by simpa using high)
  · obtain ⟨i, rfl⟩ := Nat.exists_eq_add_of_le (Nat.not_lt.mp low)
    rw [program_getElem _ _ (by simp; omega), Mem.getElem_read, UInt8.and_self]

/-- A page buffer that was read back around the new bytes programs only the new bytes. -/
theorem program_padded (m : Mem UInt8) (a k j : Nat) (xs : List UInt8) :
    program m a (m.read a k ++ xs ++ m.read (a + k + xs.length) j) = program m (a + k) xs := by
  have after : (program m (a + k) xs).read (a + k + xs.length) j =
      m.read (a + k + xs.length) j :=
    Mem.read_congr _ _ _ _ fun x lower _ => program_of_ge _ _ lower
  rw [program_append, program_append, program_read, List.length_append, Mem.length_read,
    ← after, ← Nat.add_assoc, program_read]

/-- A byte reads back as programmed exactly when none of its bits had to be set. -/
theorem program_eq_iff (m : Mem UInt8) (a : Nat) {i : Nat} {xs : List UInt8} (h : i < xs.length) :
    program m a xs (a + i) = xs[i] ↔ m (a + i) &&& xs[i] = xs[i] := by
  rw [program_getElem _ _ h]

/-- What is programmed into an erased range reads back. -/
theorem read_program_erased (m : Mem UInt8) (a : Nat) (xs : List UInt8)
    (erased : ∀ x, a ≤ x → x < a + xs.length → m x = 0xFF) :
    (program m a xs).read a xs.length = xs := by
  apply List.ext_getElem (by simp)
  intro i _ bound
  rw [Mem.getElem_read, program_getElem _ _ bound, erased _ (by omega) (by omega), and_erased]

theorem program_congr {m m' : Mem UInt8} {x : Nat} (same : m x = m' x) (a : Nat) (xs : List UInt8) :
    program m a xs x = program m' a xs x := by
  simp only [program, same]

theorem erase_congr {m m' : Mem UInt8} {x : Nat} (same : m x = m' x) (a n : Nat) :
    erase m a n x = erase m' a n x := by
  simp only [erase, same]

/-! ### Programming a page

A chip that takes a page at a time counts the addresses of a command within the page: behind its last byte
comes its first.
-/

section

variable (page : Nat)

/-- Program byte after byte, without leaving the page of `a`. -/
def programPage (m : Mem UInt8) (a : Nat) : List UInt8 → Mem UInt8
  | [] => m
  | b :: bs => programPage (program m a [b]) (a / page * page + (a + 1) % page) bs

variable {page}

theorem program_cons (m : Mem UInt8) (a : Nat) (b : UInt8) (bs : List UInt8) :
    program m a (b :: bs) = program (program m a [b]) (a + 1) bs :=
  program_append m a [b] bs

private theorem page_next {a : Nat} (more : a % page + 1 < page) :
    a / page * page + (a + 1) % page = a + 1 := by
  have whole := Nat.div_add_mod' a page
  rw [Nat.add_mod, Nat.mod_eq_of_lt (show 1 < page by omega), Nat.mod_eq_of_lt more]
  omega

/-- Bytes that end with the page or before are programmed where they belong. -/
theorem programPage_of_fits (m : Mem UInt8) {a : Nat} {xs : List UInt8}
    (fits : a % page + xs.length ≤ page) : programPage page m a xs = program m a xs := by
  induction xs generalizing m a with
  | nil => rw [programPage, program_nil]
  | cons b bs ih =>
    rw [programPage]
    cases bs with
    | nil => rw [programPage]
    | cons c cs =>
      simp only [List.length_cons] at fits
      have more : a % page + 1 < page := by omega
      have step : (a + 1) % page = a % page + 1 := by
        rw [Nat.add_mod, Nat.mod_eq_of_lt (show 1 < page by omega), Nat.mod_eq_of_lt more]
      rw [program_cons m a b (c :: cs), page_next more]
      apply ih
      simp only [List.length_cons]
      omega

/-- The bytes behind the end of the page go to its beginning. -/
theorem programPage_wrap (m : Mem UInt8) {a : Nat} {xs : List UInt8} (ys : List UInt8)
    (nonempty : xs ≠ []) (last : a % page + xs.length = page) :
    programPage page m a (xs ++ ys) = programPage page (program m a xs) (a / page * page) ys := by
  induction xs generalizing m a with
  | nil => exact absurd rfl nonempty
  | cons b bs ih =>
    rw [List.cons_append, programPage]
    cases bs with
    | nil =>
      have first : (a + 1) % page = 0 := by
        have whole := Nat.div_add_mod' a page
        have next : a + 1 = (a / page + 1) * page := by
          simp only [List.length_singleton] at last
          rw [Nat.succ_mul]
          omega
        rw [next, Nat.mul_mod_left]
      rw [first, Nat.add_zero, List.nil_append]
    | cons c cs =>
      simp only [List.length_cons] at last
      have more : a % page + 1 < page := by omega
      have step : (a + 1) % page = a % page + 1 := by
        rw [Nat.add_mod, Nat.mod_eq_of_lt (show 1 < page by omega), Nat.mod_eq_of_lt more]
      have same : (a + 1) / page = a / page := by
        apply Nat.div_eq_of_lt_le
        · have whole := Nat.div_add_mod' a page
          omega
        · have whole := Nat.div_add_mod' a page
          rw [Nat.succ_mul]
          omega
      rw [program_cons m a b (c :: cs), page_next more, ih (program m a [b]) (List.cons_ne_nil c cs), same]
      simp only [List.length_cons]
      omega

theorem program_zero {m : Mem UInt8} {x : Nat} (zero : m x = 0) (a : Nat) (xs : List UInt8) :
    program m a xs x = 0 := by
  simp only [program, zero]
  split
  · cases xs[x - a]? <;> simp
  · rfl

/-- A cell without bits stays so. -/
theorem programPage_zero {m : Mem UInt8} {x : Nat} (zero : m x = 0) (a : Nat) (xs : List UInt8) :
    programPage page m a xs x = 0 := by
  induction xs generalizing m a with
  | nil => exact zero
  | cons b bs ih => exact ih (program_zero zero a [b]) _

end

/-! ### Streaming into flash

A writer that programs chunk after chunk, and erases a sector only when a chunk begins exactly at
its first byte. Which sectors it erases depends on where the chunks happen to begin. -/

section

variable (size : Nat)

/-- One chunk at the writer's position. -/
def put (s : Mem UInt8 × Nat) (chunk : List UInt8) : Mem UInt8 × Nat :=
  (program (if s.2 % size = 0 then erase s.1 s.2 size else s.1) s.2 chunk, s.2 + chunk.length)

/-- Where each chunk begins. -/
def starts : Nat → List (List UInt8) → List Nat
  | _, [] => []
  | a, chunk :: chunks => a :: starts (a + chunk.length) chunks

/-- The cells with every sector erased that one of the positions begins. -/
def prepared (m : Mem UInt8) (positions : List Nat) : Mem UInt8 :=
  fun x => if x / size * size ∈ positions then 0xFF else m x

variable {size}

theorem starts_push (a : Nat) (chunks : List (List UInt8)) (chunk : List UInt8) :
    starts a (chunks ++ [chunk]) = starts a chunks ++ [a + chunks.flatten.length] := by
  induction chunks generalizing a with
  | nil => simp [starts]
  | cons first chunks ih =>
    simp only [List.cons_append, starts, ih, List.flatten_cons, List.length_append, Nat.add_assoc]

theorem starts_replicate (a n : Nat) (chunk : List UInt8) :
    starts a (List.replicate n chunk) = (List.range n).map fun i => a + i * chunk.length := by
  induction n generalizing a with
  | zero => rfl
  | succ n ih =>
    simp only [List.replicate_succ, starts, ih, List.range_succ_eq_map, List.map_cons, List.map_map,
      Function.comp_def, Nat.zero_mul, Nat.add_zero, Nat.succ_mul]
    congr 1
    exact List.map_congr_left fun i _ => by omega

theorem put_position (s : Mem UInt8 × Nat) (chunks : List (List UInt8)) :
    (chunks.foldl (put size) s).2 = s.2 + chunks.flatten.length := by
  induction chunks generalizing s with
  | nil => simp
  | cons first chunks ih => simp [ih, put, Nat.add_assoc]

/-- What a chunk does to a cell depends on that cell only. -/
theorem put_congr {m m' : Mem UInt8} {x : Nat} (same : m x = m' x) (a : Nat) (chunk : List UInt8) :
    (put size (m, a) chunk).1 x = (put size (m', a) chunk).1 x := by
  apply program_congr
  dsimp only
  split
  · exact erase_congr same a size
  · exact same

private theorem prepared_push (m : Mem UInt8) (positions : List Nat) (a : Nat) (pos : 0 < size) :
    (if a % size = 0 then erase (prepared size m positions) a size else prepared size m positions) =
      prepared size m (positions ++ [a]) := by
  funext x
  have floor := Nat.div_add_mod' x size
  have below := Nat.mod_lt x pos
  split
  next aligned =>
    have whole := Nat.div_add_mod' a size
    by_cases inside : a ≤ x ∧ x < a + size
    · -- `a` is the multiple of `size` right below `x`
      have same : x / size = a / size := by
        apply Nat.div_eq_of_lt_le
        · omega
        · rw [Nat.succ_mul]
          omega
      have start : x / size * size = a := by rw [same]; omega
      rw [erase_inside _ inside.1 inside.2, prepared, if_pos (by simp [start])]
    · have differs : x / size * size ≠ a := by omega
      rw [erase, if_neg inside]
      simp only [prepared, List.mem_append, List.mem_singleton, differs, or_false]
  next offset =>
    have differs : x / size * size ≠ a := fun same => offset (by rw [← same, Nat.mul_mod_left])
    simp only [prepared, List.mem_append, List.mem_singleton, differs, or_false]

/-- Streaming is programming the whole text over the cells with the begun sectors erased. -/
theorem put_cells (pos : 0 < size) (m : Mem UInt8) (a : Nat) (chunks : List (List UInt8)) :
    (chunks.foldl (put size) (m, a)).1 =
      program (prepared size m (starts a chunks)) a chunks.flatten := by
  induction chunks using List.reverseRecOn with
  | nil =>
    funext x
    simp [starts, prepared]
  | append_singleton chunks chunk ih =>
    have erased : ∀ P : Mem UInt8, erase (program P a chunks.flatten) (a + chunks.flatten.length) size =
        program (erase P (a + chunks.flatten.length) size) a chunks.flatten := by
      -- the sector lies behind all that was written
      intro P
      funext x
      by_cases low : x < a + chunks.flatten.length
      · rw [erase_of_lt _ low]
        exact program_congr (erase_of_lt _ low).symm _ _
      · rw [program_of_ge _ _ (by omega)]
        exact erase_congr (program_of_ge _ _ (by omega)) _ _
    rw [List.foldl_append, List.foldl_cons, List.foldl_nil, put, put_position, ih, starts_push,
      List.flatten_append, program_append, ← prepared_push m _ _ pos]
    simp only [List.flatten_cons, List.flatten_nil, List.append_nil]
    split
    · rw [erased]
    · rfl

/-- The first `n` bytes read back as written exactly when each of them lies in a sector that one of
the chunks begins, or only clears bits. -/
theorem read_put_iff (pos : 0 < size) (m : Mem UInt8) (a n : Nat) (chunks : List (List UInt8))
    (bound : n ≤ chunks.flatten.length) :
    (chunks.foldl (put size) (m, a)).1.read a n = chunks.flatten.take n ↔
      ∀ j (h : j < n), (a + j) / size * size ∈ starts a chunks ∨
        m (a + j) &&& chunks.flatten[j] = chunks.flatten[j] := by
  have cell : ∀ j (h : j < chunks.flatten.length),
      (chunks.foldl (put size) (m, a)).1 (a + j) = chunks.flatten[j] ↔
        ((a + j) / size * size ∈ starts a chunks ∨
          m (a + j) &&& chunks.flatten[j] = chunks.flatten[j]) := by
    intro j h
    rw [put_cells pos, program_eq_iff _ _ h, prepared]
    split
    next erased => simp [erased, and_erased]
    next kept => simp [kept]
  constructor
  · intro same j h
    apply (cell j (by omega)).mp
    have left : j < (Mem.read (chunks.foldl (put size) (m, a)).1 a n).length := by simpa using h
    rw [← Mem.getElem_read _ a n j left]
    simp only [same, List.getElem_take]
  · intro each
    apply List.ext_getElem
    · rw [Mem.length_read, List.length_take, Nat.min_eq_left bound]
    · intro j left right
      have h : j < n := by simpa using left
      rw [Mem.getElem_read, List.getElem_take]
      exact (cell j (by omega)).mpr (each j h)

end

end Nor

end Lib
