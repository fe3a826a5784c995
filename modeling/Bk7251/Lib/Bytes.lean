import Mathlib.Tactic.IntervalCases
import Bk7251.Lib.Mem

/-!
# Words in memory

Little-endian words as lists of bytes, loads and stores of words, and the exchange of
byte orders; sums and differences that do not wrap.
-/
namespace Lib

theorem toNat_sub (a b : UInt32) (h : b.toNat ≤ a.toNat) : (a - b).toNat = a.toNat - b.toNat :=
  UInt32.toNat_sub_of_le a b (UInt32.le_iff_toNat_le.mpr h)

theorem toNat_add (a b : UInt32) (h : a.toNat + b.toNat < 2 ^ 32) :
    (a + b).toNat = a.toNat + b.toNat := by
  rw [UInt32.toNat_add]
  exact Nat.mod_eq_of_lt h

theorem toNat_ne_zero (a : UInt32) : a ≠ 0 ↔ a.toNat ≠ 0 := by
  rw [← UInt32.toNat_inj.ne]
  rfl

theorem toNat_pred (a : UInt32) (h : a ≠ 0) : (a - 1).toNat = a.toNat - 1 :=
  toNat_sub a 1 (Nat.one_le_iff_ne_zero.mpr ((toNat_ne_zero a).mp h))

theorem add_ofNat_succ (x : UInt32) (k : Nat) : x + 1 + UInt32.ofNat k = x + UInt32.ofNat (k + 1) := by
  rw [Nat.add_comm k 1, UInt32.ofNat_add, ← UInt32.add_assoc]
  rfl

/-- The macro `min` of C at unsigned words. -/
def min32 (x y : UInt32) : UInt32 := if x < y then x else y

theorem toNat_min32 (x y : UInt32) : (min32 x y).toNat = min x.toNat y.toNat := by
  simp only [min32, UInt32.lt_iff_toNat_lt]
  split <;> omega

/-- The four bytes of a word, the least significant first. -/
def toLe32 (w : UInt32) : List UInt8 :=
  [w.toUInt8, (w / 256).toUInt8, (w / 65536).toUInt8, (w / 16777216).toUInt8]

def ofLe32 (a b c d : UInt8) : UInt32 :=
  UInt32.ofNat (a.toNat + 256 * b.toNat + 65536 * c.toNat + 16777216 * d.toNat)

def ofLe16 (a b : UInt8) : UInt16 := UInt16.ofNat (a.toNat + 256 * b.toNat)

def toLe16 (w : UInt16) : List UInt8 := [w.toUInt8, (w / 256).toUInt8]

@[simp] theorem length_toLe32 (w : UInt32) : (toLe32 w).length = 4 := rfl

@[simp] theorem length_toLe16 (w : UInt16) : (toLe16 w).length = 2 := rfl

theorem ofLe32_toLe32 (w : UInt32) :
    ofLe32 w.toUInt8 (w / 256).toUInt8 (w / 65536).toUInt8 (w / 16777216).toUInt8 = w := by
  apply UInt32.toNat_inj.mp
  have bound := w.toNat_lt
  simp only [ofLe32, UInt32.toNat_toUInt8, UInt32.toNat_div, UInt32.toNat_ofNat', UInt32.reduceToNat]
  omega

theorem toLe32_ofLe32 (a b c d : UInt8) : toLe32 (ofLe32 a b c d) = [a, b, c, d] := by
  have ha := a.toNat_lt
  have hb := b.toNat_lt
  have hc := c.toNat_lt
  have hd := d.toNat_lt
  have value : (ofLe32 a b c d).toNat =
      a.toNat + 256 * b.toNat + 65536 * c.toNat + 16777216 * d.toNat := by
    rw [ofLe32, UInt32.toNat_ofNat']
    omega
  simp only [toLe32, List.cons.injEq, and_true]
  refine ⟨?_, ?_, ?_, ?_⟩ <;> apply UInt8.toNat_inj.mp <;>
    simp only [UInt32.toNat_toUInt8, UInt32.toNat_div, UInt32.reduceToNat, value] <;> omega

theorem ofLe16_toLe16 (w : UInt16) : ofLe16 w.toUInt8 (w / 256).toUInt8 = w := by
  apply UInt16.toNat_inj.mp
  have bound := w.toNat_lt
  simp only [ofLe16, UInt16.toNat_toUInt8, UInt16.toNat_div, UInt16.toNat_ofNat', UInt16.reduceToNat]
  omega

namespace Mem

/-- The word at `a`. -/
def load32 (m : Mem UInt8) (a : Nat) : UInt32 := ofLe32 (m a) (m (a + 1)) (m (a + 2)) (m (a + 3))

def load16 (m : Mem UInt8) (a : Nat) : UInt16 := ofLe16 (m a) (m (a + 1))

theorem load32_of_read {m : Mem UInt8} {a : Nat} {w : UInt32} (stored : m.read a 4 = toLe32 w) :
    m.load32 a = w := by
  simp only [read, toLe32, List.range_succ, List.range_zero, List.nil_append, List.cons_append,
    List.map_cons, List.map_nil, List.cons.injEq, Nat.add_zero, and_true] at stored
  obtain ⟨h0, h1, h2, h3⟩ := stored
  rw [load32, h0, h1, h2, h3, ofLe32_toLe32]

end Mem

/-- `memcpy(&buf[at], xs, xs.length)` inside a buffer. -/
def splice (buf : List UInt8) (at' : Nat) (xs : List UInt8) : List UInt8 :=
  buf.take at' ++ xs ++ buf.drop (at' + xs.length)

theorem splice_append (front old back xs : List UInt8) (same : old.length = xs.length) :
    splice (front ++ (old ++ back)) front.length xs = front ++ (xs ++ back) := by
  rw [splice, List.take_left, ← same, ← List.length_append, ← List.append_assoc front,
    List.drop_left, List.append_assoc]

/-- A part of the middle is written over. -/
theorem splice_inside (front mid back : List UInt8) {k : Nat} {xs : List UInt8}
    (inside : k + xs.length ≤ mid.length) :
    splice (front ++ (mid ++ back)) (front.length + k) xs = front ++ (splice mid k xs ++ back) := by
  have before : (front ++ (mid ++ back)).take (front.length + k) = front ++ mid.take k := by
    rw [List.take_length_add_append, List.take_append_of_le_length (by omega)]
  have after : (front ++ (mid ++ back)).drop (front.length + k + xs.length) =
      mid.drop (k + xs.length) ++ back := by
    rw [Nat.add_assoc, List.drop_length_add_append, List.drop_append_of_le_length inside]
  simp only [splice, before, after, List.append_assoc]

theorem length_splice {buf xs : List UInt8} {at' : Nat} (fits : at' + xs.length ≤ buf.length) :
    (splice buf at' xs).length = buf.length := by
  simp only [splice, List.length_append, List.length_take, List.length_drop]
  omega

theorem getElem?_splice {buf xs : List UInt8} {at' : Nat} (fits : at' + xs.length ≤ buf.length) (i : Nat) :
    (splice buf at' xs)[i]? = if at' ≤ i ∧ i < at' + xs.length then xs[i - at']? else buf[i]? := by
  have front : (buf.take at').length = at' := by
    rw [List.length_take]
    omega
  rw [splice]
  split
  next inside =>
    rw [List.getElem?_append_left (by rw [List.length_append]; omega),
      List.getElem?_append_right (by omega), front]
  next outside =>
    by_cases before : i < at'
    · rw [List.getElem?_append_left (by rw [List.length_append]; omega),
        List.getElem?_append_left (by omega), List.getElem?_take, if_pos before]
    · rw [List.getElem?_append_right (by rw [List.length_append]; omega), List.getElem?_drop,
        List.length_append, front]
      congr 1
      omega

theorem take_splice {buf : List UInt8} {at' : Nat} (inside : at' ≤ buf.length) (xs : List UInt8) :
    (splice buf at' xs).take at' = buf.take at' := by
  have front : (buf.take at').length = at' := by
    rw [List.length_take]
    exact Nat.min_eq_left inside
  rw [splice, List.append_assoc, List.take_append_of_le_length (Nat.le_of_eq front.symm),
    List.take_of_length_le (Nat.le_of_eq front)]

/-- A word with its bytes in the opposite order. -/
def swap32 (x : UInt32) : UInt32 :=
  (x &&& 0x000000ff) <<< 24 ||| (x &&& 0x0000ff00) <<< 8 |||
    (x &&& 0x00ff0000) >>> 8 ||| (x &&& 0xff000000) >>> 24

theorem getLsbD_swap32 (x : UInt32) (i : Nat) (h : i < 32) :
    (swap32 x).toBitVec.getLsbD i = x.toBitVec.getLsbD (24 - 8 * (i / 8) + i % 8) := by
  simp only [swap32, UInt32.toBitVec_or, UInt32.toBitVec_shiftLeft, UInt32.toBitVec_shiftRight,
    UInt32.toBitVec_and]
  interval_cases i <;> simp

theorem eq_of_bits {x y : UInt32}
    (same : ∀ i < 32, x.toBitVec.getLsbD i = y.toBitVec.getLsbD i) : x = y :=
  UInt32.toBitVec_inj.mp (BitVec.eq_of_getLsbD_eq same)

@[simp] theorem swap32_swap32 (x : UInt32) : swap32 (swap32 x) = x := by
  apply eq_of_bits
  intro i h
  rw [getLsbD_swap32 _ _ h, getLsbD_swap32 _ _ (by omega)]
  congr 1
  omega

theorem swap32_inj {x y : UInt32} : swap32 x = swap32 y ↔ x = y := by
  constructor
  · intro same
    rw [← swap32_swap32 x, same, swap32_swap32]
  · exact congrArg swap32

theorem swap32_and (x y : UInt32) : swap32 (x &&& y) = swap32 x &&& swap32 y := by
  apply eq_of_bits
  intro i h
  simp only [UInt32.toBitVec_and, BitVec.getLsbD_and, getLsbD_swap32 _ _ h]

theorem swap32_or (x y : UInt32) : swap32 (x ||| y) = swap32 x ||| swap32 y := by
  apply eq_of_bits
  intro i h
  simp only [UInt32.toBitVec_or, BitVec.getLsbD_or, getLsbD_swap32 _ _ h]

/-- Bits chosen outside a mask do not change what the mask selects. -/
theorem or_and_not_and (net host mask : UInt32) :
    (net &&& mask ||| (host &&& ~~~mask)) &&& mask = net &&& mask := by
  apply eq_of_bits
  intro i h
  simp only [UInt32.toBitVec_and, UInt32.toBitVec_or, UInt32.toBitVec_not, BitVec.getLsbD_and,
    BitVec.getLsbD_or, BitVec.getLsbD_not]
  cases net.toBitVec.getLsbD i <;> cases mask.toBitVec.getLsbD i <;> simp [h]

end Lib
