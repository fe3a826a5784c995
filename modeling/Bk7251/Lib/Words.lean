import Bk7251.Lib.Bytes

/-!
# Words as numbers

A word of memory read and stored as a number: reading gives back what was stored where it fits in 32
bits, and a store shows nowhere else.
-/
namespace Lib

namespace Mem

/-- The word at `a`. -/
def word (m : Mem UInt8) (a : Nat) : Nat := (m.load32 a).toNat

/-- Store the low 32 bits of `v` at `a`. -/
def setWord (m : Mem UInt8) (a v : Nat) : Mem UInt8 := m.write a (toLe32 (UInt32.ofNat v))

variable {m m' : Mem UInt8} {a b v x : Nat}

theorem word_lt (m : Mem UInt8) (a : Nat) : m.word a < 2 ^ 32 := (m.load32 a).toNat_lt

theorem word_congr (same : ∀ x, a ≤ x → x < a + 4 → m x = m' x) : m.word a = m'.word a := by
  simp only [word, load32, same a (Nat.le_refl _) (by omega), same (a + 1) (by omega) (by omega),
    same (a + 2) (by omega) (by omega), same (a + 3) (by omega) (by omega)]

@[simp] theorem word_setWord (m : Mem UInt8) (a : Nat) (fits : v < 2 ^ 32) : (m.setWord a v).word a = v := by
  have stored := read_write_self m a (toLe32 (UInt32.ofNat v))
  rw [word, setWord, load32_of_read stored, UInt32.toNat_ofNat', Nat.mod_eq_of_lt fits]

theorem setWord_apply (outside : x < a ∨ a + 4 ≤ x) : m.setWord a v x = m x := by
  rcases outside with below | above
  · exact write_of_lt _ _ _ _ below
  · exact write_of_ge _ _ _ _ (by simpa using above)

theorem word_setWord_of_disjoint (apart : b + 4 ≤ a ∨ a + 4 ≤ b) : (m.setWord a v).word b = m.word b := by
  apply word_congr
  intro x lower upper
  exact setWord_apply (by omega)

end Mem

end Lib
