import Bk7251.Spi.SpiFlash

/-!
# Erasing the external flash

`spi_flash_erase` takes the largest block that the size suggests, and the chip erases the whole aligned block.
Everything asked for is erased; how much more depends on where the range begins and ends in its blocks.
-/
namespace Bk7251.SpiFlash

open Lib Nor

/-- The sector of cell `x` has a cell of the range. -/
def Meets (a n x : Nat) : Prop := ∃ y, a ≤ y ∧ y < a + n ∧ y / FLASH_PHY_SECTOR_SIZE = x / FLASH_PHY_SECTOR_SIZE

theorem meets_iff (a n x : Nat) :
    Meets a n x ↔ 0 < n ∧ a / 4096 ≤ x / 4096 ∧ x / 4096 ≤ (a + n - 1) / 4096 := by
  constructor
  · rintro ⟨y, lower, upper, same⟩
    simp only [FLASH_PHY_SECTOR_SIZE] at same
    omega
  · rintro ⟨some_cells, first, last⟩
    refine ⟨max a (x / 4096 * 4096), Nat.le_max_left _ _, ?_, ?_⟩
    · omega
    · simp only [FLASH_PHY_SECTOR_SIZE]
      omega

instance (a n x : Nat) : Decidable (Meets a n x) := decidable_of_iff _ (meets_iff a n x).symm

theorem eraseBlock_apply (m : Mem UInt8) (a x : Nat) {block : Nat} (positive : 0 < block) :
    eraseBlock m a block x = if x / block = a / block then 0xff else m x := by
  rw [eraseBlock, erase]
  have inside : (a / block * block ≤ x ∧ x < a / block * block + block) ↔ x / block = a / block := by
    rw [← Nat.succ_mul, ← Nat.le_div_iff_mul_le positive, ← Nat.div_lt_iff_lt_mul positive]
    omega
  simp only [inside]

/-! ### The rounds -/

/-- What the next erase takes. -/
def blockFor (size : UInt32) (left : Int) : Nat :=
  if left ≤ 4 * 1024 then FLASH_PHY_SECTOR_SIZE
  else if size.toNat ≤ 32 * 1024 then FLASH_PHY_BLK_32K
  else FLASH_PHY_BLK_64K

theorem blockFor_cases (size : UInt32) (left : Int) :
    (blockFor size left = 4096 ∧ left ≤ 4096) ∨
    (blockFor size left = 32768 ∧ 4096 < left ∧ size.toNat ≤ 32768) ∨
    (blockFor size left = 65536 ∧ 4096 < left ∧ 32768 < size.toNat) := by
  unfold blockFor
  split
  next small => exact .inl ⟨rfl, small⟩
  split
  next long half => exact .inr (.inl ⟨rfl, by omega, half⟩)
  next long full => exact .inr (.inr ⟨rfl, by omega, by omega⟩)

theorem blockFor_sectors (size : UInt32) (left : Int) : ∃ k, 0 < k ∧ blockFor size left = 4096 * k := by
  rcases blockFor_cases size left with ⟨small, -⟩ | ⟨half, -⟩ | ⟨full, -⟩
  · exact ⟨1, Nat.one_pos, small⟩
  · exact ⟨8, by decide, half⟩
  · exact ⟨16, by decide, full⟩

theorem blockFor_sector (size : UInt32) {left : Int} (short : left ≤ 4096) : blockFor size left = 4096 :=
  if_pos short

theorem blockFor_half {size : UInt32} {left : Int} (long : 4096 < left) (half : size.toNat ≤ 32768) :
    blockFor size left = 32768 := by
  rw [blockFor, if_neg (show ¬ left ≤ 4 * 1024 by omega), if_pos half]
  rfl

theorem blockFor_full {size : UInt32} {left : Int} (long : 4096 < left) (full : 32768 < size.toNat) :
    blockFor size left = 65536 := by
  rw [blockFor, if_neg (show ¬ left ≤ 4 * 1024 by omega), if_neg (show ¬ size.toNat ≤ 32 * 1024 by omega)]
  rfl

theorem blockOf_choice (size : UInt32) (left : Int) :
    blockOf (eraseChoice size left).2 = some (blockFor size left) ∧
      (eraseChoice size left).1.toNat = blockFor size left := by
  have bound : size ≤ 32 * 1024 ↔ size.toNat ≤ 32 * 1024 := UInt32.le_iff_toNat_le
  simp only [eraseChoice, blockFor, bound]
  split
  · exact ⟨by decide, by decide⟩
  split
  · exact ⟨by decide, by decide⟩
  · exact ⟨by decide, by decide⟩

theorem toNat_eraseStep (addr : UInt32) {eraseSize : UInt32} {k : Nat}
    (power : eraseSize.toNat = 2 ^ k) :
    (eraseStep addr eraseSize).toNat = eraseSize.toNat - addr.toNat % eraseSize.toNat := by
  have positive : 0 < 2 ^ k := Nat.two_pow_pos k
  have offset : (addr &&& (eraseSize - 1)).toNat = addr.toNat % eraseSize.toNat := by
    rw [UInt32.toNat_and, toNat_sub _ _ (by rw [power]; exact positive), power]
    exact Nat.and_two_pow_sub_one_eq_mod addr.toNat k
  have below := Nat.mod_lt addr.toNat (power ▸ positive)
  rw [eraseStep]
  split
  next => rw [toNat_sub _ _ (by omega), offset]
  next aligned =>
    have zero : addr.toNat % eraseSize.toNat = 0 := by
      rw [← offset, not_not.mp aligned]
      rfl
    omega

/-- One round: the block of `addr` goes, and the loop continues behind it. -/
structure Round (dev : Device) (addr size : UInt32) (left : Int) (dev' : Device) (addr' size' : UInt32) :
    Prop where
  cells : ∀ x, dev'.cells x =
    if x / blockFor size left = addr.toNat / blockFor size left then 0xff else dev.cells x
  size : size'.toNat = blockFor size left - addr.toNat % blockFor size left
  addr : addr'.toNat = addr.toNat + size'.toNat
  positive : 0 < size'.toNat
  inside : addr'.toNat + (left - size'.toNat).toNat ≤ CAPACITY

theorem eraseLoop_round (fuel : Nat) (dev : Device) (addr size : UInt32) {left : Int} (more : 0 < left)
    (inside : addr.toNat + left.toNat ≤ CAPACITY) :
    ∃ dev' addr' size', Round dev addr size left dev' addr' size' ∧
      eraseLoop (fuel + 1) dev addr size left = eraseLoop fuel dev' addr' size' (left - size'.toNat) := by
  obtain ⟨mode, block⟩ := blockOf_choice size left
  have sizes : blockFor size left = 2 ^ 12 ∨ blockFor size left = 2 ^ 15 ∨ blockFor size left = 2 ^ 16 := by
    rcases blockFor_cases size left with ⟨small, -⟩ | ⟨half, -⟩ | ⟨full, -⟩
    · exact .inl small
    · exact .inr (.inl half)
    · exact .inr (.inr full)
  have step : (eraseStep addr (eraseChoice size left).1).toNat =
      blockFor size left - addr.toNat % blockFor size left := by
    rw [← block]
    rcases sizes with small | half | full
    · exact toNat_eraseStep addr (block.trans small)
    · exact toNat_eraseStep addr (block.trans half)
    · exact toNat_eraseStep addr (block.trans full)
  -- inside the chip the three bytes of the address are all of it
  have erased : ∀ x, (spiFlashEarse dev addr (eraseChoice size left).2).cells x =
      if x / blockFor size left = addr.toNat / blockFor size left then 0xff else dev.cells x := by
    intro x
    rw [earse_cells dev addr mode, Nat.mod_eq_of_lt (by omega), eraseBlock_apply]
    rcases sizes with small | half | full <;> omega
  have next : (addr + eraseStep addr (eraseChoice size left).1).toNat =
      addr.toNat + (eraseStep addr (eraseChoice size left).1).toNat := by
    apply toNat_add
    unfold CAPACITY at inside
    rcases sizes with small | half | full <;> omega
  refine ⟨_, _, _, ⟨erased, step, next, ?_, ?_⟩, by rw [eraseLoop, if_pos more]⟩
  · generalize blockFor size left = block at *
    rcases sizes with rfl | rfl | rfl <;> omega
  · -- a step beyond the end stops at a block boundary, and the chip ends with a block
    generalize blockFor size left = block at *
    unfold CAPACITY at *
    rcases sizes with rfl | rfl | rfl <;> omega

/-- The loop ends: every round takes at least one byte. -/
theorem eraseLoop_terminates (fuel : Nat) (dev : Device) (addr size : UInt32) (left : Int)
    (enough : left < fuel) (inside : addr.toNat + left.toNat ≤ CAPACITY) :
    ∃ dev', eraseLoop (fuel + 1) dev addr size left = some dev' := by
  induction fuel generalizing dev addr size left with
  | zero => exact ⟨dev, by rw [eraseLoop, if_neg (by omega)]⟩
  | succ fuel ih =>
    by_cases more : 0 < left
    · obtain ⟨dev', addr', size', round, continues⟩ := eraseLoop_round (fuel + 1) dev addr size more inside
      have positive := round.positive
      rw [continues]
      exact ih dev' addr' size' _ (by omega) round.inside
    · exact ⟨dev, by rw [eraseLoop, if_neg more]⟩

/-- What is erased stays erased. -/
theorem eraseLoop_keeps (fuel : Nat) {dev dev' : Device} {addr size : UInt32} {left : Int} {x : Nat}
    (inside : addr.toNat + left.toNat ≤ CAPACITY) (erased : dev.cells x = 0xff)
    (ended : eraseLoop fuel dev addr size left = some dev') : dev'.cells x = 0xff := by
  induction fuel generalizing dev addr size left with
  | zero => cases ended
  | succ fuel ih =>
    by_cases more : 0 < left
    · obtain ⟨next, addr', size', round, continues⟩ := eraseLoop_round fuel dev addr size more inside
      rw [continues] at ended
      apply ih round.inside _ ended
      rw [round.cells, erased, ite_self]
    · rw [eraseLoop, if_neg more] at ended
      cases ended
      exact erased

/-- The block of a round is gone at the end. -/
theorem eraseLoop_erases (fuel : Nat) {dev dev' : Device} {addr size : UInt32} {left : Int} {x : Nat}
    (more : 0 < left) (inside : addr.toNat + left.toNat ≤ CAPACITY)
    (block : x / blockFor size left = addr.toNat / blockFor size left)
    (ended : eraseLoop fuel dev addr size left = some dev') : dev'.cells x = 0xff := by
  cases fuel with
  | zero => cases ended
  | succ fuel =>
    obtain ⟨next, addr', size', round, continues⟩ := eraseLoop_round fuel dev addr size more inside
    rw [continues] at ended
    apply eraseLoop_keeps fuel round.inside _ ended
    rw [round.cells, if_pos block]

/-- A sector of the range outside the block lies behind it, in what the other rounds have to do. -/
theorem Round.meets_behind {dev dev' : Device} {addr size addr' size' : UInt32} {left : Int} {x : Nat}
    (round : Round dev addr size left dev' addr' size') (meets : Meets addr.toNat left.toNat x)
    (block : x / blockFor size left ≠ addr.toNat / blockFor size left) :
    Meets addr'.toNat (left - size'.toNat).toNat x := by
  have step := round.size
  have next := round.addr
  obtain ⟨k, positive, sectors⟩ := blockFor_sectors size left
  rw [sectors] at step block
  obtain ⟨y, lower, upper, same⟩ := meets
  have behind : addr.toNat / (4096 * k) < y / (4096 * k) := by
    apply Nat.lt_of_le_of_ne (Nat.div_le_div_right lower)
    intro inBlock
    apply block
    rw [inBlock, ← Nat.div_div_eq_div_mul, ← Nat.div_div_eq_div_mul]
    exact congrArg (· / k) same.symm
  have start := (Nat.le_div_iff_mul_le (show 0 < 4096 * k by omega)).mp behind
  have whole := Nat.div_add_mod addr.toNat (4096 * k)
  rw [Nat.succ_mul, Nat.mul_comm] at start
  exact ⟨y, by omega, by omega, same⟩

/-- What is left belongs to the range. -/
theorem Round.meets_of_behind {dev dev' : Device} {addr size addr' size' : UInt32} {left : Int} {x : Nat}
    (round : Round dev addr size left dev' addr' size')
    (meets : Meets addr'.toNat (left - size'.toNat).toNat x) : Meets addr.toNat left.toNat x := by
  have next := round.addr
  obtain ⟨y, lower, upper, same⟩ := meets
  exact ⟨y, by omega, by omega, same⟩

/-- The step goes to the end of the block, so a sector of the range is in this block or in what is left. -/
theorem eraseLoop_covers (fuel : Nat) {dev dev' : Device} {addr size : UInt32} {left : Int} {x : Nat}
    (inside : addr.toNat + left.toNat ≤ CAPACITY) (meets : Meets addr.toNat left.toNat x)
    (ended : eraseLoop fuel dev addr size left = some dev') : dev'.cells x = 0xff := by
  induction fuel generalizing dev addr size left with
  | zero => cases ended
  | succ fuel ih =>
    have more : 0 < left := by
      rw [meets_iff] at meets
      omega
    by_cases block : x / blockFor size left = addr.toNat / blockFor size left
    · exact eraseLoop_erases (fuel + 1) more inside block ended
    · obtain ⟨next, addr', size', round, continues⟩ := eraseLoop_round fuel dev addr size more inside
      rw [continues] at ended
      exact ih round.inside (round.meets_behind meets block) ended

/-! ### Exact ends -/

/-- A loop that ends with exactly the sectors of the range erased. -/
def Exact (fuel : Nat) (dev : Device) (addr size : UInt32) (left : Int) : Prop :=
  ∃ dev', eraseLoop fuel dev addr size left = some dev' ∧
    ∀ x, dev'.cells x = if Meets addr.toNat left.toNat x then 0xff else dev.cells x

theorem exact_done (fuel : Nat) (dev : Device) (addr size : UInt32) {left : Int} (done : left ≤ 0) :
    Exact (fuel + 1) dev addr size left := by
  refine ⟨dev, by rw [eraseLoop, if_neg (by omega)], ?_⟩
  intro x
  rw [if_neg]
  rw [meets_iff]
  omega

/-- A round whose block belongs to the range, before rounds that are exact. -/
theorem exact_round {fuel : Nat} {dev dev' : Device} {addr size addr' size' : UInt32} {left : Int}
    (round : Round dev addr size left dev' addr' size')
    (continues : eraseLoop (fuel + 1) dev addr size left = eraseLoop fuel dev' addr' size' (left - size'.toNat))
    (needed : ∀ x, x / blockFor size left = addr.toNat / blockFor size left → Meets addr.toNat left.toNat x)
    (rest : Exact fuel dev' addr' size' (left - size'.toNat)) : Exact (fuel + 1) dev addr size left := by
  obtain ⟨last, ended, cells⟩ := rest
  refine ⟨last, continues.trans ended, ?_⟩
  intro x
  rw [cells, round.cells]
  by_cases behind : Meets addr'.toNat (left - size'.toNat).toNat x
  · rw [if_pos behind, if_pos (round.meets_of_behind behind)]
  by_cases block : x / blockFor size left = addr.toNat / blockFor size left
  · rw [if_neg behind, if_pos block, if_pos (needed x block)]
  · rw [if_neg behind, if_neg block, if_neg fun meets => behind (round.meets_behind meets block)]

/-- A range with the first and the last sector of a block has all of the block. -/
theorem meets_of_ends {a n k x : Nat} (positive : 0 < k) (cells : 0 < n) (first : a % (4096 * k) < 4096)
    (last : 4096 * k < a % (4096 * k) + n + 4096) (block : x / (4096 * k) = a / (4096 * k)) :
    Meets a n x := by
  rw [meets_iff]
  have start := Nat.div_add_mod a (4096 * k)
  have cell := Nat.div_add_mod x (4096 * k)
  have below := Nat.mod_lt x (show 0 < 4096 * k by omega)
  rw [block] at cell
  rw [Nat.mul_assoc] at start cell
  generalize k * (a / (4096 * k)) = sectors at start cell
  omega

/-- No more than a sector of bytes left: sectors are erased, and no others. -/
theorem exact_sectors (fuel : Nat) (dev : Device) (addr size : UInt32) (left : Int)
    (enough : left < fuel) (inside : addr.toNat + left.toNat ≤ CAPACITY) (short : left ≤ 4096) :
    Exact (fuel + 1) dev addr size left := by
  induction fuel generalizing dev addr size left with
  | zero => exact exact_done 0 dev addr size (by omega)
  | succ fuel ih =>
    by_cases more : 0 < left
    · obtain ⟨dev', addr', size', round, continues⟩ := eraseLoop_round (fuel + 1) dev addr size more inside
      have positive := round.positive
      have block := blockFor_sector size short
      have step := round.size
      rw [block] at step
      apply exact_round round continues
      · rw [block]
        exact fun x => meets_of_ends Nat.one_pos (by omega) (Nat.mod_lt _ (by decide)) (by omega)
      · exact ih dev' addr' size' _ (by omega) round.inside (by omega)
    · exact exact_done _ dev addr size (by omega)

/-- A 32 KiB block of which the range has the first and the last sector. -/
theorem exact_half (fuel : Nat) (dev : Device) (addr size : UInt32) {left : Int} (enough : left < fuel)
    (inside : addr.toNat + left.toNat ≤ CAPACITY) (long : 4096 < left) (half : left ≤ 32768)
    (mode : size.toNat ≤ 32768) (first : addr.toNat % 32768 < 4096)
    (last : 28672 < addr.toNat % 32768 + left) : Exact (fuel + 1) dev addr size left := by
  cases fuel with
  | zero => omega
  | succ fuel =>
    obtain ⟨dev', addr', size', round, continues⟩ :=
      eraseLoop_round (fuel + 1) dev addr size (show 0 < left by omega) inside
    have block := blockFor_half long mode
    have step := round.size
    rw [block] at step
    apply exact_round round continues
    · rw [block]
      exact fun x => meets_of_ends (k := 8) (by decide) (by omega) first (by omega)
    · exact exact_sectors fuel dev' addr' size' _ (by omega) round.inside (by omega)

/-- 64 KiB blocks, while more than a sector is left; the range has the first and the last sector of each. -/
theorem exact_full (fuel : Nat) (dev : Device) (addr size : UInt32) {left : Int} (enough : left < fuel)
    (inside : addr.toNat + left.toNat ≤ CAPACITY) (mode : 32768 < size.toNat)
    (first : addr.toNat % 65536 < 4096)
    (last : (addr.toNat % 65536 + left) % 65536 ≤ 4096 ∨ 61440 < (addr.toNat % 65536 + left) % 65536) :
    Exact (fuel + 1) dev addr size left := by
  induction fuel generalizing dev addr size left with
  | zero => exact exact_done 0 dev addr size (by omega)
  | succ fuel ih =>
    by_cases short : left ≤ 4096
    · exact exact_sectors (fuel + 1) dev addr size left enough inside short
    · obtain ⟨dev', addr', size', round, continues⟩ :=
        eraseLoop_round (fuel + 1) dev addr size (show 0 < left by omega) inside
      have positive := round.positive
      have block := blockFor_full (Int.not_le.mp short) mode
      have step := round.size
      have next := round.addr
      rw [block] at step
      apply exact_round round continues
      · rw [block]
        exact fun x => meets_of_ends (k := 16) (by decide) (by omega) first (by omega)
      · exact ih dev' addr' size' (by omega) round.inside (by omega) (by omega) (by omega)

/-- A range that goes on into a 64 KiB block takes all of it. -/
theorem eraseLoop_last_block (fuel : Nat) {dev dev' : Device} {addr size : UInt32} {left : Int}
    (inside : addr.toNat + left.toNat ≤ CAPACITY) (mode : 32768 < size.toNat) (long : 4096 < left)
    (first : addr.toNat % 65536 < 4096) (last : 4096 < (addr.toNat % 65536 + left) % 65536)
    (ended : eraseLoop fuel dev addr size left = some dev') :
    dev'.cells ((addr.toNat + left.toNat) / 65536 * 65536 + 65535) = 0xff := by
  induction fuel generalizing dev addr size left with
  | zero => cases ended
  | succ fuel ih =>
    have block := blockFor_full long mode
    by_cases here : (addr.toNat + left.toNat) / 65536 = addr.toNat / 65536
    · apply eraseLoop_erases (fuel + 1) (show 0 < left by omega) inside _ ended
      rw [block]
      omega
    · obtain ⟨next, addr', size', round, continues⟩ :=
        eraseLoop_round fuel dev addr size (show 0 < left by omega) inside
      have step := round.size
      have advanced := round.addr
      rw [block] at step
      rw [continues] at ended
      have behind := ih round.inside (by omega) (by omega) (by omega) (by omega) ended
      rwa [advanced, show addr.toNat + size'.toNat + (left - size'.toNat).toNat =
        addr.toNat + left.toNat by omega] at behind

/-! ### Whole calls -/

/-- The call returns, and of the whole chip exactly the sectors of the range are erased. -/
def EraseExact (addr size : UInt32) : Prop :=
  ∀ dev, ∃ fuel dev', spiFlashErase fuel dev addr size = some dev' ∧
    ∀ x, dev'.cells x = if Meets addr.toNat size.toNat x then 0xff else dev.cells x

/-- No more than a sector of bytes; or the range has the first and the last sector of each larger block
that is erased for it. -/
def Suits (a n : Nat) : Prop :=
  n ≤ 4096 ∨
  (4096 < n ∧ n ≤ 32768 ∧ a % 32768 < 4096 ∧ 28672 < a % 32768 + n) ∨
  (32768 < n ∧ a % 65536 < 4096 ∧ ((a % 65536 + n) % 65536 ≤ 4096 ∨ 61440 < (a % 65536 + n) % 65536))

instance (a n : Nat) : Decidable (Suits a n) := inferInstanceAs (Decidable (_ ∨ _ ∨ _))

theorem toInt_size {size : UInt32} (small : size.toNat ≤ CAPACITY) :
    size.toInt32.toInt = size.toNat := by
  unfold CAPACITY at small
  exact BitVec.toInt_eq_toNat_of_lt (show 2 * size.toNat < 2 ^ 32 by omega)

/-- Every call returns with the range erased, whatever else is. -/
theorem spiFlashErase_covers (dev : Device) {addr size : UInt32}
    (inside : addr.toNat + size.toNat ≤ CAPACITY) :
    ∃ dev', spiFlashErase (size.toNat + 2) dev addr size = some dev' ∧
      ∀ x, Meets addr.toNat size.toNat x → dev'.cells x = 0xff := by
  obtain ⟨dev', ended⟩ :=
    eraseLoop_terminates (size.toNat + 1) dev addr size size.toNat (by omega) (by simpa using inside)
  refine ⟨dev', ?_, ?_⟩
  · rw [spiFlashErase, toInt_size (by omega)]
    exact ended
  · intro x meets
    exact eraseLoop_covers _ (by simpa using inside) (by simpa using meets) ended

theorem eraseExact_of_suits {addr size : UInt32} (inside : addr.toNat + size.toNat ≤ CAPACITY)
    (suits : Suits addr.toNat size.toNat) : EraseExact addr size := by
  intro dev
  have whole : Exact (size.toNat + 1 + 1) dev addr size size.toNat := by
    rcases suits with short | ⟨long, half, first, last⟩ | ⟨long, first, last⟩
    · exact exact_sectors _ dev addr size _ (by omega) inside (by omega)
    · exact exact_half _ dev addr size (by omega) inside (by omega) (by omega) half first (by omega)
    · exact exact_full _ dev addr size (by omega) inside long first (by omega)
  refine ⟨size.toNat + 1 + 1, ?_⟩
  rw [spiFlashErase, toInt_size (by omega)]
  exact whole

/-- One cell outside the sectors of the range that is erased all the same. -/
theorem not_eraseExact {addr size : UInt32} (inside : addr.toNat + size.toNat ≤ CAPACITY) {x : Nat}
    (outside : ¬ Meets addr.toNat size.toNat x)
    (erased : ∀ fuel dev dev', eraseLoop fuel dev addr size size.toNat = some dev' → dev'.cells x = 0xff) :
    ¬ EraseExact addr size := by
  intro exact_erase
  obtain ⟨fuel, dev', ended, cells⟩ := exact_erase ⟨fun _ => 0, false, 0, fun _ => 0⟩
  rw [spiFlashErase, toInt_size (by omega)] at ended
  have gone := erased fuel _ dev' ended
  rw [cells, if_neg outside] at gone
  exact absurd gone (show ¬ (0 : UInt8) = 0xff by decide)

theorem suits_of_eraseExact {addr size : UInt32} (inside : addr.toNat + size.toNat ≤ CAPACITY)
    (exact_erase : EraseExact addr size) : Suits addr.toNat size.toNat := by
  have taken : ∀ x, 0 < size.toNat →
      x / blockFor size size.toNat = addr.toNat / blockFor size size.toNat →
      Meets addr.toNat size.toNat x := by
    -- what the first round erases has to be in the range
    intro x more block
    by_contra outside
    apply not_eraseExact inside outside _ exact_erase
    intro fuel dev dev' ended
    exact eraseLoop_erases fuel (by omega) inside block ended
  by_cases short : size.toNat ≤ 4096
  · exact .inl short
  by_cases half : size.toNat ≤ 32768
  · have block : blockFor size size.toNat = 32768 := blockFor_half (by omega) half
    simp only [block, meets_iff] at taken
    have first := taken (addr.toNat / 32768 * 32768) (by omega) (by omega)
    have last := taken (addr.toNat / 32768 * 32768 + 32767) (by omega) (by omega)
    exact .inr (.inl ⟨by omega, half, by omega, by omega⟩)
  · have block : blockFor size size.toNat = 65536 := blockFor_full (by omega) (by omega)
    simp only [block, meets_iff] at taken
    have first := taken (addr.toNat / 65536 * 65536) (by omega) (by omega)
    refine .inr (.inr ⟨by omega, by omega, ?_⟩)
    by_contra middle
    -- the range ends in the middle of a block, which goes all the same
    apply not_eraseExact inside _ _ exact_erase (x := (addr.toNat + size.toNat) / 65536 * 65536 + 65535)
    · rw [meets_iff]
      omega
    · intro fuel dev dev' ended
      have gone := eraseLoop_last_block fuel (by omega) (by omega) (by omega) (by omega) (by omega) ended
      rwa [Int.toNat_natCast] at gone

/-- The call does what it should exactly for such ranges. -/
theorem spiFlashErase_exact_iff (addr size : UInt32) (inside : addr.toNat + size.toNat ≤ CAPACITY) :
    EraseExact addr size ↔ Suits addr.toNat size.toNat :=
  ⟨suits_of_eraseExact inside, eraseExact_of_suits inside⟩

theorem spiFlashErase_exact_iff_block :
    (0x10000 : UInt32).toNat + (0x11000 : UInt32).toNat ≤ CAPACITY ∧
      (EraseExact 0x10000 0x11000 ↔ Suits (0x10000 : UInt32).toNat (0x11000 : UInt32).toNat) :=
  ⟨by decide, spiFlashErase_exact_iff 0x10000 0x11000 (by decide)⟩

/-- Two sectors from address 0 cost eight. -/
theorem erase_takes_block : ¬ EraseExact 0 0x2000 := by
  intro exact_erase
  have suits := suits_of_eraseExact (by decide) exact_erase
  revert suits
  decide

end Bk7251.SpiFlash
