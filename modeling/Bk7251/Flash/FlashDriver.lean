import Bk7251.Lib.Nor

/-!
# The flash driver

`flash_read_data`, `flash_write_data` and `flash_erase_sector` of `driver/flash/flash.c`. The
controller moves 32-byte pages; the cells behind it are those of a NOR flash.
-/
namespace Bk7251.Flash

open Lib Nor

/-- `flash_size` of the configured chips. -/
structure Chip where
  flashSize : Nat
  valid : flashSize ∈ [0x100000, 0x200000, 0x400000, 0x800000]

/-- The default entry of `flash_config`. -/
def defaultChip : Chip := ⟨0x400000, by decide⟩

/-- `flash_config`: the chips by identifier. -/
def flashConfig : List (Nat × Chip) := [
  (0x1C7016, ⟨0x400000, by decide⟩), (0x1C7015, ⟨0x200000, by decide⟩),
  (0x0B4014, ⟨0x100000, by decide⟩), (0x0B4015, ⟨0x200000, by decide⟩),
  (0x0B4016, ⟨0x400000, by decide⟩), (0x0B4017, ⟨0x800000, by decide⟩),
  (0x0E4016, ⟨0x400000, by decide⟩), (0xC84015, ⟨0x200000, by decide⟩),
  (0xC84016, ⟨0x400000, by decide⟩), (0xEF4016, ⟨0x400000, by decide⟩),
  (0x204016, ⟨0x400000, by decide⟩), (0xC22315, ⟨0x200000, by decide⟩)]

def flashGetCurrentFlashConfig (flashId : Nat) : Chip := (flashConfig.lookup flashId).getD defaultChip

def SECTOR : Nat := 0x1000

/-- `address & 0xFFF000`. -/
def sectorOf (address : Nat) : Nat := address / SECTOR % SECTOR * SECTOR

def flashEraseSector (chip : Chip) (cells : Mem UInt8) (address : Nat) : Mem UInt8 :=
  if chip.flashSize ≤ sectorOf address then cells else erase cells (sectorOf address) SECTOR

/-- The `while (len)` of `flash_read_data`; each round takes what it needs of one page. -/
def readPages (cells : Mem UInt8) : (fuel addr address len : Nat) → List UInt8
  | 0, _, _, _ => []
  | fuel + 1, addr, address, len =>
    if len = 0 then []
    else
      let moved := min (32 - address % 32) len
      ((cells.read addr 32).drop (address % 32)).take moved ++
        readPages cells fuel (addr + 32) (address + moved) (len - moved)

def flashReadData (cells : Mem UInt8) (address len : Nat) : List UInt8 :=
  readPages cells len (address - address % 32) address len

/-- The `while (len)` of `flash_write_data`: `pb` is the page buffer, `from` the next byte of the
caller's buffer. -/
def writePages (buffer : Mem UInt8) :
    (fuel : Nat) → (cells : Mem UInt8) → (pb : List UInt8) → (addr address src len : Nat) → Mem UInt8
  | 0, cells, _, _, _, _, _ => cells
  | fuel + 1, cells, pb, addr, address, src, len =>
    if len = 0 then cells
    else
      let pb := if len < 32 then flashReadData cells addr 32 else pb
      let moved := min (32 - address % 32) len
      let pb := pb.take (address % 32) ++ buffer.read src moved ++ pb.drop (address % 32 + moved)
      writePages buffer fuel (program cells addr pb) (List.replicate 32 0xFF) (addr + 32)
        (address + moved) (src + moved) (len - moved)

/-- What the driver accepts to write. -/
def Writable (chip : Chip) (address len : Nat) : Prop :=
  address - address % 32 < chip.flashSize ∧ len ≤ chip.flashSize ∧
    address - address % 32 + len ≤ chip.flashSize

instance (chip : Chip) (address len : Nat) : Decidable (Writable chip address len) :=
  inferInstanceAs (Decidable (_ ∧ _ ∧ _))

def flashWriteData (chip : Chip) (cells buffer : Mem UInt8) (address len : Nat) : Mem UInt8 :=
  if Writable chip address len then
    let addr := address - address % 32
    let pb := if address % 32 ≠ 0 then flashReadData cells addr 32 else List.replicate 32 0xFF
    writePages buffer len cells pb addr address 0 len
  else cells

/-! ### What the pages amount to -/

private theorem take_drop_read (cells : Mem UInt8) (addr : Nat) {k n size : Nat} (fits : k + n ≤ size) :
    ((cells.read addr size).drop k).take n = cells.read (addr + k) n := by
  obtain ⟨rest, rfl⟩ := Nat.exists_eq_add_of_le fits
  rw [Mem.read_add, Mem.read_add, List.append_assoc]
  simp

private theorem take_read (cells : Mem UInt8) {addr k size : Nat} (fits : k ≤ size) :
    (cells.read addr size).take k = cells.read addr k := by
  simpa using take_drop_read cells addr (show 0 + k ≤ size by omega)

private theorem drop_read (cells : Mem UInt8) {addr k size : Nat} (fits : k ≤ size) :
    (cells.read addr size).drop k = cells.read (addr + k) (size - k) := by
  have whole := take_drop_read cells addr (show k + (size - k) ≤ size by omega)
  rwa [List.take_of_length_le (by simp)] at whole

private theorem readPages_eq (cells : Mem UInt8) (fuel : Nat) : ∀ address len, len ≤ fuel →
    readPages cells fuel (address - address % 32) address len = cells.read address len := by
  induction fuel with
  | zero =>
    intro address len enough
    rw [Nat.le_zero.mp enough]
    rfl
  | succ fuel ih =>
    intro address len enough
    rw [readPages]
    split
    next done => rw [done, Mem.read_zero]
    next more =>
      obtain ⟨moved, split⟩ : ∃ moved, moved = min (32 - address % 32) len := ⟨_, rfl⟩
      have low : 0 < moved ∧ address % 32 + moved ≤ 32 ∧ moved ≤ len := by omega
      simp only [← split]
      rw [take_drop_read cells _ low.2.1, show len = moved + (len - moved) by omega, Mem.read_add,
        show address - address % 32 + address % 32 = address by omega, Nat.add_sub_cancel_left]
      -- a second round starts at a page boundary; otherwise nothing is left to read
      by_cases last : len - moved = 0
      · cases fuel <;> simp [readPages, last]
      · rw [← ih (address + moved) (len - moved) (by omega),
          show address - address % 32 + 32 = address + moved - (address + moved) % 32 by omega]

/-- Reading page by page reads the range. -/
theorem flashReadData_eq (cells : Mem UInt8) (address len : Nat) :
    flashReadData cells address len = cells.read address len :=
  readPages_eq cells len address len (Nat.le_refl _)

/-- One page of `flash_write_data`: the bytes around the new ones are those the page holds, or the
page buffer is filled entirely. -/
private theorem program_page (cells buffer : Mem UInt8) {pb : List UInt8} {addr k moved src : Nat}
    (fits : k + moved ≤ 32) (kept : pb = cells.read addr 32 ∨ (k = 0 ∧ moved = 32 ∧ pb.length = 32)) :
    program cells addr (pb.take k ++ buffer.read src moved ++ pb.drop (k + moved)) =
      program cells (addr + k) (buffer.read src moved) := by
  rcases kept with rfl | ⟨rfl, rfl, full⟩
  · rw [take_read cells (by omega), drop_read cells fits]
    have padded := program_padded cells addr k (32 - (k + moved)) (buffer.read src moved)
    rwa [Mem.length_read, Nat.add_assoc] at padded
  · rw [List.drop_of_length_le (by omega)]
    simp

private theorem writePages_eq (buffer : Mem UInt8) (fuel : Nat) : ∀ cells pb address src len,
    len ≤ fuel →
    (pb = cells.read (address - address % 32) 32 ∨ (address % 32 = 0 ∧ pb.length = 32)) →
    writePages buffer fuel cells pb (address - address % 32) address src len =
      program cells address (buffer.read src len) := by
  induction fuel with
  | zero =>
    intro cells pb address src len enough _
    rw [Nat.le_zero.mp enough]
    simp [writePages]
  | succ fuel ih =>
    intro cells pb address src len enough page
    rw [writePages]
    split
    next done => simp [done]
    next more =>
      obtain ⟨moved, split⟩ : ∃ moved, moved = min (32 - address % 32) len := ⟨_, rfl⟩
      have low : 0 < moved ∧ address % 32 + moved ≤ 32 ∧ moved ≤ len := by omega
      simp only [← split, flashReadData_eq]
      rw [program_page cells buffer low.2.1, show address - address % 32 + address % 32 = address by
        omega]
      · -- what is left starts a new page, and the page buffer is all ones again
        by_cases last : len - moved = 0
        · have whole : moved = len := by omega
          cases fuel <;> simp [writePages, whole]
        · rw [show address - address % 32 + 32 = address + moved - (address + moved) % 32 by omega,
            ih _ _ _ _ _ (by omega) (.inr ⟨by omega, by simp⟩)]
          rw [show len = moved + (len - moved) by omega, Mem.read_add, program_append,
            Mem.length_read, Nat.add_sub_cancel_left]
      · split
        · exact .inl rfl
        next long =>
          rcases page with held | ⟨aligned, full⟩
          · exact .inl held
          · exact .inr ⟨aligned, by omega, full⟩

/-- Writing page by page programs the range, and nothing else. -/
theorem flashWriteData_eq (chip : Chip) (cells buffer : Mem UInt8) (address len : Nat) :
    flashWriteData chip cells buffer address len =
      if Writable chip address len then program cells address (buffer.read 0 len) else cells := by
  rw [flashWriteData]
  split
  · simp only []
    rw [writePages_eq buffer len _ _ _ _ _ (Nat.le_refl _)]
    split
    · exact .inl (flashReadData_eq _ _ _)
    next aligned => exact .inr ⟨by omega, by simp⟩
  · rfl

theorem writable_of_le (chip : Chip) {address len : Nat} (inside : address + len ≤ chip.flashSize)
    (below : address < chip.flashSize) : Writable chip address len := by
  refine ⟨?_, ?_, ?_⟩ <;> omega

end Bk7251.Flash
