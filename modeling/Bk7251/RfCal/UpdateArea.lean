import Bk7251.Flash.FlashOps
import Bk7251.RfCal.CalTable

/-!
# Updating part of the calibration sector

`manual_cal_update_flash_area` as a whole: what it returns, and every command it gives to the flash. The cells
behind its commands are those of `manualCalUpdateFlashArea`.
-/
namespace Bk7251.RfCal

open Lib Nor Flash

/-! ### The commands -/

/-- The flash commands from `write_again` to the check. -/
def writeAgainOps (chip : Chip) (heap cells : Mem UInt8) (addrOffset writeLen : Nat) (buf : List UInt8) :
    List FlashOp :=
  let readBuf := if addrOffset ≠ 0 then flashReadData cells rfStart writeLen else heap.read 0 writeLen
  let readBuf := splice readBuf addrOffset buf
  (if addrOffset ≠ 0 then flashReadOps rfStart writeLen else []) ++
    (flashEraseOps chip rfStart ++
      (flashWriteOps chip (flashEraseSector chip cells rfStart) (Mem.ofList readBuf) rfStart writeLen ++
        flashReadOps (rfStart + addrOffset) buf.length))

def writeTriesOps (chip : Chip) (heap : Mem UInt8) (addrOffset writeLen : Nat) (buf : List UInt8) :
    Nat → Mem UInt8 → List FlashOp
  | 0, _ => []
  | times + 1, cells =>
    let after := writeAgain chip heap cells addrOffset writeLen buf
    writeAgainOps chip heap cells addrOffset writeLen buf ++
      if flashReadData after (rfStart + addrOffset) buf.length = buf then []
      else writeTriesOps chip heap addrOffset writeLen buf times after

/-- The length of the block that is written: to the end of the table, or of the new bytes. -/
def writeLenOf (cells : Mem UInt8) (addrOffset len : UInt32) : Nat :=
  match manualCalSearchOptTab cells with
  | some flashLen => if (addrOffset + len).toNat ≤ flashLen then flashLen else (addrOffset + len).toNat
  | none => (addrOffset + len).toNat

/-- What is returned, and the commands. `malloc` says whether a block of a size is to be had; `none` where
the new bytes are copied behind the end of the block. -/
def manualCalUpdate (chip : Chip) (malloc : Nat → Bool) (heap cells buf : Mem UInt8)
    (addrOffset len : UInt32) : Option (Nat × List FlashOp) :=
  if BK_FLASH_SECTOR_SIZE < addrOffset.toNat then some (1, [])
  else if len = 0 then some (0, [])
  else
    let writeLen := writeLenOf cells addrOffset len
    if malloc writeLen = false then some (1, flashReadOps rfStart 8)
    else if writeLen < addrOffset.toNat + len.toNat then none
    else
      -- a check that fails for the last time is reported and forgotten
      some (0, flashReadOps rfStart 8 ++ writeTriesOps chip heap addrOffset.toNat writeLen
        (buf.read 0 len.toNat) BK_FLASH_WRITE_CHECK_TIMES cells)

theorem searchOptTab_lt {cells : Mem UInt8} {n : Nat} (found : manualCalSearchOptTab cells = some n) :
    n < 2 ^ 32 := by
  rw [manualCalSearchOptTab] at found
  split at found
  · cases found
    exact Nat.mod_lt _ (by decide)
  · cases found

theorem writeLenOf_cases (cells : Mem UInt8) (addrOffset len : UInt32) :
    (∃ n, manualCalSearchOptTab cells = some n ∧ (addrOffset + len).toNat ≤ n ∧
      writeLenOf cells addrOffset len = n) ∨
    ((∀ n, manualCalSearchOptTab cells = some n → n < (addrOffset + len).toNat) ∧
      writeLenOf cells addrOffset len = (addrOffset + len).toNat) := by
  rw [writeLenOf]
  split
  next n found =>
    split
    next reaches => exact .inl ⟨n, found, reaches, rfl⟩
    next short =>
      refine .inr ⟨?_, rfl⟩
      intro m same
      cases found.symm.trans same
      exact Nat.not_le.mp short
  next absent =>
    refine .inr ⟨?_, rfl⟩
    intro n found
    cases absent.symm.trans found

/-- A table that reaches the end of the new bytes is written as a whole. -/
theorem writeLenOf_table {cells : Mem UInt8} {addrOffset len : UInt32} {n : Nat}
    (found : manualCalSearchOptTab cells = some n) (reaches : (addrOffset + len).toNat ≤ n) :
    writeLenOf cells addrOffset len = n := by
  rcases writeLenOf_cases cells addrOffset len with ⟨m, same, -, whole⟩ | ⟨shorter, -⟩
  · cases found.symm.trans same
    exact whole
  · exact absurd reaches (Nat.not_le.mpr (shorter n found))

/-- A block that holds the new bytes was measured without a wrap. -/
theorem toNat_end {cells : Mem UInt8} {addrOffset len : UInt32}
    (holds : addrOffset.toNat + len.toNat ≤ writeLenOf cells addrOffset len) :
    (addrOffset + len).toNat = addrOffset.toNat + len.toNat := by
  have bound := (addrOffset + len).toNat_lt
  apply toNat_add
  rcases writeLenOf_cases cells addrOffset len with ⟨n, found, -, whole⟩ | ⟨-, whole⟩
  · have small := searchOptTab_lt found
    omega
  · omega

theorem foldl_writeAgainOps (chip : Chip) (heap cells : Mem UInt8) (addrOffset writeLen : Nat)
    (buf : List UInt8) :
    (writeAgainOps chip heap cells addrOffset writeLen buf).foldl FlashOp.apply cells =
      writeAgain chip heap cells addrOffset writeLen buf := by
  -- the reads leave the cells alone
  have read : ∀ p : Prop, [Decidable p] →
      (if p then flashReadOps rfStart writeLen else []).foldl FlashOp.apply cells = cells := by
    intro p _
    split
    · exact foldl_flashReadOps cells _ _
    · rfl
  simp only [writeAgainOps, List.foldl_append, read, foldl_flashEraseOps, foldl_flashWriteOps,
    foldl_flashReadOps]
  rfl

theorem foldl_writeTriesOps (chip : Chip) (heap : Mem UInt8) (addrOffset writeLen : Nat)
    (buf : List UInt8) (times : Nat) (cells : Mem UInt8) :
    (writeTriesOps chip heap addrOffset writeLen buf times cells).foldl FlashOp.apply cells =
      writeTries chip heap addrOffset writeLen buf times cells := by
  induction times generalizing cells with
  | zero => rfl
  | succ times ih =>
    simp only [writeTriesOps, writeTries, List.foldl_append, foldl_writeAgainOps]
    split
    · rfl
    · exact ih _

/-- The commands do what `manualCalUpdateFlashArea` says. -/
theorem manualCalUpdate_cells {chip : Chip} {malloc : Nat → Bool} {heap cells buf : Mem UInt8}
    {addrOffset len : UInt32} {ops : List FlashOp}
    (success : manualCalUpdate chip malloc heap cells buf addrOffset len = some (0, ops)) :
    ops.foldl FlashOp.apply cells =
      manualCalUpdateFlashArea chip heap cells addrOffset.toNat (buf.read 0 len.toNat) := by
  rw [manualCalUpdate] at success
  rw [manualCalUpdateFlashArea, Mem.length_read]
  split at success
  · cases success
  next offset =>
    rw [if_neg offset]
    split at success
    next nothing =>
      cases success
      rw [nothing, UInt32.toNat_zero, if_pos rfl]
      rfl
    next more =>
      have nonzero := (toNat_ne_zero len).mp more
      rw [if_neg nonzero]
      simp only at success
      split at success
      · cases success
      split at success
      · cases success
      next block inside =>
        cases success
        rw [List.foldl_append, foldl_flashReadOps, foldl_writeTriesOps]
        have fits := toNat_end (Nat.not_lt.mp inside)
        rw [← fits]
        rfl

/-! ### What a call leaves behind -/

/-- The new bytes are there, the rest of the table is as it was, and no command changes anything outside the
sector that is erased. -/
structure Kept (cells buf : Mem UInt8) (addrOffset len : Nat) (ops : List FlashOp) : Prop where
  written : (ops.foldl FlashOp.apply cells).read (rfStart + addrOffset) len = buf.read 0 len
  rest : ∀ n, manualCalSearchOptTab cells = some n → ∀ i < n, i < addrOffset ∨ addrOffset + len ≤ i →
    ops.foldl FlashOp.apply cells (rfStart + i) = cells (rfStart + i)
  confined : ∀ op ∈ ops, op.changes = true → ∀ x, op.Touches x →
    sectorOf rfStart ≤ x ∧ x < sectorOf rfStart + SECTOR

/-- Whatever the bytes are, the heap holds and the allocator says: the call writes inside its block, and
when it returns 0 it has done what it should. -/
def UpdateExact (chip : Chip) (cells : Mem UInt8) (addrOffset len : UInt32) : Prop :=
  ∀ malloc heap buf, ∃ ret ops, manualCalUpdate chip malloc heap cells buf addrOffset len = some (ret, ops) ∧
    (ret = 0 → Kept cells buf addrOffset.toNat len.toNat ops)

theorem changes_writeAgainOps {chip : Chip} {heap cells : Mem UInt8} {addrOffset writeLen : Nat}
    {buf : List UInt8} {op : FlashOp}
    (member : op ∈ writeAgainOps chip heap cells addrOffset writeLen buf) (changes : op.changes = true) :
    op ∈ flashEraseOps chip rfStart ∨
      ∃ buffer, op ∈ flashWriteOps chip (flashEraseSector chip cells rfStart) buffer rfStart writeLen := by
  -- reads change nothing
  have reading : ∀ address len, op ∉ flashReadOps address len := by
    intro address len read
    obtain ⟨line, rfl, -⟩ := (mem_flashReadOps address len op).mp read
    cases changes
  simp only [writeAgainOps, List.mem_append] at member
  rcases member with before | erase | write | check
  · split at before
    · exact absurd before (reading _ _)
    · cases before
  · exact .inl erase
  · exact .inr ⟨_, write⟩
  · exact absurd check (reading _ _)

theorem changes_writeTriesOps {chip : Chip} {heap cells : Mem UInt8} {addrOffset writeLen : Nat}
    {buf : List UInt8} {op : FlashOp} {times : Nat}
    (member : op ∈ writeTriesOps chip heap addrOffset writeLen buf times cells)
    (changes : op.changes = true) :
    op ∈ flashEraseOps chip rfStart ∨
      ∃ before buffer, op ∈ flashWriteOps chip before buffer rfStart writeLen := by
  induction times generalizing cells with
  | zero => cases member
  | succ times ih =>
    simp only [writeTriesOps, List.mem_append] at member
    rcases member with now | later
    · rcases changes_writeAgainOps now changes with erase | ⟨buffer, write⟩
      · exact .inl erase
      · exact .inr ⟨_, buffer, write⟩
    · split at later
      · cases later
      · exact ih later

/-- A block no longer than the sector stays in the sector, with its last page. -/
theorem confined_of_small {chip : Chip} {heap cells : Mem UInt8} {addrOffset writeLen : Nat}
    {buf : List UInt8} {times : Nat} (small : writeLen ≤ 4096) {op : FlashOp}
    (member : op ∈ writeTriesOps chip heap addrOffset writeLen buf times cells)
    (changes : op.changes = true) {x : Nat} (touches : op.Touches x) :
    sectorOf rfStart ≤ x ∧ x < sectorOf rfStart + SECTOR := by
  have low := rfStart_eq
  have sector : sectorOf rfStart = rfStart := by decide
  have size : SECTOR = 4096 := rfl
  rcases changes_writeTriesOps member changes with erase | ⟨before, buffer, write⟩
  · rw [flashEraseOps] at erase
    split at erase
    · cases erase
    · obtain rfl := List.mem_singleton.mp erase
      exact touches
  · -- the driver writes whole pages of 32 bytes
    obtain ⟨line, page, rfl, whole, aligned, positive, lower, upper⟩ := changes_flashWriteOps changes write
    have inside : line ≤ x ∧ x < line + page.length := touches
    omega

/-- The bytes of the block after a write that fits into the sector. -/
theorem writeTries_getElem {chip : Chip} (heap cells : Mem UInt8) {addrOffset writeLen : Nat}
    {buf : List UInt8} (room : rfStart + 0x1000 ≤ chip.flashSize) (some_bytes : 0 < writeLen)
    (small : writeLen ≤ 4096) (inside : addrOffset + buf.length ≤ writeLen) {i : Nat} (bound : i < writeLen) :
    writeTries chip heap addrOffset writeLen buf BK_FLASH_WRITE_CHECK_TIMES cells (rfStart + i) =
      if addrOffset ≤ i ∧ i < addrOffset + buf.length then buf.getD (i - addrOffset) 0
      else if addrOffset ≠ 0 then cells (rfStart + i) else heap i := by
  have size : BK_FLASH_SECTOR_SIZE = 4096 := rfl
  have stored := read_writeAgain heap cells room some_bytes (by omega) inside
  have old : (if addrOffset ≠ 0 then cells.read rfStart writeLen else heap.read 0 writeLen).length =
      writeLen := by split <;> exact Mem.length_read _ _ _
  have byte := getElem?_splice (le_of_le_of_eq inside old.symm) i
  rw [← stored, List.getElem?_eq_getElem (by rwa [Mem.length_read]), Mem.getElem_read] at byte
  rw [BK_FLASH_WRITE_CHECK_TIMES, writeTries_eq heap cells room some_bytes (by omega) inside]
  apply Option.some.inj
  rw [byte]
  split
  next within =>
    rw [List.getD_eq_getElem?_getD, List.getElem?_eq_getElem (by omega), Option.getD_some]
  next =>
    split
    · rw [List.getElem?_eq_getElem (by rwa [Mem.length_read]), Mem.getElem_read]
    · rw [List.getElem?_eq_getElem (by rwa [Mem.length_read]), Mem.getElem_read, Nat.zero_add]

/-- Nothing to write, a refused offset; or bytes and table fit into a sector that the chip has, and what is
written behind the new bytes was read before. -/
def UpdateFits (chip : Chip) (cells : Mem UInt8) (addrOffset len : UInt32) : Prop :=
  len = 0 ∨ 4096 < addrOffset.toNat ∨
    (rfStart + 0x1000 ≤ chip.flashSize ∧ addrOffset.toNat + len.toNat ≤ 4096 ∧
      ∀ n, manualCalSearchOptTab cells = some n →
        n ≤ addrOffset.toNat + len.toNat ∨ (n ≤ 4096 ∧ addrOffset ≠ 0))

/-- A call that gives no command. -/
theorem kept_nil {cells buf : Mem UInt8} (addrOffset : Nat) : Kept cells buf addrOffset 0 [] := by
  constructor
  · rw [Mem.read_zero, Mem.read_zero]
  · intro n _ i _ _
    rfl
  · intro op member
    cases member

/-- The length that is written covers the new bytes and the table, and no more than the sector. -/
theorem writeLenOf_fits {cells : Mem UInt8} {addrOffset len : UInt32}
    (short : addrOffset.toNat + len.toNat ≤ 4096)
    (table : ∀ n, manualCalSearchOptTab cells = some n →
      n ≤ addrOffset.toNat + len.toNat ∨ (n ≤ 4096 ∧ addrOffset ≠ 0)) :
    addrOffset.toNat + len.toNat ≤ writeLenOf cells addrOffset len ∧
      writeLenOf cells addrOffset len ≤ 4096 ∧
      ∀ n, manualCalSearchOptTab cells = some n → n ≤ writeLenOf cells addrOffset len := by
  have sum : (addrOffset + len).toNat = addrOffset.toNat + len.toNat := toNat_add _ _ (by omega)
  rcases writeLenOf_cases cells addrOffset len with ⟨n, found, reaches, whole⟩ | ⟨shorter, whole⟩
  · rw [whole]
    have fits := table n found
    refine ⟨by omega, by omega, ?_⟩
    intro m same
    cases found.symm.trans same
    exact Nat.le_refl _
  · rw [whole]
    exact ⟨by omega, by omega, fun n found => Nat.le_of_lt (shorter n found)⟩

theorem kept_of_fits {chip : Chip} (heap buf : Mem UInt8) {cells : Mem UInt8} {addrOffset len : UInt32}
    (room : rfStart + 0x1000 ≤ chip.flashSize)
    (short : addrOffset.toNat + len.toNat ≤ 4096)
    (table : ∀ n, manualCalSearchOptTab cells = some n →
      n ≤ addrOffset.toNat + len.toNat ∨ (n ≤ 4096 ∧ addrOffset ≠ 0)) :
    addrOffset.toNat + len.toNat ≤ writeLenOf cells addrOffset len ∧
      Kept cells buf addrOffset.toNat len.toNat (flashReadOps rfStart 8 ++
        writeTriesOps chip heap addrOffset.toNat (writeLenOf cells addrOffset len) (buf.read 0 len.toNat)
          BK_FLASH_WRITE_CHECK_TIMES cells) := by
  obtain ⟨inside, small, covers⟩ := writeLenOf_fits short table
  refine ⟨inside, ?_⟩
  generalize writeLenOf cells addrOffset len = writeLen at *
  obtain ⟨after, tries⟩ : ∃ after, after = writeTries chip heap addrOffset.toNat writeLen
    (buf.read 0 len.toNat) BK_FLASH_WRITE_CHECK_TIMES cells := ⟨_, rfl⟩
  have byte : ∀ i, i < writeLen → after (rfStart + i) =
      if addrOffset.toNat ≤ i ∧ i < addrOffset.toNat + len.toNat then
        (buf.read 0 len.toNat).getD (i - addrOffset.toNat) 0
      else if addrOffset.toNat ≠ 0 then cells (rfStart + i) else heap i := by
    intro i bound
    have held : addrOffset.toNat + (buf.read 0 len.toNat).length ≤ writeLen := by
      rw [Mem.length_read]
      exact inside
    have stored := writeTries_getElem heap cells room (by omega) small held bound
    rwa [Mem.length_read, ← tries] at stored
  have commands : (flashReadOps rfStart 8 ++ writeTriesOps chip heap addrOffset.toNat writeLen
      (buf.read 0 len.toNat) BK_FLASH_WRITE_CHECK_TIMES cells).foldl FlashOp.apply cells = after := by
    rw [List.foldl_append, foldl_flashReadOps, foldl_writeTriesOps, tries]
  constructor
  · rw [commands]
    apply List.ext_getElem
    · rw [Mem.length_read, Mem.length_read]
    intro j left right
    rw [Mem.length_read] at left
    rw [Mem.getElem_read, Nat.add_assoc, byte _ (by omega), if_pos (by omega), Nat.add_sub_cancel_left,
      List.getD_eq_getElem?_getD, List.getElem?_eq_getElem right, Option.getD_some]
  · intro n found i bound outside
    have reach := covers n found
    rw [commands, byte i (by omega), if_neg (by omega)]
    -- behind new bytes at the beginning there is no more of the table
    have later : addrOffset.toNat ≠ 0 := by
      rcases table n found with ends | ⟨-, later⟩
      · omega
      · exact (toNat_ne_zero addrOffset).mp later
    rw [if_pos later]
  · intro op member changes x touches
    rcases List.mem_append.mp member with read | write
    · obtain ⟨line, rfl, -⟩ := (mem_flashReadOps rfStart 8 op).mp read
      cases changes
    · exact confined_of_small small write changes touches

theorem updateExact_of_fits {chip : Chip} {cells : Mem UInt8} {addrOffset len : UInt32}
    (fits : UpdateFits chip cells addrOffset len) : UpdateExact chip cells addrOffset len := by
  intro malloc heap buf
  rw [manualCalUpdate]
  have size : BK_FLASH_SECTOR_SIZE = 4096 := rfl
  by_cases refused : BK_FLASH_SECTOR_SIZE < addrOffset.toNat
  · rw [if_pos refused]
    exact ⟨1, [], rfl, fun success => by cases success⟩
  by_cases nothing : len = 0
  · rw [if_neg refused, if_pos nothing, nothing]
    exact ⟨0, [], rfl, fun _ => kept_nil _⟩
  rcases fits with empty | behind | ⟨room, short, table⟩
  · exact absurd empty nothing
  · exact absurd behind (by omega)
  · rw [if_neg refused, if_neg nothing]
    simp only
    split
    · exact ⟨1, _, rfl, fun success => by cases success⟩
    · obtain ⟨inside, kept⟩ := kept_of_fits heap buf room short table
      rw [if_neg (by omega)]
      exact ⟨0, _, rfl, fun _ => kept⟩

/-! ### What goes wrong otherwise -/

/-- A write that the driver refuses leaves what the erase left. -/
theorem writeTries_refused {chip : Chip} (heap cells : Mem UInt8) (addrOffset : Nat) {writeLen : Nat}
    (buf : List UInt8) (refused : ¬ Writable chip rfStart writeLen) (times : Nat) :
    writeTries chip heap addrOffset writeLen buf (times + 1) cells = flashEraseSector chip cells rfStart := by
  have once : ∀ cells, writeAgain chip heap cells addrOffset writeLen buf =
      flashEraseSector chip cells rfStart := by
    intro cells
    simp only [writeAgain, flashWriteData_eq, if_neg refused]
  have again : flashEraseSector chip (flashEraseSector chip cells rfStart) rfStart =
      flashEraseSector chip cells rfStart := by
    rw [flashEraseSector, flashEraseSector]
    split
    · rfl
    · funext x
      simp only [erase]
      split <;> rfl
  have stays : ∀ times, writeTries chip heap addrOffset writeLen buf times
      (flashEraseSector chip cells rfStart) = flashEraseSector chip cells rfStart := by
    intro times
    induction times with
    | zero => rfl
    | succ times ih =>
      simp only [writeTries, once, again, ih]
      split <;> rfl
  simp only [writeTries, once, stays]
  split <;> rfl

theorem ne_succ (b : UInt8) : b ≠ b + 1 := by
  intro same
  have bytes := congrArg UInt8.toNat same
  rw [UInt8.toNat_add] at bytes
  change b.toNat = (b.toNat + 1) % 256 at bytes
  omega

namespace UpdateExact

variable {chip : Chip} {cells : Mem UInt8} {addrOffset len : UInt32}

/-- A call that finds memory. -/
theorem call (exact_update : UpdateExact chip cells addrOffset len) (nothing : len ≠ 0)
    (accepted : addrOffset.toNat ≤ 4096) (heap buf : Mem UInt8) :
    addrOffset.toNat + len.toNat ≤ writeLenOf cells addrOffset len ∧
      Kept cells buf addrOffset.toNat len.toNat (flashReadOps rfStart 8 ++
        writeTriesOps chip heap addrOffset.toNat (writeLenOf cells addrOffset len) (buf.read 0 len.toNat)
          BK_FLASH_WRITE_CHECK_TIMES cells) := by
  obtain ⟨ret, ops, result, kept⟩ := exact_update (fun _ => true) heap buf
  have offset : ¬ BK_FLASH_SECTOR_SIZE < addrOffset.toNat := Nat.not_lt.mpr accepted
  rw [manualCalUpdate, if_neg offset, if_neg nothing] at result
  simp only [Bool.true_eq_false, if_false] at result
  split at result
  · cases result
  next inside =>
    cases result
    exact ⟨Nat.not_lt.mp inside, kept rfl⟩

theorem writable (exact_update : UpdateExact chip cells addrOffset len) (nothing : len ≠ 0)
    (accepted : addrOffset.toNat ≤ 4096) : Writable chip rfStart (writeLenOf cells addrOffset len) := by
  by_contra refused
  -- the cell that should take the first byte does not depend on it
  obtain ⟨cell, same⟩ : ∃ cell, flashEraseSector chip cells rfStart (rfStart + addrOffset.toNat) = cell :=
    ⟨_, rfl⟩
  have written := (exact_update.call nothing accepted (fun _ => 0) fun _ => cell + 1).2.written
  rw [List.foldl_append, foldl_flashReadOps, foldl_writeTriesOps, BK_FLASH_WRITE_CHECK_TIMES,
    writeTries_refused _ _ _ _ refused] at written
  have first := congrArg List.head? written
  have positive := Nat.pos_of_ne_zero ((toNat_ne_zero len).mp nothing)
  rw [Mem.head?_read _ _ positive, Mem.head?_read _ _ positive, same] at first
  exact ne_succ cell (Option.some.inj first)

/-- The last byte of the block lies in the sector. -/
theorem small (exact_update : UpdateExact chip cells addrOffset len) (nothing : len ≠ 0)
    (accepted : addrOffset.toNat ≤ 4096) : writeLenOf cells addrOffset len ≤ 4096 := by
  have nonzero := (toNat_ne_zero len).mp nothing
  obtain ⟨inside, kept⟩ := exact_update.call nothing accepted (fun _ => 0) fun _ => 0
  -- the write of the block has a command for its last byte
  have last : ∃ op ∈ writeTriesOps chip (fun _ => 0) addrOffset.toNat (writeLenOf cells addrOffset len)
      (Mem.read (fun _ => 0) 0 len.toNat) BK_FLASH_WRITE_CHECK_TIMES cells, op.changes = true ∧
        op.Touches (rfStart + (writeLenOf cells addrOffset len - 1)) := by
    obtain ⟨op, member, changes, touches⟩ := flashWriteOps_covers
      (exact_update.writable nothing accepted) (x := rfStart + (writeLenOf cells addrOffset len - 1))
      (Nat.le_add_right _ _) (by omega)
    refine ⟨op, ?_, changes, touches⟩
    exact List.mem_append_left _ (List.mem_append_right _ (List.mem_append_right _
      (List.mem_append_left _ member)))
  obtain ⟨op, member, changes, touches⟩ := last
  have confined := kept.confined op (List.mem_append_right _ member) changes _ touches
  have sector : sectorOf rfStart = rfStart := by decide
  have size : SECTOR = 4096 := rfl
  omega

theorem room (exact_update : UpdateExact chip cells addrOffset len) (nothing : len ≠ 0)
    (accepted : addrOffset.toNat ≤ 4096) : rfStart + 0x1000 ≤ chip.flashSize := by
  have low := rfStart_eq
  have valid := chip.valid
  have start := (exact_update.writable nothing accepted).1
  simp only [List.mem_cons, List.not_mem_nil, or_false] at valid
  omega

/-- A byte behind the new ones is one of the heap where nothing was read. -/
theorem later (exact_update : UpdateExact chip cells addrOffset len) (nothing : len ≠ 0)
    {n : Nat} (found : manualCalSearchOptTab cells = some n) (longer : len.toNat < n) :
    addrOffset ≠ 0 := by
  rintro rfl
  have accepted : (0 : UInt32).toNat ≤ 4096 := by decide
  obtain ⟨inside, kept⟩ := exact_update.call nothing accepted
    (fun _ => cells (rfStart + len.toNat) + 1) fun _ => 0
  have whole : writeLenOf cells 0 len = n := by
    apply writeLenOf_table found
    rw [UInt32.zero_add]
    exact Nat.le_of_lt longer
  have same := kept.rest n found len.toNat longer (.inr (by rw [UInt32.toNat_zero]; omega))
  rw [List.foldl_append, foldl_flashReadOps, foldl_writeTriesOps, whole, UInt32.toNat_zero,
    writeTries_getElem _ _ (exact_update.room nothing accepted) (by omega)
      (whole ▸ exact_update.small nothing accepted)
      (by rw [Mem.length_read]; omega) longer,
    if_neg (by rw [Mem.length_read]; omega), if_neg (not_not.mpr rfl)] at same
  exact ne_succ _ same.symm

end UpdateExact

theorem fits_of_updateExact {chip : Chip} {cells : Mem UInt8} {addrOffset len : UInt32}
    (exact_update : UpdateExact chip cells addrOffset len) : UpdateFits chip cells addrOffset len := by
  by_cases nothing : len = 0
  · exact .inl nothing
  by_cases refused : 4096 < addrOffset.toNat
  · exact .inr (.inl refused)
  have accepted := Nat.not_lt.mp refused
  have inside := (exact_update.call nothing accepted (fun _ => 0) fun _ => 0).1
  have small := exact_update.small nothing accepted
  have sum := toNat_end inside
  refine .inr (.inr ⟨exact_update.room nothing accepted, by omega, ?_⟩)
  intro n found
  by_cases ends : n ≤ addrOffset.toNat + len.toNat
  · exact .inl ends
  · have whole : writeLenOf cells addrOffset len = n := writeLenOf_table found (by omega)
    exact .inr ⟨by omega, exact_update.later nothing found (by omega)⟩

/-- The call does what it should exactly then. -/
theorem updateExact_iff (chip : Chip) (cells : Mem UInt8) (addrOffset len : UInt32) :
    UpdateExact chip cells addrOffset len ↔ UpdateFits chip cells addrOffset len :=
  ⟨fits_of_updateExact, updateExact_of_fits⟩

/-- A table with the head of eight bytes and eight bytes behind it. -/
def longTable : Mem UInt8 := Mem.write (fun _ => 0xFF) rfStart (Tlv.head BK_FLASH_OPT_TLV_HEADER 8)

/-- Its head alone is written again. -/
theorem update_loses_table : ¬ UpdateExact defaultChip longTable 0 8 := by
  intro exact_update
  have stored : manualCalSearchOptTab longTable = some 16 := by decide
  exact exact_update.later (by decide) stored (by decide) rfl

end Bk7251.RfCal
