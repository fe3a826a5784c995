import Bk7251.Lib.Machine
import Bk7251.Flash.FlashOps
import Bk7251.Ota.StoreBlock

/-!
# Where blocks go

`store_block` as the commands it gives to the flash. The range of the data address is checked between
the erase and the write, for the first byte only, and the address of the image head not at all.
-/
namespace Bk7251.Ota

open Lib Nor Flash

/-- The commands of `Store.commit`. -/
def Store.commitOps (chip : Chip) (s : Store) (orCrc : UInt32) : List FlashOp :=
  let hdAddr := s.sendHd.osHdAddr.toNat
  flashEraseOps chip hdAddr ++ flashWriteOps chip (flashEraseSector chip s.cells hdAddr)
    (Mem.ofList (s.commitHead orCrc).bytes) hdAddr 32

def Store.eraseOps (chip : Chip) (s : Store) : List FlashOp :=
  if s.osDataAddr % SECTOR = 0 then flashEraseOps chip s.osDataAddr else []

section

variable (co_crc32 : List UInt8 → UInt32 → UInt32) (chip : Chip)

/-- The commands of `checkCrc`. -/
def checkCrcOps (s : Store) (src : Mem UInt8) (len : Nat) : List FlashOp :=
  if s.sendHd.seq ≠ s.sendHd.totalSeq then []
  else if lastCrc co_crc32 s.tftpCrc src len = orCrc src len then s.commitOps chip (orCrc src len)
  else []

/-- The commands of `storeBlock`, up to the access where it has no result. -/
def storeBlockOps (malloc : Bool) (s : Store) (block : Nat) (src : Mem UInt8) (len : Nat) : List FlashOp :=
  let s := s.takeHead block src
  let erased := s.eraseOps chip
  let s := s.eraseSector chip
  if OutOfRange s.osDataAddr then erased
  else
    let count := (len + (2 ^ 32 - TFTP_PKT_HD_LEN)) % 2 ^ 32
    let data := src.shift TFTP_PKT_HD_LEN
    let written := flashWriteOps chip s.cells data s.osDataAddr count
    let s := { s with cells := flashWriteData chip s.cells data s.osDataAddr count }
    let back := if malloc then flashReadOps s.osDataAddr count else []
    erased ++ written ++ back ++
      if (malloc ∧ 1024 < count) ∨ (s.sendHd.seq = s.sendHd.totalSeq ∧ len < TFTP_ALL_CRC_LEN) then []
      else checkCrcOps co_crc32 chip s src len

/-- One call of `store_block`. -/
structure StoreCall where
  malloc : Bool
  block : Nat
  src : Mem UInt8
  len : Nat

/-- A call, and the commands it gives; after one without a result nothing happens any more. -/
def callStep : Option Store → StoreCall → Option Store × List FlashOp
  | none, _ => (none, [])
  | some s, c =>
    (storeBlock co_crc32 chip c.malloc s c.block c.src c.len,
      storeBlockOps co_crc32 chip c.malloc s c.block c.src c.len)

end

/-! ### The commands do what the function does -/

section

variable {co_crc32 : List UInt8 → UInt32 → UInt32} {chip : Chip}

private theorem foldl_eraseOps (s : Store) :
    (s.eraseOps chip).foldl FlashOp.apply s.cells = (s.eraseSector chip).cells := by
  rw [Store.eraseOps, Store.eraseSector]
  split
  · exact foldl_flashEraseOps chip _ _
  · rfl

private theorem foldl_checkCrcOps (s : Store) (src : Mem UInt8) (len : Nat) :
    (checkCrcOps co_crc32 chip s src len).foldl FlashOp.apply s.cells =
      (checkCrc co_crc32 chip s src len).cells := by
  rw [checkCrcOps, checkCrc]
  split
  · rfl
  · simp only
    split
    · rw [Store.commitOps, List.foldl_append, foldl_flashEraseOps, foldl_flashWriteOps]
      rfl
    · rfl

theorem foldl_storeBlockOps {malloc : Bool} {s s' : Store} {block : Nat} {src : Mem UInt8} {len : Nat}
    (stored : storeBlock co_crc32 chip malloc s block src len = some s') :
    (storeBlockOps co_crc32 chip malloc s block src len).foldl FlashOp.apply s.cells = s'.cells := by
  have head : (s.takeHead block src).cells = s.cells := by
    rw [Store.takeHead]
    split <;> rfl
  have erased := @foldl_eraseOps chip (s.takeHead block src)
  rw [head] at erased
  simp only [storeBlock] at stored
  rw [storeBlockOps]
  simp only
  split at stored
  next outside =>
    obtain rfl := Option.some.inj stored
    rw [if_pos outside]
    exact erased
  next inside =>
    rw [if_neg inside]
    split at stored
    · cases stored
    next fits =>
      split at stored
      · cases stored
      next long =>
        obtain rfl := Option.some.inj stored
        rw [if_neg (not_or.mpr ⟨fits, long⟩)]
        -- reading back changes no cell
        have back : ∀ cells : Mem UInt8, ∀ address count, (if malloc = true then flashReadOps address count
            else []).foldl FlashOp.apply cells = cells := by
          intro cells address count
          split
          · exact foldl_flashReadOps _ _ _
          · rfl
        simp only [List.foldl_append, erased, foldl_flashWriteOps, back]
        rw [← foldl_checkCrcOps]

/-! ### The window -/

/-- The window of the OTA data. -/
def InWindow (x : Nat) : Prop := 0x27000 ≤ x ∧ x < 0x200000

instance (x : Nat) : Decidable (InWindow x) := inferInstanceAs (Decidable (_ ∧ _))

/-- Nothing outside the window is erased or programmed. -/
def Windowed (ops : List FlashOp) : Prop :=
  ∀ op ∈ ops, op.changes = true → ∀ x, op.Touches x → InWindow x

theorem windowed_append (ops ops' : List FlashOp) :
    Windowed (ops ++ ops') ↔ Windowed ops ∧ Windowed ops' := by
  simp only [Windowed, List.forall_mem_append]

theorem windowed_nil : Windowed [] := fun _ member => nomatch member

theorem windowed_reads (address len : Nat) : Windowed (flashReadOps address len) := by
  intro op member changes
  obtain ⟨line, rfl, -⟩ := (mem_flashReadOps _ _ _).mp member
  cases changes

/-- The sector of the address lies in the window, or is rejected. -/
def SectorKept (chip : Chip) (address : Nat) : Prop :=
  chip.flashSize ≤ sectorOf address ∨ InWindow (sectorOf address)

/-- The range lies in the window, or is empty or rejected. -/
def RangeKept (chip : Chip) (address len : Nat) : Prop :=
  len = 0 ∨ ¬ Writable chip address len ∨ (0x27000 ≤ address ∧ address + len ≤ 0x200000)

theorem windowed_erase (address : Nat) :
    Windowed (flashEraseOps chip address) ↔ SectorKept chip address := by
  rw [flashEraseOps, SectorKept]
  split
  next rejected => exact iff_of_true windowed_nil (.inl rejected)
  next accepted =>
    constructor
    · intro windowed
      refine .inr (windowed _ (List.mem_singleton.mpr rfl) rfl _ ⟨Nat.le_refl _, ?_⟩)
      exact Nat.lt_add_of_pos_right (Nat.zero_lt_succ _)
    · rintro (rejected | inside) op member changes x touches
      · exact absurd rejected accepted
      · -- the window consists of whole sectors
        obtain rfl := List.mem_singleton.mp member
        obtain ⟨lower, upper⟩ : sectorOf address ≤ x ∧ x < sectorOf address + SECTOR := touches
        have aligned : sectorOf address % SECTOR = 0 := Nat.mul_mod_left ..
        simp only [InWindow, SECTOR] at *
        omega

theorem windowed_write (cells buffer : Mem UInt8) (address len : Nat) :
    Windowed (flashWriteOps chip cells buffer address len) ↔ RangeKept chip address len := by
  constructor
  · intro windowed
    by_cases empty : len = 0
    · exact .inl empty
    by_cases writable : Writable chip address len
    · -- the first byte and the last one
      obtain ⟨first, member, changes, touches⟩ :=
        @flashWriteOps_covers chip cells buffer address len writable address (Nat.le_refl _) (by omega)
      obtain ⟨last, member', changes', touches'⟩ :=
        @flashWriteOps_covers chip cells buffer address len writable (address + len - 1) (by omega) (by omega)
      have lower := (windowed first member changes _ touches).1
      have upper := (windowed last member' changes' _ touches').2
      exact .inr (.inr ⟨lower, by omega⟩)
    · exact .inr (.inl writable)
  · rintro (rfl | rejected | ⟨lower, upper⟩) op member changes x touches
    · rw [flashWriteOps_empty member] at changes
      cases changes
    · rw [flashWriteOps, if_neg rejected] at member
      cases member
    · obtain ⟨line, page, rfl, size, aligned, some, before, behind⟩ := changes_flashWriteOps changes member
      obtain ⟨left, right⟩ : line ≤ x ∧ x < line + page.length := touches
      rw [InWindow]
      omega

/-! ### One call -/

namespace StoreCall

/-- The address a call starts with. -/
def dataAddr (s : Store) (c : StoreCall) : Nat :=
  if c.block ≠ 0 then s.osDataAddr else (SendPtkHd.load c.src).os1FlashAddr.toNat

/-- The checksum a call starts with. -/
def crcSoFar (s : Store) (c : StoreCall) : UInt32 := if c.block ≠ 0 then s.tftpCrc else 0

/-- `len - TFTP_PKT_HD_LEN`. -/
def count (c : StoreCall) : Nat := (c.len + (2 ^ 32 - TFTP_PKT_HD_LEN)) % 2 ^ 32

def hdAddr (c : StoreCall) : Nat := (SendPtkHd.load c.src).osHdAddr.toNat

end StoreCall

/-- The block ends the image, and its checksum is the expected one. -/
def CommitsHead (co_crc32 : List UInt8 → UInt32 → UInt32) (s : Store) (c : StoreCall) : Prop :=
  ¬ OutOfRange (c.dataAddr s) ∧ ¬ (c.malloc = true ∧ 1024 < c.count) ∧ TFTP_ALL_CRC_LEN ≤ c.len ∧
    (SendPtkHd.load c.src).seq = (SendPtkHd.load c.src).totalSeq ∧
    lastCrc co_crc32 (c.crcSoFar s) c.src c.len = orCrc c.src c.len

/-- What a call erases and programs is inside the window. -/
structure Keeps (co_crc32 : List UInt8 → UInt32 → UInt32) (chip : Chip) (s : Store) (c : StoreCall) : Prop where
  erase : c.dataAddr s % SECTOR = 0 → SectorKept chip (c.dataAddr s)
  write : ¬ OutOfRange (c.dataAddr s) → RangeKept chip (c.dataAddr s) c.count
  head : CommitsHead co_crc32 s c → SectorKept chip c.hdAddr ∧ RangeKept chip c.hdAddr 32

private theorem takeHead_eq (s : Store) (c : StoreCall) :
    (s.takeHead c.block c.src).osDataAddr = c.dataAddr s ∧
      (s.takeHead c.block c.src).tftpCrc = c.crcSoFar s ∧
      (s.takeHead c.block c.src).sendHd = SendPtkHd.load c.src := by
  rw [Store.takeHead, StoreCall.dataAddr, StoreCall.crcSoFar]
  by_cases first : c.block = 0
  · simp [first]
  · simp [first]

private theorem windowed_checkCrcOps (s : Store) (src : Mem UInt8) (len : Nat) :
    Windowed (checkCrcOps co_crc32 chip s src len) ↔
      (s.sendHd.seq = s.sendHd.totalSeq → lastCrc co_crc32 s.tftpCrc src len = orCrc src len →
        SectorKept chip s.sendHd.osHdAddr.toNat ∧ RangeKept chip s.sendHd.osHdAddr.toNat 32) := by
  rw [checkCrcOps]
  split
  next more => exact iff_of_true windowed_nil fun last => absurd last more
  next last =>
    split
    next same =>
      rw [Store.commitOps, windowed_append, windowed_erase, windowed_write]
      exact ⟨fun kept _ _ => kept, fun kept => kept (Decidable.not_not.mp last) same⟩
    next differs => exact iff_of_true windowed_nil fun _ same => absurd same differs

/-- Which calls keep to the window. -/
theorem windowed_storeBlockOps (s : Store) (c : StoreCall) :
    Windowed (storeBlockOps co_crc32 chip c.malloc s c.block c.src c.len) ↔ Keeps co_crc32 chip s c := by
  obtain ⟨address, crc, head⟩ := takeHead_eq s c
  have erased : Windowed ((s.takeHead c.block c.src).eraseOps chip) ↔
      (c.dataAddr s % SECTOR = 0 → SectorKept chip (c.dataAddr s)) := by
    rw [Store.eraseOps, address]
    split
    next aligned => rw [windowed_erase, forall_prop_of_true aligned]
    next offset => exact iff_of_true windowed_nil fun aligned => absurd aligned offset
  have back : Windowed (if c.malloc = true then flashReadOps (c.dataAddr s) c.count else []) := by
    split
    · exact windowed_reads _ _
    · exact windowed_nil
  rw [storeBlockOps]
  simp only [Store.eraseSector, address, head]
  split
  next outside =>
    rw [erased]
    exact ⟨fun kept => ⟨kept, fun inside => absurd outside inside, fun commits => absurd outside commits.1⟩,
      fun keeps => keeps.erase⟩
  next inside =>
    rw [windowed_append, windowed_append, windowed_append, erased, windowed_write]
    -- the commit, whatever the cells are by then
    have tail : ∀ cells, Windowed (if c.malloc = true ∧ 1024 < c.count ∨
        (SendPtkHd.load c.src).seq = (SendPtkHd.load c.src).totalSeq ∧ c.len < TFTP_ALL_CRC_LEN then []
        else checkCrcOps co_crc32 chip
          { s.takeHead c.block c.src with
            cells, sendHd := SendPtkHd.load c.src, osDataAddr := c.dataAddr s } c.src c.len) ↔
        (CommitsHead co_crc32 s c → SectorKept chip c.hdAddr ∧ RangeKept chip c.hdAddr 32) := by
      intro cells
      split
      next stops =>
        refine iff_of_true windowed_nil fun commits => ?_
        obtain ⟨-, fits, long, last, -⟩ := commits
        rcases stops with large | short
        · exact absurd large fits
        · exact absurd short.2 (Nat.not_lt.mpr long)
      next goes =>
        rw [windowed_checkCrcOps]
        simp only [crc]
        constructor
        · rintro kept ⟨-, -, -, last, same⟩
          exact kept last same
        · intro kept last same
          refine kept ⟨inside, fun large => goes (.inl large), ?_, last, same⟩
          exact Nat.not_lt.mp fun short => goes (.inr ⟨last, short⟩)
    constructor
    · rintro ⟨⟨⟨erase, write⟩, -⟩, rest⟩
      exact ⟨erase, fun _ => write, (tail _).mp rest⟩
    · rintro ⟨erase, write, head'⟩
      exact ⟨⟨⟨erase, write inside⟩, back⟩, (tail _).mpr head'⟩

/-! ### Runs -/

/-- The condition on a call in the state before it; a run that has ended gives no commands. -/
def KeepsNext (co_crc32 : List UInt8 → UInt32 → UInt32) (chip : Chip) : Option Store → StoreCall → Prop
  | none, _ => True
  | some s, c => Keeps co_crc32 chip s c

end

/-- A run of `store_block` keeps to the window exactly when each call does so in the state it starts in. -/
theorem ota_confined_iff (co_crc32 : List UInt8 → UInt32 → UInt32) (chip : Chip) (s : Store)
    (calls : List StoreCall) :
    (∀ ops ∈ (Machine.run (callStep co_crc32 chip) (some s) calls).2, Windowed ops) ↔
      Along (fun s c => (callStep co_crc32 chip s c).1) (KeepsNext co_crc32 chip) (some s) calls := by
  apply Machine.run_outputs_iff
  intro s c
  cases s with
  | none => exact iff_of_true windowed_nil trivial
  | some s => exact windowed_storeBlockOps s c

/-- A first block whose data goes to address 0, the boot loader. -/
def toBootloader : StoreCall :=
  ⟨true, 0, Mem.ofList (SendPtkHd.bytes ⟨24, 1, 1, 0, 0, 0, 0⟩), 24⟩

def idleStore : Store := ⟨fun _ => 0xFF, default, default, 0x8C000, 0, default⟩

/-- Its first sector is erased before the address is found to be out of range. -/
theorem ota_confined_fails :
    ¬ ∀ co_crc32 chip s calls,
      ∀ ops ∈ (Machine.run (callStep co_crc32 chip) (some s) calls).2, Windowed ops := by
  intro always
  have confined := always (fun _ _ => 0) defaultChip idleStore [toBootloader] _ (List.mem_singleton.mpr rfl)
  have erased : FlashOp.erase 0 ∈ (callStep (fun _ _ => 0) defaultChip (some idleStore) toBootloader).2 := by
    decide
  exact absurd (confined _ erased rfl 0 ⟨Nat.le_refl _, by decide⟩).1 (by decide)

end Bk7251.Ota
