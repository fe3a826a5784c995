import Mathlib.Data.List.Nodup
import Bk7251.Flash.BkFlash
import Bk7251.Flash.FlashOps

/-!
# What the partition calls touch

`bk_flash_erase`, `bk_flash_write` and `bk_flash_read` as commands to the controller. None of them
looks at the length of the partition.
-/
namespace Bk7251.Flash

open Lib Nor

def bkFlashEraseOps (chip : Chip) (inPartition : BkPartition) (offSet size : Nat) : List FlashOp :=
  let startSector := offSet / SECTOR
  let endSector := (offSet + size + (2 ^ 32 - 1)) % 2 ^ 32 / SECTOR
  (List.range' startSector (endSector + 1 - startSector)).flatMap fun i =>
    flashEraseOps chip ((bkFlashGetInfo inPartition).partitionStartAddr + i * SECTOR)

def bkFlashWriteOps (chip : Chip) (inPartition : BkPartition) (cells : Mem UInt8) (offSet : Nat)
    (inBuffer : List UInt8) : List FlashOp :=
  flashWriteOps chip cells (Mem.ofList inBuffer)
    (((bkFlashGetInfo inPartition).partitionStartAddr + offSet) % 2 ^ 32) inBuffer.length

def bkFlashReadOps (inPartition : BkPartition) (offSet inBufferLength : Nat) : List FlashOp :=
  flashReadOps (((bkFlashGetInfo inPartition).partitionStartAddr + offSet) % 2 ^ 32) inBufferLength

/-! ### The commands do what the calls do -/

theorem foldl_bkFlashEraseOps (chip : Chip) (inPartition : BkPartition) (cells : Mem UInt8)
    (offSet size : Nat) :
    (bkFlashEraseOps chip inPartition offSet size).foldl FlashOp.apply cells =
      bkFlashErase chip inPartition cells offSet size := by
  rw [bkFlashEraseOps, bkFlashErase, List.foldl_flatMap]
  simp only [foldl_flashEraseOps]

theorem foldl_bkFlashWriteOps (chip : Chip) (inPartition : BkPartition) (cells : Mem UInt8)
    (offSet : Nat) (inBuffer : List UInt8) :
    (bkFlashWriteOps chip inPartition cells offSet inBuffer).foldl FlashOp.apply cells =
      bkFlashWrite chip inPartition cells offSet inBuffer :=
  foldl_flashWriteOps chip cells _ _ _

/-! ### Sectors -/

theorem flashSize_sector (chip : Chip) : chip.flashSize % SECTOR = 0 ∧ chip.flashSize ≤ 0x800000 := by
  have valid := chip.valid
  simp only [List.mem_cons, List.not_mem_nil, or_false] at valid
  rw [SECTOR]
  omega

/-- A partition consists of whole sectors. -/
theorem partition_sectors (p : BkPartition) :
    (bkFlashGetInfo p).partitionStartAddr % SECTOR = 0 ∧ (bkFlashGetInfo p).partitionLength % SECTOR = 0 ∧
      (bkFlashGetInfo p).partitionStartAddr + (bkFlashGetInfo p).partitionLength ≤ 2 ^ 24 := by
  cases p <;> decide

theorem sectorOf_aligned {address : Nat} (aligned : address % SECTOR = 0) (bound : address < 2 ^ 24) :
    sectorOf address = address := by
  simp only [sectorOf, SECTOR] at *
  omega

/-- The sector that starts at `base` has a byte of the range. -/
def IsSector (address len base : Nat) : Prop := base % SECTOR = 0 ∧ Meets address len base SECTOR

section

variable {chip : Chip} {p : BkPartition} {offSet size : Nat}

/-- A range is erased sector by sector, as far as the flash goes. -/
theorem mem_bkFlashEraseOps (some : 0 < size)
    (bound : (bkFlashGetInfo p).partitionStartAddr + offSet + size ≤ 2 ^ 24) (op : FlashOp) :
    op ∈ bkFlashEraseOps chip p offSet size ↔
      ∃ base, op = .erase base ∧ base < chip.flashSize ∧
        IsSector ((bkFlashGetInfo p).partitionStartAddr + offSet) size base := by
  have aligned := (partition_sectors p).1
  rw [bkFlashEraseOps]
  generalize (bkFlashGetInfo p).partitionStartAddr = start at bound aligned ⊢
  have last : (offSet + size + (2 ^ 32 - 1)) % 2 ^ 32 = offSet + size - 1 := by omega
  simp only [last, List.mem_flatMap, List.mem_range'_1, SECTOR] at aligned ⊢
  constructor
  · rintro ⟨i, ⟨lower, upper⟩, member⟩
    rw [flashEraseOps, sectorOf_aligned (by rw [SECTOR]; omega) (by omega)] at member
    split at member
    · cases member
    next inside =>
      refine ⟨start + i * 0x1000, List.mem_singleton.mp member, Nat.not_le.mp inside, ?_, some, ?_, ?_⟩
      · rw [SECTOR]
        omega
      · rw [SECTOR]
        omega
      · omega
  · rintro ⟨base, rfl, inside, whole, -, lower, upper⟩
    rw [SECTOR] at whole lower
    refine ⟨(base - start) / 0x1000, ⟨by omega, by omega⟩, ?_⟩
    rw [show start + (base - start) / 0x1000 * 0x1000 = base by omega, flashEraseOps,
      sectorOf_aligned (by rw [SECTOR]; omega) (by omega), if_neg (by omega)]
    exact List.mem_singleton.mpr rfl

/-- No sector is erased twice. -/
theorem nodup_bkFlashEraseOps
    (bound : (bkFlashGetInfo p).partitionStartAddr + offSet + size ≤ 2 ^ 24) (some : 0 < size) :
    (bkFlashEraseOps chip p offSet size).Nodup := by
  have aligned := (partition_sectors p).1
  rw [bkFlashEraseOps]
  generalize (bkFlashGetInfo p).partitionStartAddr = start at bound aligned ⊢
  have last : (offSet + size + (2 ^ 32 - 1)) % 2 ^ 32 = offSet + size - 1 := by omega
  simp only [last, SECTOR] at aligned ⊢
  have sector : ∀ i ∈ List.range' (offSet / 0x1000)
      ((offSet + size - 1) / 0x1000 + 1 - offSet / 0x1000), sectorOf (start + i * 0x1000) =
        start + i * 0x1000 := by
    intro i member
    rw [List.mem_range'_1] at member
    exact sectorOf_aligned (by rw [SECTOR]; omega) (by omega)
  apply List.nodup_flatMap.mpr
  constructor
  · intro i _
    rw [flashEraseOps]
    split
    · exact List.nodup_nil
    · exact List.nodup_singleton _
  · refine (List.nodup_range' 1 Nat.one_pos).imp_of_mem fun {i j} first second differ => ?_
    -- different sectors have different addresses
    intro op left right
    simp only [flashEraseOps, sector i first] at left
    simp only [flashEraseOps, sector j second] at right
    split at left
    · cases left
    · split at right
      · cases right
      · rw [List.mem_singleton.mp left] at right
        injection List.mem_singleton.mp right
        omega

/-! ### Inside the partition -/

/-- Every command keeps to the cells of the partition. -/
def Confined (p : BkPartition) (ops : List FlashOp) : Prop :=
  ∀ op ∈ ops, ∀ x, op.Touches x → (bkFlashGetInfo p).partitionStartAddr ≤ x ∧
    x < (bkFlashGetInfo p).partitionStartAddr + (bkFlashGetInfo p).partitionLength

/-- Every cell the commands touch lies in a sector with a byte of the range. -/
def Around (address len : Nat) (ops : List FlashOp) : Prop :=
  ∀ op ∈ ops, ∀ x, op.Touches x → ∃ y, address ≤ y ∧ y < address + len ∧ x / SECTOR = y / SECTOR

/-- Every byte of the range is touched. -/
def Covers (address len : Nat) (ops : List FlashOp) : Prop :=
  ∀ x, address ≤ x → x < address + len → ∃ op ∈ ops, op.Touches x

theorem around_of_onPage {address len : Nat} {ops : List FlashOp}
    (pages : ∀ op ∈ ops, OnPage address len op) : Around address len ops := by
  intro op member x touches
  obtain ⟨line, kind, aligned, some, lower, upper⟩ := pages op member
  have inside : line ≤ x ∧ x < line + 32 := by
    rcases kind with rfl | ⟨page, rfl, size⟩
    · exact touches
    · rw [← size]
      exact touches
  -- the page has a byte of the range, and lies in one sector
  refine ⟨max address line, by omega, by omega, ?_⟩
  rw [SECTOR]
  omega

theorem around_bkFlashEraseOps (some : 0 < size)
    (bound : (bkFlashGetInfo p).partitionStartAddr + offSet + size ≤ 2 ^ 24) :
    Around ((bkFlashGetInfo p).partitionStartAddr + offSet) size (bkFlashEraseOps chip p offSet size) := by
  intro op member x touches
  obtain ⟨base, rfl, -, aligned, -, lower, upper⟩ := (mem_bkFlashEraseOps some bound op).mp member
  have inside : base ≤ x ∧ x < base + SECTOR := touches
  rw [SECTOR] at *
  refine ⟨max ((bkFlashGetInfo p).partitionStartAddr + offSet) base, by omega, by omega, ?_⟩
  omega

theorem confined_of_around {ops : List FlashOp} (inside : offSet + size ≤ (bkFlashGetInfo p).partitionLength)
    (around : Around ((bkFlashGetInfo p).partitionStartAddr + offSet) size ops) : Confined p ops := by
  intro op member x touches
  obtain ⟨aligned, whole, -⟩ := partition_sectors p
  obtain ⟨y, lower, upper, same⟩ := around op member x touches
  rw [SECTOR] at *
  omega

theorem inside_of_confined {ops : List FlashOp} (some : 0 < size)
    (covers : Covers ((bkFlashGetInfo p).partitionStartAddr + offSet) size ops)
    (confined : Confined p ops) : offSet + size ≤ (bkFlashGetInfo p).partitionLength := by
  -- the last byte of the range
  obtain ⟨op, member, touches⟩ :=
    covers ((bkFlashGetInfo p).partitionStartAddr + offSet + size - 1) (by omega) (by omega)
  have upper := (confined op member _ touches).2
  omega

theorem covers_bkFlashEraseOps (some : 0 < size)
    (inFlash : (bkFlashGetInfo p).partitionStartAddr + offSet + size ≤ chip.flashSize) :
    Covers ((bkFlashGetInfo p).partitionStartAddr + offSet) size (bkFlashEraseOps chip p offSet size) := by
  intro x lower upper
  have bound := (flashSize_sector chip).2
  refine ⟨.erase (x - x % SECTOR), (mem_bkFlashEraseOps some (by omega) _).mpr
    ⟨_, rfl, by omega, ?_, some, ?_, by omega⟩, ?_, ?_⟩
  · rw [SECTOR]
    omega
  · rw [SECTOR]
    omega
  · exact Nat.sub_le _ _
  · change x < x - x % SECTOR + SECTOR
    rw [SECTOR]
    omega

theorem covers_flashReadOps (address len : Nat) : Covers address len (flashReadOps address len) := by
  intro x lower upper
  have page : IsPage address len (x - x % 32) := ⟨by omega, by omega, by omega, by omega⟩
  refine ⟨.read (x - x % 32), (mem_flashReadOps _ _ _).mpr ⟨_, rfl, page⟩, Nat.sub_le _ _, ?_⟩
  change x < x - x % 32 + 32
  omega

theorem covers_flashWriteOps {cells buffer : Mem UInt8} {address len : Nat}
    (writable : Writable chip address len) :
    Covers address len (flashWriteOps chip cells buffer address len) := by
  intro x lower upper
  obtain ⟨op, member, -, touches⟩ := flashWriteOps_covers writable lower upper
  exact ⟨op, member, touches⟩

end

/-! ### The three calls -/

/-- What `bk_flash_erase`, `bk_flash_write` and `bk_flash_read` keep to. The first is promised for ranges
inside the partition; on a chip that has the whole range, the sectors that are erased are those with a
byte of it, each once, and every call that leaves the partition touches something else. -/
structure PartitionCalls (chip : Chip) (p : BkPartition) (offSet size : Nat) : Prop where
  inside : 0 < size → offSet + size ≤ (bkFlashGetInfo p).partitionLength →
    Confined p (bkFlashEraseOps chip p offSet size) ∧
      (∀ cells inBuffer, inBuffer.length = size → Confined p (bkFlashWriteOps chip p cells offSet inBuffer)) ∧
      Confined p (bkFlashReadOps p offSet size)
  sectors : 0 < size → (bkFlashGetInfo p).partitionStartAddr + offSet + size ≤ chip.flashSize →
    (bkFlashEraseOps chip p offSet size).Nodup ∧
      ∀ op, op ∈ bkFlashEraseOps chip p offSet size ↔
        ∃ base, op = .erase base ∧ IsSector ((bkFlashGetInfo p).partitionStartAddr + offSet) size base
  unchecked : 0 < size → (bkFlashGetInfo p).partitionStartAddr + offSet + size ≤ chip.flashSize →
    (bkFlashGetInfo p).partitionLength < offSet + size →
    ¬ Confined p (bkFlashEraseOps chip p offSet size) ∧
      (∀ cells inBuffer, inBuffer.length = size → ¬ Confined p (bkFlashWriteOps chip p cells offSet inBuffer)) ∧
      ¬ Confined p (bkFlashReadOps p offSet size)
  empty : (∀ cells, ∀ op ∈ bkFlashWriteOps chip p cells offSet [], op.changes = false) ∧
    bkFlashReadOps p offSet 0 = []

theorem partition_calls (chip : Chip) (p : BkPartition) (offSet size : Nat) :
    PartitionCalls chip p offSet size := by
  obtain ⟨-, -, low⟩ := partition_sectors p
  have flash := (flashSize_sector chip).2
  refine ⟨fun some inside => ?_, fun some inFlash => ?_, fun some inFlash outside => ?_, ?_⟩
  · have start : ((bkFlashGetInfo p).partitionStartAddr + offSet) % 2 ^ 32 =
        (bkFlashGetInfo p).partitionStartAddr + offSet := Nat.mod_eq_of_lt (by omega)
    refine ⟨?_, fun cells inBuffer length => ?_, ?_⟩
    · exact confined_of_around inside (around_bkFlashEraseOps some (by omega))
    · rw [bkFlashWriteOps, start, length]
      exact confined_of_around inside (around_of_onPage (onPage_flashWriteOps some))
    · rw [bkFlashReadOps, start]
      refine confined_of_around inside (around_of_onPage fun op member => ?_)
      obtain ⟨line, rfl, page⟩ := (mem_flashReadOps _ _ op).mp member
      exact ⟨line, .inl rfl, page⟩
  · refine ⟨nodup_bkFlashEraseOps (by omega) some, fun op => ?_⟩
    rw [mem_bkFlashEraseOps some (by omega)]
    constructor
    · rintro ⟨base, rfl, -, sector⟩
      exact ⟨base, rfl, sector⟩
    · rintro ⟨base, rfl, sector⟩
      exact ⟨base, rfl, by have upper := sector.2.2.2; omega, sector⟩
  · have start : ((bkFlashGetInfo p).partitionStartAddr + offSet) % 2 ^ 32 =
        (bkFlashGetInfo p).partitionStartAddr + offSet := Nat.mod_eq_of_lt (by omega)
    refine ⟨fun confined => ?_, fun cells inBuffer length confined => ?_, fun confined => ?_⟩
    · have within := inside_of_confined some (covers_bkFlashEraseOps some inFlash) confined
      omega
    · rw [bkFlashWriteOps, start, length] at confined
      have within := inside_of_confined some
        (covers_flashWriteOps (writable_of_le chip inFlash (by omega))) confined
      omega
    · rw [bkFlashReadOps, start] at confined
      have within := inside_of_confined some (covers_flashReadOps _ _) confined
      omega
  · exact ⟨fun cells op member => flashWriteOps_empty member, rfl⟩

/-- The erase of a sector of the network parameters inside their partition. -/
theorem partition_calls_netParam :
    Confined .NET_PARAM (bkFlashEraseOps defaultChip .NET_PARAM 0 100) :=
  ((partition_calls defaultChip .NET_PARAM 0 100).inside (by decide) (by decide)).1

/-- Erasing exactly the sectors of the range, and nothing outside the partition. -/
def PartitionSafe (chip : Chip) (p : BkPartition) (offSet size : Nat) : Prop :=
  (∀ op, op ∈ bkFlashEraseOps chip p offSet size ↔
    ∃ base, op = .erase base ∧ IsSector ((bkFlashGetInfo p).partitionStartAddr + offSet) size base) ∧
    Confined p (bkFlashEraseOps chip p offSet size) ∧
    (∀ cells inBuffer, inBuffer.length = size → Confined p (bkFlashWriteOps chip p cells offSet inBuffer)) ∧
    Confined p (bkFlashReadOps p offSet size)

/-- One byte behind the calibration data is one byte of the network parameters. -/
theorem partition_safe_fails : ¬ PartitionSafe defaultChip .RF_FIRMWARE 0x1000 1 := by
  rintro ⟨-, confined, -⟩
  have member : FlashOp.erase 0x1e1000 ∈ bkFlashEraseOps defaultChip .RF_FIRMWARE 0x1000 1 := by decide
  have inside := confined _ member 0x1e1000 ⟨Nat.le_refl _, by decide⟩
  exact absurd inside.2 (by decide)

end Bk7251.Flash
