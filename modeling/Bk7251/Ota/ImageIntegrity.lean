import Bk7251.Ota.StoreBlock

/-!
# The image in flash

When a transfer is committed, the flash holds the received image exactly where every byte lies in a
sector that some block begins, or needs no bit set. `store_block` erases no other sector, reads the
block back without acting on a difference, and computes the checksum over what it received.
-/
namespace Bk7251.Ota

open Lib Nor Flash

/-- A block as a caller hands it in, and whether `os_malloc` finds memory for the read-back. -/
structure Handed where
  bytes : List UInt8
  malloc : Bool
  long : TFTP_PKT_HD_LEN ≤ bytes.length
  short : bytes.length < 2 ^ 32

namespace Handed

def src (b : Handed) : Mem UInt8 := Mem.ofList b.bytes

def head (b : Handed) : SendPtkHd := SendPtkHd.load b.src

def payload (b : Handed) : List UInt8 := b.bytes.drop TFTP_PKT_HD_LEN

end Handed

def image (bs : List Handed) : List UInt8 := (bs.map Handed.payload).flatten

/-- Where the image starts: the address in the head of block 1. -/
def imageBase : List Handed → Nat
  | [] => 0
  | b :: _ => b.head.os1FlashAddr.toNat

/-- The sector of the image head, and the head itself, lie outside the image. -/
def HeadApart (hd : SendPtkHd) (base limit : Nat) : Prop :=
  (sectorOf hd.osHdAddr.toNat + SECTOR ≤ base ∨ limit ≤ sectorOf hd.osHdAddr.toNat) ∧
    (hd.osHdAddr.toNat + 32 ≤ base ∨ limit ≤ hd.osHdAddr.toNat)

instance (hd : SendPtkHd) (base limit : Nat) : Decidable (HeadApart hd base limit) :=
  inferInstanceAs (Decidable (_ ∧ _))

/-- The heads describe an image that fits on the chip and leaves the image head alone. -/
structure ValidHeads (chip : Chip) (bs : List Handed) : Prop where
  onChip : imageBase bs + (image bs).length ≤ chip.flashSize
  apart : ∀ b ∈ bs, b.head.seq = b.head.totalSeq →
    HeadApart b.head (imageBase bs) (imageBase bs + (image bs).length)

section

variable (co_crc32 : List UInt8 → UInt32 → UInt32) (chip : Chip)

/-- The blocks are handed to `store_block` in order, from number `block` on. -/
def storeBlocks : (s : Store) → (block : Nat) → List Handed → Option Store
  | s, _, [] => some s
  | s, block, b :: bs =>
    (storeBlock co_crc32 chip b.malloc s block b.src b.bytes.length).bind fun s =>
      storeBlocks s (block + 1) bs

/-- `store_block` writes the image head for this block. -/
def Commits (s : Store) (block : Nat) (b : Handed) : Prop :=
  ¬ OutOfRange (s.takeHead block b.src).osDataAddr ∧ b.head.seq = b.head.totalSeq ∧
    lastCrc co_crc32 (s.takeHead block b.src).tftpCrc b.src b.bytes.length = orCrc b.src b.bytes.length

/-! ### One block -/

/-- The cells after the erase and the write of a block. -/
def blockCells (cells : Mem UInt8) (addr : Nat) (b : Handed) : Mem UInt8 :=
  flashWriteData chip (if addr % SECTOR = 0 then flashEraseSector chip cells addr else cells)
    (b.src.shift TFTP_PKT_HD_LEN) addr b.payload.length

private theorem count_eq (b : Handed) :
    (b.bytes.length + (2 ^ 32 - TFTP_PKT_HD_LEN)) % 2 ^ 32 = b.payload.length := by
  have long := b.long
  have short := b.short
  rw [Handed.payload, List.length_drop]
  simp only [TFTP_PKT_HD_LEN] at *
  omega

theorem read_payload (b : Handed) :
    (b.src.shift TFTP_PKT_HD_LEN).read 0 b.payload.length = b.payload := by
  have long := b.long
  have length : b.payload.length = b.bytes.length - TFTP_PKT_HD_LEN := List.length_drop
  rw [Mem.read_shift, Nat.add_zero, Handed.src, Mem.read_ofList _ (by omega)]
  exact List.take_length

variable {co_crc32 chip}

/-- A block outside the range is dropped, and the address stays where it is. -/
theorem storeBlock_outOfRange {s s' : Store} {block : Nat} {b : Handed}
    (stored : storeBlock co_crc32 chip b.malloc s block b.src b.bytes.length = some s')
    (outside : OutOfRange (s.takeHead block b.src).osDataAddr) :
    s'.osDataAddr = (s.takeHead block b.src).osDataAddr := by
  have outside' : OutOfRange ((s.takeHead block b.src).eraseSector chip).osDataAddr := outside
  simp only [storeBlock, if_pos outside', Option.some.injEq] at stored
  rw [← stored]
  rfl

private theorem checkCrc_osDataAddr (s : Store) (src : Mem UInt8) (len : Nat) :
    (checkCrc co_crc32 chip s src len).osDataAddr = s.osDataAddr := by
  simp only [checkCrc]
  split
  · rfl
  · split <;> rfl

/-- Outside the image head's place the checksum test changes no cell. -/
private theorem checkCrc_cells {s : Store} {src : Mem UInt8} {len x : Nat} (base limit : Nat)
    (apart : s.sendHd.seq = s.sendHd.totalSeq → HeadApart s.sendHd base limit)
    (lower : base ≤ x) (upper : x < limit) :
    (checkCrc co_crc32 chip s src len).cells x = s.cells x := by
  simp only [checkCrc]
  split
  · rfl
  next last =>
    obtain ⟨sector, place⟩ := apart (not_not.mp last)
    split
    · change flashWriteData chip (flashEraseSector chip s.cells s.sendHd.osHdAddr.toNat) _ _ _ x = _
      rw [flashWriteData_eq, flashEraseSector]
      have erased : ∀ cells : Mem UInt8,
          erase cells (sectorOf s.sendHd.osHdAddr.toNat) SECTOR x = cells x := fun cells => by
        rcases sector with below | above
        · exact erase_of_ge _ (by omega)
        · exact erase_of_lt _ (by omega)
      have programmed : ∀ (cells buffer : Mem UInt8),
          program cells s.sendHd.osHdAddr.toNat (buffer.read 0 32) x = cells x := fun cells buffer => by
        rcases place with below | above
        · exact program_of_ge _ _ (by rw [Mem.length_read]; omega)
        · exact program_of_lt _ _ (by omega)
      split <;> split <;> simp only [programmed, erased]
    · rfl

/-- A block within the range is written at `os_data_addr`, which moves on behind it. -/
theorem storeBlock_inRange {s s' : Store} {block : Nat} {b : Handed}
    (stored : storeBlock co_crc32 chip b.malloc s block b.src b.bytes.length = some s')
    (inside : ¬ OutOfRange (s.takeHead block b.src).osDataAddr) :
    s'.osDataAddr = ((s.takeHead block b.src).osDataAddr + b.payload.length) % 2 ^ 32 ∧
      ∀ base limit x, (b.head.seq = b.head.totalSeq → HeadApart b.head base limit) →
        base ≤ x → x < limit →
        s'.cells x = blockCells chip s.cells (s.takeHead block b.src).osDataAddr b x := by
  have inside' : ¬ OutOfRange ((s.takeHead block b.src).eraseSector chip).osDataAddr := inside
  simp only [storeBlock, if_neg inside', count_eq] at stored
  split at stored
  · cases stored
  · split at stored
    · cases stored
    · rw [← Option.some.inj stored]
      refine ⟨?_, ?_⟩
      · simp only [checkCrc_osDataAddr]
        rfl
      · intro base limit x apart lower upper
        have head : (s.takeHead block b.src).cells = s.cells := by
          simp only [Store.takeHead]
          split <;> rfl
        change (checkCrc co_crc32 chip _ b.src b.bytes.length).cells x = _
        rw [checkCrc_cells base limit apart lower upper, blockCells, ← head]
        rfl

/-- Blocks with at most 1024 bytes of payload never overrun the read-back buffer. -/
theorem storeBlock_isSome (s : Store) (block : Nat) (b : Handed)
    (small : b.payload.length ≤ 1024) :
    (storeBlock co_crc32 chip b.malloc s block b.src b.bytes.length).isSome := by
  have long := b.long
  rw [TFTP_PKT_HD_LEN] at long
  simp only [storeBlock, count_eq]
  split
  · rfl
  · rw [if_neg (by omega), if_neg (by rw [TFTP_ALL_CRC_LEN]; omega)]
    rfl

/-- The block commits the image, with status 1 and the place and length from its own head; any other
block leaves the image head alone. -/
theorem storeBlock_imgHd {s s' : Store} {block : Nat} {b : Handed}
    (stored : storeBlock co_crc32 chip b.malloc s block b.src b.bytes.length = some s') :
    (Commits co_crc32 s block b → s'.imgHd.status = 1 ∧
        s'.imgHd.bkupAddr = b.head.os1FlashAddr ∧ s'.imgHd.bkupLen = b.head.totalLen) ∧
      (¬ Commits co_crc32 s block b → s'.imgHd = s.imgHd) := by
  have kept : (s.takeHead block b.src).imgHd = s.imgHd := by
    simp only [Store.takeHead]
    split <;> rfl
  have range : ((s.takeHead block b.src).eraseSector chip).osDataAddr =
      (s.takeHead block b.src).osDataAddr := rfl
  simp only [storeBlock, range] at stored
  split at stored
  next outside =>
    rw [← Option.some.inj stored]
    exact ⟨fun commits => absurd outside commits.1, fun _ => kept⟩
  next inside =>
    split at stored
    · cases stored
    · split at stored
      · cases stored
      · rw [← Option.some.inj stored]
        simp only [checkCrc]
        split
        next more => exact ⟨fun commits => absurd commits.2.1 more, fun _ => kept⟩
        next last =>
          split
          next agrees => exact ⟨fun _ => ⟨rfl, rfl, rfl⟩, fun refused =>
            absurd ⟨inside, not_not.mp last, agrees⟩ refused⟩
          next differs => exact ⟨fun commits => absurd commits.2.2 differs, fun _ => kept⟩

/-! ### The transfer as a stream -/

/-- Below the end of the image a block does what the streaming writer does. -/
private theorem blockCells_eq {cells : Mem UInt8} {addr limit x : Nat} {b : Handed}
    (onChip : limit ≤ chip.flashSize) (room : addr + b.payload.length ≤ limit)
    (inside : ¬ OutOfRange addr) (upper : x < limit) :
    blockCells chip cells addr b x = (put SECTOR (cells, addr) b.payload).1 x := by
  rw [blockCells, flashWriteData_eq, read_payload]
  rw [OutOfRange] at inside
  have sector : addr % SECTOR = 0 → sectorOf addr = addr := by
    intro aligned
    rw [SECTOR] at aligned
    rw [sectorOf, SECTOR]
    omega
  by_cases behind : chip.flashSize ≤ addr
  · -- only an empty payload fits behind the chip's end; neither writer touches the image
    have nothing : b.payload = [] := List.eq_nil_of_length_eq_zero (by omega)
    have erased : erase cells addr SECTOR x = cells x := erase_of_lt _ (by omega)
    by_cases aligned : addr % SECTOR = 0
    · simp only [put, nothing, aligned, if_true, flashEraseSector, sector aligned, if_pos behind,
        program_nil, erased, ite_self, List.length_nil]
    · simp only [put, nothing, aligned, if_false, program_nil, ite_self]
  · rw [if_pos (writable_of_le chip (by omega) (by omega)), put]
    by_cases aligned : addr % SECTOR = 0
    · simp only [aligned, if_true, flashEraseSector, sector aligned, if_neg behind]
    · simp only [aligned, if_false]

/-- The store has reached the position of the streaming writer, with the same bytes in the image. -/
structure Streams (base limit : Nat) (s : Store) (t : Mem UInt8 × Nat) : Prop where
  position : s.osDataAddr = t.2
  same : ∀ x, base ≤ x → x < limit → s.cells x = t.1 x

/-- Once the address is out of range nothing is stored any more; until then the store streams. -/
def StreamsOrStuck (base limit : Nat) (s : Store) (t : Mem UInt8 × Nat) : Prop :=
  OutOfRange s.osDataAddr ∨ Streams base limit s t

private theorem takeHead_osDataAddr {s : Store} {block : Nat} (later : block ≠ 0) (src : Mem UInt8) :
    (s.takeHead block src).osDataAddr = s.osDataAddr := by
  simp only [Store.takeHead, if_pos later]

/-- A block within the range is one chunk of the stream. -/
private theorem streams_put {s s' : Store} {t : Mem UInt8 × Nat} {block base limit : Nat}
    {b : Handed} (onChip : limit ≤ chip.flashSize) (room : t.2 + b.payload.length ≤ limit)
    (apart : b.head.seq = b.head.totalSeq → HeadApart b.head base limit) (later : block ≠ 0)
    (streams : Streams base limit s t) (inside : ¬ OutOfRange s.osDataAddr)
    (stored : storeBlock co_crc32 chip b.malloc s block b.src b.bytes.length = some s') :
    Streams base limit s' (put SECTOR t b.payload) := by
  have addr := takeHead_osDataAddr (s := s) later b.src
  obtain ⟨position, same⟩ := streams
  obtain ⟨moved, cells⟩ := storeBlock_inRange stored (by rwa [addr])
  rw [addr] at moved
  refine ⟨?_, ?_⟩
  · -- the image ends within the chip, so the 32-bit address does not wrap
    have size : chip.flashSize ≤ 0x800000 := by
      have valid := chip.valid
      simp only [List.mem_cons, List.not_mem_nil, or_false] at valid
      omega
    rw [moved, position]
    exact Nat.mod_eq_of_lt (by omega)
  · intro x lower upper
    rw [cells base limit x apart lower upper, addr, position,
      blockCells_eq onChip room (by rwa [← position]) upper]
    exact put_congr (same x lower upper) _ _

private theorem streams_step {s s' : Store} {t : Mem UInt8 × Nat} {block base limit : Nat}
    {b : Handed} (onChip : limit ≤ chip.flashSize) (room : t.2 + b.payload.length ≤ limit)
    (apart : b.head.seq = b.head.totalSeq → HeadApart b.head base limit) (later : block ≠ 0)
    (streams : StreamsOrStuck base limit s t)
    (stored : storeBlock co_crc32 chip b.malloc s block b.src b.bytes.length = some s') :
    StreamsOrStuck base limit s' (put SECTOR t b.payload) := by
  by_cases inside : OutOfRange s.osDataAddr
  · -- the block is dropped and the address stays out of range
    have addr := takeHead_osDataAddr (s := s) later b.src
    left
    rw [storeBlock_outOfRange stored (by rwa [addr]), addr]
    exact inside
  · exact .inr (streams_put onChip room apart later (streams.resolve_left inside) inside stored)

private theorem streams_run {s s' : Store} {t : Mem UInt8 × Nat} {block base limit : Nat}
    {bs : List Handed} (onChip : limit ≤ chip.flashSize) (room : t.2 + (image bs).length ≤ limit)
    (apart : ∀ b ∈ bs, b.head.seq = b.head.totalSeq → HeadApart b.head base limit)
    (later : block ≠ 0) (streams : StreamsOrStuck base limit s t)
    (stored : storeBlocks co_crc32 chip s block bs = some s') :
    StreamsOrStuck base limit s' ((bs.map Handed.payload).foldl (put SECTOR) t) := by
  induction bs generalizing s t block with
  | nil =>
    rw [← Option.some.inj stored]
    exact streams
  | cons b bs ih =>
    obtain ⟨next, first, rest⟩ := Option.bind_eq_some_iff.mp stored
    have split : (image (b :: bs)).length = b.payload.length + (image bs).length := by
      simp [image]
    refine ih ?_ (fun b' member => apart b' (List.mem_cons_of_mem _ member))
      (Nat.succ_ne_zero block) (streams_step onChip (by omega) (apart b (by simp)) later streams first) rest
    rw [put]
    omega

/-- Block 0 is a later block of a store whose address and checksum were just set. -/
def Store.start (s : Store) (b : Handed) : Store :=
  { s with osDataAddr := b.head.os1FlashAddr.toNat, tftpCrc := 0 }

private theorem storeBlock_start (s : Store) (b : Handed) :
    storeBlock co_crc32 chip b.malloc s 0 b.src b.bytes.length =
      storeBlock co_crc32 chip b.malloc (s.start b) 1 b.src b.bytes.length := rfl

private theorem storeBlock_later (s : Store) {block block' : Nat} (later : block ≠ 0)
    (later' : block' ≠ 0) (malloc : Bool) (src : Mem UInt8) (len : Nat) :
    storeBlock co_crc32 chip malloc s block src len =
      storeBlock co_crc32 chip malloc s block' src len := by
  have same : s.takeHead block src = s.takeHead block' src := by
    simp only [Store.takeHead, if_pos later, if_pos later']
  simp only [storeBlock, same]

private theorem storeBlocks_later (s : Store) {block block' : Nat} (later : block ≠ 0)
    (later' : block' ≠ 0) (bs : List Handed) :
    storeBlocks co_crc32 chip s block bs = storeBlocks co_crc32 chip s block' bs := by
  induction bs generalizing s block block' with
  | nil => rfl
  | cons b bs ih =>
    rw [storeBlocks, storeBlocks, storeBlock_later s later later']
    exact congrArg _ (funext fun s => ih s (Nat.succ_ne_zero _) (Nat.succ_ne_zero _))

private theorem image_length_append (bs cs : List Handed) :
    (image (bs ++ cs)).length = (image bs).length + (image cs).length := by
  simp [image]

/-- While every block begins within the range, the address is the number of bytes stored. -/
private theorem position_run {s s' : Store} {block : Nat} {bs : List Handed} (later : block ≠ 0)
    (inRange : ∀ a ∈ starts s.osDataAddr (bs.map Handed.payload), ¬ OutOfRange a)
    (bound : s.osDataAddr + (image bs).length < 2 ^ 32)
    (stored : storeBlocks co_crc32 chip s block bs = some s') :
    s'.osDataAddr = s.osDataAddr + (image bs).length := by
  induction bs generalizing s block with
  | nil =>
    rw [← Option.some.inj stored]
    rfl
  | cons b bs ih =>
    obtain ⟨next, first, rest⟩ := Option.bind_eq_some_iff.mp stored
    have split : (image (b :: bs)).length = b.payload.length + (image bs).length := by
      simp [image]
    simp only [List.map_cons, starts, List.mem_cons, forall_eq_or_imp] at inRange
    have moved := (storeBlock_inRange first (by rw [takeHead_osDataAddr later]; exact inRange.1)).1
    rw [takeHead_osDataAddr later, Nat.mod_eq_of_lt (by omega)] at moved
    rw [ih (Nat.succ_ne_zero _) (by rw [moved]; exact inRange.2) (by omega) rest, moved, split,
      Nat.add_assoc]

private theorem storeBlocks_start (s : Store) (b : Handed) (bs : List Handed) :
    storeBlocks co_crc32 chip s 0 (b :: bs) =
      storeBlocks co_crc32 chip (s.start b) 1 (b :: bs) := by
  rw [storeBlocks, storeBlocks, storeBlock_start]
  exact congrArg _ (funext fun s => storeBlocks_later s (by decide) (by decide) bs)

/-- When the last block gets past the range check, the store has streamed all blocks before it. -/
private theorem streams_before_last {s₀ s₁ : Store} {bs : List Handed} {last : Handed}
    (valid : ValidHeads chip (bs ++ [last])) (before : storeBlocks co_crc32 chip s₀ 0 bs = some s₁)
    (inside : ¬ OutOfRange (s₁.takeHead bs.length last.src).osDataAddr) :
    ∃ s, Streams (imageBase (bs ++ [last])) (imageBase (bs ++ [last]) + (image (bs ++ [last])).length) s
        ((bs.map Handed.payload).foldl (put SECTOR) (s₀.cells, imageBase (bs ++ [last]))) ∧
      ¬ OutOfRange s.osDataAddr ∧
      storeBlock co_crc32 chip last.malloc s 1 last.src last.bytes.length =
        storeBlock co_crc32 chip last.malloc s₁ bs.length last.src last.bytes.length := by
  cases bs with
  | nil =>
    -- the last block is the first one: it sets the address itself
    rw [← Option.some.inj before] at inside ⊢
    exact ⟨s₀.start last, ⟨rfl, fun x _ _ => rfl⟩, inside, (storeBlock_start s₀ last).symm⟩
  | cons b bs =>
    have started := before
    rw [storeBlocks_start] at started
    have base : imageBase (b :: bs ++ [last]) = b.head.os1FlashAddr.toNat := rfl
    have onChip := valid.onChip
    have apart := valid.apart
    rw [base] at onChip apart ⊢
    have room : b.head.os1FlashAddr.toNat + (image (b :: bs)).length ≤
        b.head.os1FlashAddr.toNat + (image (b :: bs ++ [last])).length := by
      rw [image_length_append]
      omega
    have initial : Streams b.head.os1FlashAddr.toNat
        (b.head.os1FlashAddr.toNat + (image (b :: bs ++ [last])).length) (s₀.start b)
        (s₀.cells, b.head.os1FlashAddr.toNat) := ⟨rfl, fun x _ _ => rfl⟩
    have streams := streams_run onChip room
      (fun b' member => apart b' (List.mem_append_left _ member)) (by decide) (.inr initial) started
    rw [takeHead_osDataAddr (by simp)] at inside
    exact ⟨s₁, streams.resolve_left inside, inside, storeBlock_later s₁ (by decide) (by simp) _ _ _⟩

/-- What is in flash after a committed transfer is what the streaming writer leaves there. -/
private theorem committed_read {s₀ s₁ s₂ : Store} {bs : List Handed} {last : Handed} {n : Nat}
    (valid : ValidHeads chip (bs ++ [last]))
    (before : storeBlocks co_crc32 chip s₀ 0 bs = some s₁)
    (commits : Commits co_crc32 s₁ bs.length last)
    (stored : storeBlock co_crc32 chip last.malloc s₁ bs.length last.src last.bytes.length = some s₂)
    (bound : n ≤ (image (bs ++ [last])).length) :
    s₂.cells.read (imageBase (bs ++ [last])) n =
      Mem.read (((bs ++ [last]).map Handed.payload).foldl (put SECTOR)
        (s₀.cells, imageBase (bs ++ [last]))).1 (imageBase (bs ++ [last])) n := by
  obtain ⟨s, streams, inside, same⟩ := streams_before_last valid before commits.1
  have whole : (image (bs ++ [last])).length = (image bs).length + last.payload.length := by
    rw [image_length_append]
    simp [image]
  have streamed := streams_put valid.onChip
    (by
      rw [put_position, whole]
      change imageBase (bs ++ [last]) + (image bs).length + last.payload.length ≤ _
      omega)
    (valid.apart last (by simp)) (by decide) streams inside (same.trans stored)
  rw [List.map_append, List.foldl_append]
  exact Mem.read_congr _ _ _ _ fun x lower upper => streamed.same x lower (by omega)

end

/-- Of a committed image the first `n` bytes are in flash exactly when each of them lies in a sector
that some block begins, or has no bit that was clear there before. -/
theorem image_intact_iff (co_crc32 : List UInt8 → UInt32 → UInt32) (chip : Chip) (s₀ s₁ s₂ : Store)
    (bs : List Handed) (last : Handed) (n : Nat) (valid : ValidHeads chip (bs ++ [last]))
    (before : storeBlocks co_crc32 chip s₀ 0 bs = some s₁)
    (commits : Commits co_crc32 s₁ bs.length last)
    (stored : storeBlock co_crc32 chip last.malloc s₁ bs.length last.src last.bytes.length = some s₂)
    (bound : n ≤ (image (bs ++ [last])).length) :
    s₂.cells.read (imageBase (bs ++ [last])) n = (image (bs ++ [last])).take n ↔
      ∀ j (h : j < n),
        (imageBase (bs ++ [last]) + j) / SECTOR * SECTOR ∈
            starts (imageBase (bs ++ [last])) ((bs ++ [last]).map Handed.payload) ∨
          s₀.cells (imageBase (bs ++ [last]) + j) &&& (image (bs ++ [last]))[j] =
            (image (bs ++ [last]))[j] := by
  rw [committed_read valid before commits stored bound]
  exact read_put_iff (by decide) _ _ _ _ bound

/-! ### A transfer in TFTP's default block size

Nine blocks of 512 bytes, 488 of them payload: after the first none begins at a sector boundary. -/

theorem storeBlocks_isSome (co_crc32 : List UInt8 → UInt32 → UInt32) (chip : Chip) (s : Store)
    (block : Nat) (bs : List Handed) (small : ∀ b ∈ bs, b.payload.length ≤ 1024) :
    (storeBlocks co_crc32 chip s block bs).isSome := by
  induction bs generalizing s block with
  | nil => rfl
  | cons b bs ih =>
    obtain ⟨s', stored⟩ := Option.isSome_iff_exists.mp
      (@storeBlock_isSome co_crc32 chip s block b (small b (by simp)))
    rw [storeBlocks, stored]
    exact ih s' (block + 1) fun b' member => small b' (List.mem_cons_of_mem _ member)

theorem le_length_block (hd : SendPtkHd) (payload : List UInt8) :
    TFTP_PKT_HD_LEN ≤ (hd.bytes ++ payload).length := by
  rw [List.length_append, length_sendPtkHd_bytes]
  exact Nat.le_add_right _ _

theorem length_block_lt (hd : SendPtkHd) {payload : List UInt8} (short : payload.length ≤ 1024) :
    (hd.bytes ++ payload).length < 2 ^ 32 := by
  rw [List.length_append, length_sendPtkHd_bytes, TFTP_PKT_HD_LEN]
  omega

def handBlock (hd : SendPtkHd) (payload : List UInt8) (short : payload.length ≤ 1024) : Handed where
  bytes := hd.bytes ++ payload
  malloc := true
  long := le_length_block hd payload
  short := length_block_lt hd short

@[simp] theorem head_handBlock (hd : SendPtkHd) (payload : List UInt8) (short : payload.length ≤ 1024) :
    (handBlock hd payload short).head = hd := load_bytes hd payload

@[simp] theorem payload_handBlock (hd : SendPtkHd) (payload : List UInt8)
    (short : payload.length ≤ 1024) : (handBlock hd payload short).payload = payload :=
  List.drop_left' (length_sendPtkHd_bytes hd)

def sampleHead (seq : UInt16) : SendPtkHd where
  totalLen := 4388
  seq := seq
  totalSeq := 9
  os0ExAddr := 0
  osHdAddr := 0x8B000
  os0FlashAddr := 0x11000
  os1FlashAddr := 0x8C000

def sampleBlocks : List Handed :=
  (List.range 8).map fun i =>
    handBlock (sampleHead (UInt16.ofNat (i + 1))) (List.replicate 488 1)
      (by rw [List.length_replicate]; decide)

/-- The last block, with the checksum the receiver computes. -/
def sampleLast (crc : UInt32) : Handed :=
  handBlock (sampleHead 9) (List.replicate 484 1 ++ toLe32 crc)
    (by rw [List.length_append, List.length_replicate, length_toLe32]; decide)

/-- A store whose flash holds one byte everywhere. -/
def storeOver (b : UInt8) : Store := ⟨fun _ => b, default, default, 0, 0, default⟩

/-- A checksum to run the sample with. -/
def byteSum (bytes : List UInt8) (crc : UInt32) : UInt32 :=
  bytes.foldl (fun sum b => sum + b.toUInt32) crc

private theorem sample_payloads :
    sampleBlocks.map Handed.payload = List.replicate 8 (List.replicate 488 1) := by
  simp only [sampleBlocks, List.map_map, Function.comp_def, payload_handBlock, List.map_const',
    List.length_range]

private theorem sample_image : image sampleBlocks = List.replicate 3904 1 := by
  rw [image, sample_payloads, List.flatten_replicate_replicate]

private theorem sample_image_last (crc : UInt32) :
    image (sampleBlocks ++ [sampleLast crc]) =
      List.replicate 3904 1 ++ (List.replicate 484 1 ++ toLe32 crc) := by
  have last : image [sampleLast crc] = List.replicate 484 1 ++ toLe32 crc := by
    simp only [image, sampleLast, List.map_cons, List.map_nil, payload_handBlock, List.flatten_cons,
      List.flatten_nil, List.append_nil]
  rw [← last, ← sample_image]
  simp only [image, List.map_append, List.flatten_append]

private theorem sample_length (crc : UInt32) :
    (image (sampleBlocks ++ [sampleLast crc])).length = 4392 := by
  simp only [sample_image_last, List.length_append, List.length_replicate, length_toLe32]

private theorem sample_base (crc : UInt32) :
    imageBase (sampleBlocks ++ [sampleLast crc]) = 0x8C000 := by
  have first : imageBase (sampleBlocks ++ [sampleLast crc]) =
      (handBlock (sampleHead 1) (List.replicate 488 1)
        (by rw [List.length_replicate]; decide)).head.os1FlashAddr.toNat := rfl
  rw [first, head_handBlock]
  rfl

private theorem sample_starts (a : Nat) (crc : UInt32) :
    starts a ((sampleBlocks ++ [sampleLast crc]).map Handed.payload) =
      (List.range 9).map fun i => a + i * 488 := by
  rw [List.map_append, List.map_singleton, starts_push, sample_payloads, starts_replicate,
    List.flatten_replicate_replicate, List.length_replicate, List.length_replicate]
  rfl

private theorem sample_valid (crc : UInt32) :
    ValidHeads defaultChip (sampleBlocks ++ [sampleLast crc]) := by
  have heads : ∀ b ∈ sampleBlocks ++ [sampleLast crc], ∃ seq, b.head = sampleHead seq := by
    intro b member
    rcases List.mem_append.mp member with early | last
    · obtain ⟨i, -, rfl⟩ := List.mem_map.mp early
      exact ⟨_, head_handBlock _ _ _⟩
    · rw [List.mem_singleton.mp last]
      exact ⟨_, head_handBlock _ _ _⟩
  refine ⟨?_, fun b member _ => ?_⟩
  · rw [sample_length, sample_base]
    decide
  · obtain ⟨seq, head⟩ := heads b member
    rw [sample_length, sample_base, head]
    exact (by decide : HeadApart (sampleHead 0) 0x8C000 (0x8C000 + 4392))

/-- The transfer runs to its end and is committed, whatever the checksum function is. -/
private theorem sample_run (co_crc32 : List UInt8 → UInt32 → UInt32) (s₀ : Store) : ∃ crc s₁ s₂,
    storeBlocks co_crc32 defaultChip s₀ 0 sampleBlocks = some s₁ ∧
      Commits co_crc32 s₁ sampleBlocks.length (sampleLast crc) ∧
      storeBlock co_crc32 defaultChip (sampleLast crc).malloc s₁ sampleBlocks.length
        (sampleLast crc).src (sampleLast crc).bytes.length = some s₂ := by
  obtain ⟨s₁, before⟩ := Option.isSome_iff_exists.mp
    (storeBlocks_isSome co_crc32 defaultChip s₀ 0 sampleBlocks fun b member => by
      obtain ⟨i, -, rfl⟩ := List.mem_map.mp member
      rw [payload_handBlock, List.length_replicate]
      decide)
  let known := (sampleHead 9).bytes ++ List.replicate 484 1
  obtain ⟨crc, computed⟩ : ∃ crc, crc = co_crc32 known s₁.tftpCrc := ⟨_, rfl⟩
  have size : (sampleLast crc).payload.length ≤ 1024 := by
    rw [sampleLast, payload_handBlock, List.length_append, List.length_replicate, length_toLe32]
    decide
  obtain ⟨s₂, stored⟩ := Option.isSome_iff_exists.mp
    (@storeBlock_isSome co_crc32 defaultChip s₁ sampleBlocks.length (sampleLast crc) size)
  have later : sampleBlocks.length ≠ 0 := by decide
  have position : s₁.osDataAddr = 0x8C000 + 3904 := by
    have blocks : sampleBlocks = handBlock (sampleHead 1) (List.replicate 488 1)
        (by rw [List.length_replicate]; decide) :: sampleBlocks.tail := rfl
    have started := before
    rw [blocks, storeBlocks_start, ← blocks] at started
    have address : (s₀.start (handBlock (sampleHead 1) (List.replicate 488 1)
        (by rw [List.length_replicate]; decide))).osDataAddr = 0x8C000 := by
      rw [Store.start, head_handBlock]
      rfl
    have moved := position_run (by decide)
      (by
        rw [address, sample_payloads, starts_replicate, List.length_replicate]
        decide)
      (by
        rw [address, sample_image, List.length_replicate]
        decide) started
    rwa [address, sample_image, List.length_replicate] at moved
  have bytes : (sampleLast crc).bytes = known ++ toLe32 crc := by
    simp only [sampleLast, handBlock, known, List.append_assoc]
  have length : (sampleLast crc).bytes.length = 512 := by
    simp only [bytes, known, List.length_append, length_sendPtkHd_bytes, List.length_replicate,
      length_toLe32, TFTP_PKT_HD_LEN]
  refine ⟨crc, s₁, s₂, before, ⟨?_, ?_, ?_⟩, stored⟩
  · rw [takeHead_osDataAddr later, position]
    decide
  · rw [sampleLast, head_handBlock]
    rfl
  · have kept : (s₁.takeHead sampleBlocks.length (sampleLast crc).src).tftpCrc = s₁.tftpCrc := by
      simp only [Store.takeHead, if_pos later]
    have start : (sampleLast crc).src.read 0 (512 - TFTP_ALL_CRC_LEN) = known := by
      rw [Handed.src, Mem.read_ofList _ (by rw [length, TFTP_ALL_CRC_LEN]; decide), bytes, List.drop_zero]
      exact List.take_left' (by
        simp only [known, List.length_append, length_sendPtkHd_bytes, List.length_replicate]
        rfl)
    have trailer : orCrc (sampleLast crc).src 512 = crc := by
      apply Mem.load32_of_read
      rw [Handed.src, Mem.read_ofList _ (by rw [length, TFTP_ALL_CRC_LEN]), bytes,
        List.drop_left' (by
          simp only [known, List.length_append, length_sendPtkHd_bytes, List.length_replicate]
          rfl)]
      rfl
    rw [length, kept, lastCrc, start, trailer, computed]

/-- Over blank flash the sample image arrives intact. -/
theorem image_intact_iff_blank : ∃ crc s₁ s₂,
    storeBlocks byteSum defaultChip (storeOver 0xFF) 0 sampleBlocks = some s₁ ∧
      Commits byteSum s₁ sampleBlocks.length (sampleLast crc) ∧
      storeBlock byteSum defaultChip (sampleLast crc).malloc s₁ sampleBlocks.length
        (sampleLast crc).src (sampleLast crc).bytes.length = some s₂ ∧
      s₂.cells.read 0x8C000 4392 = image (sampleBlocks ++ [sampleLast crc]) := by
  obtain ⟨crc, s₁, s₂, before, commits, stored⟩ := sample_run byteSum (storeOver 0xFF)
  refine ⟨crc, s₁, s₂, before, commits, stored, ?_⟩
  have intact := (image_intact_iff byteSum defaultChip _ s₁ s₂ _ _ _ (sample_valid crc) before
    commits stored (Nat.le_refl _)).mpr fun j _ => .inr (and_erased _)
  rwa [List.take_length, sample_base, sample_length] at intact

/-- The image in flash is the received one after every committed transfer. -/
def ImageIntact (co_crc32 : List UInt8 → UInt32 → UInt32) : Prop :=
  ∀ (chip : Chip) (s₀ s₁ s₂ : Store) (bs : List Handed) (last : Handed),
    ValidHeads chip (bs ++ [last]) → storeBlocks co_crc32 chip s₀ 0 bs = some s₁ →
    Commits co_crc32 s₁ bs.length last →
    storeBlock co_crc32 chip last.malloc s₁ bs.length last.src last.bytes.length = some s₂ →
    s₂.cells.read (imageBase (bs ++ [last])) (image (bs ++ [last])).length = image (bs ++ [last])

/-- Byte 4096 of the sample image lies in a sector that no block begins, over cleared bits. -/
theorem image_intact_fails : ¬ ∃ co_crc32, ImageIntact co_crc32 := by
  rintro ⟨co_crc32, intact⟩
  obtain ⟨crc, s₁, s₂, before, commits, stored⟩ := sample_run co_crc32 (storeOver 0)
  have valid := sample_valid crc
  have whole := intact _ _ _ _ _ _ valid before commits stored
  rw [committed_read valid before commits stored (Nat.le_refl _)] at whole
  have flat := sample_image_last crc
  rw [image] at flat
  have inside : 4096 < ((sampleBlocks ++ [sampleLast crc]).map Handed.payload).flatten.length := by
    rw [flat]
    simp only [List.length_append, List.length_replicate]
    omega
  have each := (read_put_iff (by decide) (storeOver 0).cells _ _ _ (Nat.le_refl _)).mp
    (whole.trans List.take_length.symm) 4096 inside
  have byte : ((sampleBlocks ++ [sampleLast crc]).map Handed.payload).flatten[4096] = 1 := by
    simp only [flat]
    rw [List.getElem_append_right (by rw [List.length_replicate]; decide),
      List.getElem_append_left (by simp only [List.length_replicate]; omega),
      List.getElem_replicate]
  rw [byte, sample_base, sample_starts] at each
  exact absurd each (by decide)

end Bk7251.Ota
