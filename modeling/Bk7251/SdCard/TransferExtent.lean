import Bk7251.SdCard.SdCard

/-!
# What a transfer moves

A read that returns its count has read these blocks, and a write that returns 0 has sent these bytes. The
counts for which that is so follow from how many rounds the two loops make.
-/
namespace Bk7251.SdCard

open Lib

variable {card : Card} {byteAddressed : Bool}

/-! ### Words and bytes -/

theorem toUInt8_and (x : UInt32) : (x &&& 0xff).toUInt8 = x.toUInt8 := by
  apply UInt8.toNat_inj.mp
  have mask : x.toNat &&& 255 = x.toNat % 256 := Nat.and_two_pow_sub_one_eq_mod x.toNat 8
  rw [UInt32.toNat_toUInt8, UInt32.toNat_toUInt8, UInt32.toNat_and]
  simp only [UInt32.reduceToNat, mask]
  omega

/-- The bytes that the driver takes from a word are those of the word. -/
theorem bytes_of_word (w : UInt32) :
    [(w &&& 0xff).toUInt8, ((w >>> 8) &&& 0xff).toUInt8, ((w >>> 16) &&& 0xff).toUInt8,
      ((w >>> 24) &&& 0xff).toUInt8] = toLe32 w := by
  have shifts : w >>> 8 = w / 256 ∧ w >>> 16 = w / 65536 ∧ w >>> 24 = w / 16777216 := by
    refine ⟨?_, ?_, ?_⟩ <;>
      · apply UInt32.toNat_inj.mp
        simp [Nat.shiftRight_eq_div_pow]
  rw [toUInt8_and, toUInt8_and, toUInt8_and, toUInt8_and, shifts.1, shifts.2.1, shifts.2.2]
  rfl

/-- Four bytes shifted next to each other, the first one highest. -/
theorem or_shifts (a b c d : UInt8) :
    a.toUInt32 <<< 24 ||| b.toUInt32 <<< 16 ||| c.toUInt32 <<< 8 ||| d.toUInt32 = ofLe32 d c b a := by
  have ha := a.toNat_lt
  have hb := b.toNat_lt
  have hc := c.toNat_lt
  have hd := d.toNat_lt
  apply UInt32.toNat_inj.mp
  -- no bit is set in two of the numbers, so the or is a sum
  have high := Nat.two_pow_add_eq_or_of_lt (i := 24) (b := 2 ^ 16 * b.toNat) (by omega) a.toNat
  have middle := Nat.two_pow_add_eq_or_of_lt (i := 16) (b := 2 ^ 8 * c.toNat) (by omega)
    (2 ^ 8 * a.toNat + b.toNat)
  have low := Nat.two_pow_add_eq_or_of_lt (i := 8) (b := d.toNat) hd
    (2 ^ 16 * a.toNat + 2 ^ 8 * b.toNat + c.toNat)
  have shifts : a.toNat <<< 24 % 2 ^ 32 = 2 ^ 24 * a.toNat ∧ b.toNat <<< 16 % 2 ^ 32 = 2 ^ 16 * b.toNat ∧
      c.toNat <<< 8 % 2 ^ 32 = 2 ^ 8 * c.toNat := by
    simp only [Nat.shiftLeft_eq]
    omega
  have bytes : (a.toUInt32 <<< 24 ||| b.toUInt32 <<< 16 ||| c.toUInt32 <<< 8 ||| d.toUInt32).toNat =
      a.toNat <<< 24 % 2 ^ 32 ||| b.toNat <<< 16 % 2 ^ 32 ||| c.toNat <<< 8 % 2 ^ 32 ||| d.toNat := by
    simp
  have first : 2 ^ 24 * a.toNat + 2 ^ 16 * b.toNat = 2 ^ 16 * (2 ^ 8 * a.toNat + b.toNat) := by omega
  have second : 2 ^ 16 * (2 ^ 8 * a.toNat + b.toNat) + 2 ^ 8 * c.toNat =
      2 ^ 8 * (2 ^ 16 * a.toNat + 2 ^ 8 * b.toNat + c.toNat) := by omega
  rw [bytes, shifts.1, shifts.2.1, shifts.2.2, ← high, first, ← middle, second, ← low, ofLe32,
    UInt32.toNat_ofNat']
  omega

theorem wordBytes_tmpval (m : Mem UInt8) (i : UInt32) :
    wordBytes (tmpval m i) = [m i.toNat, m (i + 1).toNat, m (i + 2).toNat, m (i + 3).toNat] := by
  rw [wordBytes, tmpval, or_shifts, toLe32_ofLe32]
  rfl

/-! ### Reading -/

theorem toLe32_load32 (m : Mem UInt8) (i : Nat) : toLe32 (m.load32 i) = m.read i 4 := by
  rw [Mem.load32, toLe32_ofLe32]
  rfl

theorem receiveWords_eq (content : Mem UInt8) (readbuff n i : Nat) (m : Mem UInt8) :
    receiveWords content readbuff n i m = m.write (readbuff + i) (content.read i (4 * n)) := by
  induction n generalizing i m with
  | zero => exact (Mem.write_nil m _).symm
  | succ n ih =>
    -- one word, and behind it what the other rounds store
    have split := Mem.write_append m (readbuff + i) (content.read i 4) (content.read (i + 4) (4 * n))
    rw [Mem.length_read, Nat.add_assoc] at split
    rw [receiveWords, bytes_of_word, toLe32_load32, ih, Nat.mul_add, Nat.add_comm (4 * n), Mem.read_add, split]

/-- The block that the card takes a number for. -/
def blockOf (byteAddressed : Bool) (addr : UInt32) : Nat :=
  ((addr <<< addrShiftBit byteAddressed) >>> addrShiftBit byteAddressed).toNat

/-- The blocks that have an address. -/
def capacity (byteAddressed : Bool) : Nat := if byteAddressed then 2 ^ 23 else 2 ^ 32

theorem blockOf_eq (byteAddressed : Bool) (addr : UInt32) :
    blockOf byteAddressed addr = addr.toNat % capacity byteAddressed := by
  have small := addr.toNat_lt
  cases byteAddressed with
  | false =>
    have same : blockOf false addr = addr.toNat := by simp [blockOf, addrShiftBit]
    rw [same, capacity]
    exact (Nat.mod_eq_of_lt small).symm
  | true =>
    have shifted : blockOf true addr = addr.toNat * 512 % 2 ^ 32 / 512 := by
      simp [blockOf, addrShiftBit, Nat.shiftLeft_eq, Nat.shiftRight_eq_div_pow]
    rw [shifted, capacity, if_pos rfl]
    omega

/-- The card answers the read number `k` of a call with its block. -/
def Card.readOk (card : Card) (k : Nat) : Bool :=
  !(card.readCmd k).timeout && !(card.readCmd k).crcFail && !(card.readData k).timeout &&
    !(card.readData k).crcFail

/-- Only the command number 41 and a few others may fail their CRC. -/
theorem response_eq (reply : Reply) {cmd : UInt32} (checked : cmd ≠ 41 ∧ cmd ≠ 2 ∧ cmd ≠ 9 ∧ cmd ≠ 1) :
    sdioWaitCmdResponse cmd reply =
      if reply.timeout then SD_CMD_RSP_TIMEOUT else if reply.crcFail then SD_CMD_CRC_FAIL else SD_OK := by
  rw [sdioWaitCmdResponse]
  simp only [checked, ne_eq, not_false_eq_true, and_true]

theorem sdcardReadSingleBlock_ok {k : Nat} (ok : card.readOk k = true) (readbuff : Nat) (addr : UInt32)
    (s : ReadState) :
    sdcardReadSingleBlock card byteAddressed k readbuff addr s =
      (SD_OK, ⟨s.userBuf.write readbuff ((card.content (blockOf byteAddressed addr)).read 0
        SD_DEFAULT_BLOCK_SIZE), s.blocks ++ [(blockOf byteAddressed addr, true)]⟩) := by
  simp only [Card.readOk, Bool.and_eq_true, Bool.not_eq_true'] at ok
  obtain ⟨⟨⟨cmdTimeout, cmdCrc⟩, dataTimeout⟩, dataCrc⟩ := ok
  have response : sdioWaitCmdResponse READ_SINGLE_BLOCK (card.readCmd k) = SD_OK := by
    rw [response_eq _ (by decide), cmdTimeout, cmdCrc]
    rfl
  have passes : SD_OK ≠ SD_CMD_RSP_TIMEOUT ∧ SD_OK ≠ SD_CMD_CRC_FAIL := by decide
  rw [sdcardReadSingleBlock, response, if_neg passes.1, if_neg passes.2, sdcardWaitReceiveData, dataTimeout,
    dataCrc, receiveWords_eq]
  rfl

theorem sdcardReadSingleBlock_fail (byteAddressed : Bool) {k : Nat} (fail : card.readOk k = false)
    (readbuff : Nat) (addr : UInt32) (s : ReadState) :
    ∃ ret, ret ≠ SD_OK ∧ sdcardReadSingleBlock card byteAddressed k readbuff addr s =
      (ret, ⟨s.userBuf, s.blocks ++ [(blockOf byteAddressed addr, false)]⟩) := by
  have same : SD_OK ≠ SD_CMD_RSP_TIMEOUT ∧ SD_OK ≠ SD_CMD_CRC_FAIL ∧ SD_CMD_CRC_FAIL ≠ SD_CMD_RSP_TIMEOUT := by
    decide
  rw [sdcardReadSingleBlock, response_eq _ (by decide)]
  cases cmdTimeout : (card.readCmd k).timeout with
  | true => exact ⟨SD_CMD_RSP_TIMEOUT, by decide, rfl⟩
  | false =>
    cases cmdCrc : (card.readCmd k).crcFail with
    | true => exact ⟨SD_CMD_CRC_FAIL, by decide, rfl⟩
    | false =>
      rw [sdcardWaitReceiveData]
      cases dataTimeout : (card.readData k).timeout with
      | true => exact ⟨SD_DATA_TIMEOUT, by decide, rfl⟩
      | false =>
        cases dataCrc : (card.readData k).crcFail with
        | true => exact ⟨SD_DATA_CRC_FAIL, by decide, rfl⟩
        | false =>
          rw [Card.readOk, cmdTimeout, cmdCrc, dataTimeout, dataCrc] at fail
          exact Bool.noConfusion fail

/-- The contents of the blocks from `addr` on. -/
def blockBytes (card : Card) (byteAddressed : Bool) (addr : UInt32) (n : Nat) : List UInt8 :=
  (List.range n).flatMap fun i =>
    (card.content (blockOf byteAddressed (addr + UInt32.ofNat i))).read 0 SD_DEFAULT_BLOCK_SIZE

theorem blockBytes_succ (card : Card) (byteAddressed : Bool) (addr : UInt32) (n : Nat) :
    blockBytes card byteAddressed addr (n + 1) =
      (card.content (blockOf byteAddressed addr)).read 0 SD_DEFAULT_BLOCK_SIZE ++
        blockBytes card byteAddressed (addr + 1) n := by
  have first : addr + UInt32.ofNat 0 = addr := UInt32.add_zero addr
  rw [blockBytes, List.range_succ_eq_map, List.flatMap_cons, first, List.flatMap_map]
  simp only [← add_ofNat_succ]
  rfl

/-- What the reads put down, as far as all of them come. -/
theorem readBlocks_ok (n k : Nat) (addr : UInt32) (readbuff : Nat) (s : ReadState)
    (all : ∀ i < n, card.readOk (k + i) = true) :
    readBlocks card byteAddressed n k addr readbuff s =
      (true, ⟨s.userBuf.write readbuff (blockBytes card byteAddressed addr n), s.blocks ++
        (List.range n).map fun i => (blockOf byteAddressed (addr + UInt32.ofNat i), true)⟩) := by
  induction n generalizing k addr readbuff s with
  | zero => simp [readBlocks, blockBytes]
  | succ n ih =>
    have first : card.readOk k = true := all 0 (Nat.succ_pos n)
    -- the card counts the commands of the call on
    have rest : ∀ i < n, card.readOk (k + 1 + i) = true := by
      intro i inside
      have next := all (i + 1) (Nat.succ_lt_succ inside)
      rwa [Nat.add_comm i 1, ← Nat.add_assoc] at next
    have stored := Mem.write_append s.userBuf readbuff
      ((card.content (blockOf byteAddressed addr)).read 0 SD_DEFAULT_BLOCK_SIZE)
      (blockBytes card byteAddressed (addr + 1) n)
    rw [Mem.length_read, ← blockBytes_succ] at stored
    rw [readBlocks, sdcardReadSingleBlock_ok first]
    simp only [ne_eq, not_true_eq_false, if_false]
    rw [ih _ _ _ _ rest, ← stored, List.range_succ_eq_map]
    simp [add_ofNat_succ]

theorem readBlocks_fail (card : Card) (byteAddressed : Bool) (n k : Nat) (addr : UInt32) (readbuff : Nat)
    (s : ReadState) {i : Nat} (inside : i < n) (fail : card.readOk (k + i) = false) :
    (readBlocks card byteAddressed n k addr readbuff s).1 = false := by
  induction n generalizing k i addr readbuff s with
  | zero => exact absurd inside (Nat.not_lt_zero i)
  | succ n ih =>
    rw [readBlocks]
    cases first : card.readOk k with
    | false =>
      obtain ⟨ret, wrong, read⟩ := sdcardReadSingleBlock_fail byteAddressed first readbuff addr s
      rw [read]
      simp only [if_pos wrong]
    | true =>
      rw [sdcardReadSingleBlock_ok first]
      simp only [ne_eq, not_true_eq_false, if_false]
      -- the block that does not come is a later one
      cases i with
      | zero => cases fail.symm.trans first
      | succ i =>
        apply ih _ _ _ _ (Nat.lt_of_succ_lt_succ inside)
        rwa [Nat.add_assoc, Nat.add_comm 1 i]

/-- A read that returns its count read these blocks, in order, into the buffer; and one with a block that did
not come does not return it. -/
structure ReadRight (card : Card) (userBuf : Mem UInt8) (count opFlag : UInt32)
    (result : UInt32 × ReadState) : Prop where
  blocks : result.1 = count →
    result.2.blocks = (List.range count.toNat).map fun i => (opFlag.toNat + i, true)
  stored : result.1 = count →
    result.2.userBuf = userBuf.write 0 ((List.range count.toNat).flatMap fun i =>
      (card.content (opFlag.toNat + i)).read 0 SD_DEFAULT_BLOCK_SIZE)
  report : (∃ block, (block, false) ∈ result.2.blocks) → result.1 ≠ count

/-- A block that is asked for does not come; or the count is a byte and the last block has an address. -/
def ReadFits (card : Card) (byteAddressed : Bool) (count opFlag : UInt32) : Prop :=
  (∃ i < count.toNat % 256, card.readOk i = false) ∨
    count.toNat < 256 ∧ (count = 0 ∨ opFlag.toNat + count.toNat ≤ capacity byteAddressed)

theorem capacity_le (byteAddressed : Bool) : capacity byteAddressed ≤ 2 ^ 32 := by
  cases byteAddressed <;> decide

/-- The count is kept in a byte, and a block that does not come ends the read with nothing. -/
theorem sdcardRead_failed (card : Card) (byteAddressed : Bool) (userBuf : Mem UInt8) (count opFlag : UInt32)
    {i : Nat} (inside : i < count.toNat % 256) (fail : card.readOk i = false) :
    (sdcardRead card byteAddressed userBuf count opFlag).1 = 0 := by
  have rounds : count.toUInt8.toNat = count.toNat % 256 := UInt32.toNat_toUInt8 count
  have stops := readBlocks_fail card byteAddressed (count.toNat % 256) 0 opFlag 0 ⟨userBuf, []⟩ inside
    (by rwa [Nat.zero_add])
  rw [sdcardRead, rounds]
  simp only [stops, Bool.false_eq_true, if_false]

theorem sdcardRead_ok (card : Card) (byteAddressed : Bool) (userBuf : Mem UInt8) (count opFlag : UInt32)
    (all : ∀ i < count.toNat % 256, card.readOk i = true) :
    sdcardRead card byteAddressed userBuf count opFlag = (count,
      ⟨userBuf.write 0 (blockBytes card byteAddressed opFlag (count.toNat % 256)),
        (List.range (count.toNat % 256)).map fun i =>
          (blockOf byteAddressed (opFlag + UInt32.ofNat i), true)⟩) := by
  have rounds : count.toUInt8.toNat = count.toNat % 256 := UInt32.toNat_toUInt8 count
  have come : ∀ i < count.toNat % 256, card.readOk (0 + i) = true := by
    intro i inside
    rw [Nat.zero_add]
    exact all i inside
  rw [sdcardRead, rounds, readBlocks_ok _ _ _ _ _ come]
  rfl

/-- The last number shows whether the addresses have wrapped around. -/
theorem extent_of_blocks {byteAddressed : Bool} {count opFlag : UInt32}
    (blocks : ((List.range count.toNat).map fun i => (blockOf byteAddressed (opFlag + UInt32.ofNat i), true)) =
      (List.range count.toNat).map fun i => (opFlag.toNat + i, true)) :
    count = 0 ∨ opFlag.toNat + count.toNat ≤ capacity byteAddressed := by
  rcases Nat.eq_zero_or_pos count.toNat with none | positive
  · exact .inl (UInt32.toNat_inj.mp none)
  · have last := List.map_inj_left.mp blocks (count.toNat - 1) (List.mem_range.mpr (by omega))
    have number := congrArg Prod.fst last
    have room : 0 < capacity byteAddressed := by cases byteAddressed <;> decide
    rw [blockOf_eq] at number
    have below := Nat.mod_lt (opFlag + UInt32.ofNat (count.toNat - 1)).toNat room
    right
    omega

theorem blockOf_inside {byteAddressed : Bool} {count opFlag : UInt32}
    (extent : count = 0 ∨ opFlag.toNat + count.toNat ≤ capacity byteAddressed) {i : Nat}
    (inside : i < count.toNat) :
    blockOf byteAddressed (opFlag + UInt32.ofNat i) = opFlag.toNat + i := by
  have fits : opFlag.toNat + count.toNat ≤ capacity byteAddressed := by
    rcases extent with rfl | fits
    · exact absurd inside (Nat.not_lt_zero i)
    · exact fits
  have most := capacity_le byteAddressed
  rw [blockOf_eq, UInt32.toNat_add, UInt32.toNat_ofNat', Nat.mod_eq_of_lt (by omega),
    Nat.mod_eq_of_lt (by omega), Nat.mod_eq_of_lt (by omega)]

theorem sdcardRead_right_iff (card : Card) (byteAddressed : Bool) (userBuf : Mem UInt8)
    (count opFlag : UInt32) :
    ReadRight card userBuf count opFlag (sdcardRead card byteAddressed userBuf count opFlag) ↔
      ReadFits card byteAddressed count opFlag := by
  by_cases some : ∃ i < count.toNat % 256, card.readOk i = false
  · obtain ⟨i, inside, fail⟩ := some
    have reported : (sdcardRead card byteAddressed userBuf count opFlag).1 ≠ count := by
      rw [sdcardRead_failed card byteAddressed userBuf count opFlag inside fail]
      rintro rfl
      exact Nat.not_lt_zero i inside
    apply iff_of_true
    · exact ⟨fun same => absurd same reported, fun same => absurd same reported, fun _ => reported⟩
    · exact .inl ⟨i, inside, fail⟩
  · have all : ∀ i < count.toNat % 256, card.readOk i = true := by
      intro i inside
      cases ok : card.readOk i with
      | true => rfl
      | false => exact absurd ⟨i, inside, ok⟩ some
    rw [sdcardRead_ok card byteAddressed userBuf count opFlag all]
    constructor
    · intro right
      have blocks := right.blocks rfl
      have lengths := congrArg List.length blocks
      simp only [List.length_map, List.length_range] at lengths
      rw [lengths] at blocks
      exact .inr ⟨by omega, extent_of_blocks blocks⟩
    · rintro (⟨i, inside, fail⟩ | ⟨byte, extent⟩)
      · exact absurd ⟨i, inside, fail⟩ some
      · rw [Nat.mod_eq_of_lt byte]
        constructor
        · intro _
          apply List.map_congr_left
          intro i member
          rw [blockOf_inside extent (List.mem_range.mp member)]
        · intro _
          have same : (List.range count.toNat).map (fun i =>
              (card.content (blockOf byteAddressed (opFlag + UInt32.ofNat i))).read 0 SD_DEFAULT_BLOCK_SIZE) =
              (List.range count.toNat).map fun i =>
                (card.content (opFlag.toNat + i)).read 0 SD_DEFAULT_BLOCK_SIZE := by
            apply List.map_congr_left
            intro i member
            rw [blockOf_inside extent (List.mem_range.mp member)]
          rw [blockBytes, List.flatMap_def, List.flatMap_def, same]
        · rintro ⟨block, member⟩
          simp at member

/-! ### Writing -/

/-- The word number `k` of a buffer, which has the addresses modulo 2^32. -/
def bufferWord (m : Mem UInt8) (k : Nat) : UInt32 := tmpval m (UInt32.ofNat (4 * k))

/-- The bytes of `user_buf` in a 32-bit address space. -/
def bufferBytes (m : Mem UInt8) (n : Nat) : List UInt8 := (List.range n).map fun i => m (i % 2 ^ 32)

/-- What the loops have written after `n` words. -/
def filled (m : Mem UInt8) (n : Nat) : UInt32 × List UInt32 :=
  (UInt32.ofNat (4 * n), (List.range n).map (bufferWord m))

theorem fillWords_eq (m : Mem UInt8) (n l : Nat) : fillWords m n (filled m l) = filled m (l + n) := by
  induction n generalizing l with
  | zero => rfl
  | succ n ih =>
    have next : (UInt32.ofNat (4 * l) + 4, (List.range l).map (bufferWord m) ++
        [tmpval m (UInt32.ofNat (4 * l))]) = filled m (l + 1) := by
      rw [filled, List.range_succ, List.map_append, Nat.mul_add, UInt32.ofNat_add]
      rfl
    rw [filled, fillWords, next, ih, Nat.add_assoc, Nat.add_comm 1]

theorem fillBlock_eq (m : Mem UInt8) (blocks : Nat) :
    fillBlock m (filled m (128 * blocks)) = filled m (128 * (blocks + 1)) :=
  fillWords_eq m 128 (128 * blocks)

/-- The card has accepted the blocks from `k` on. -/
def Card.accepts (card : Card) (k n : Nat) : Prop := ∀ i < n, card.writeStatus (k + i) = 2

theorem writeBlocks_ok (m : Mem UInt8) (n k blocks : Nat) (all : card.accepts k n) :
    writeBlocks card m n k (filled m (128 * blocks)) = (true, filled m (128 * (blocks + n))) := by
  induction n generalizing k blocks with
  | zero => rfl
  | succ n ih =>
    have first : ¬ card.writeStatus k ≠ 2 := not_not_intro (all 0 (Nat.succ_pos n))
    have rest : card.accepts (k + 1) n := by
      intro i inside
      have next := all (i + 1) (Nat.succ_lt_succ inside)
      rwa [Nat.add_comm i 1, ← Nat.add_assoc] at next
    rw [writeBlocks, fillBlock_eq]
    simp only [if_neg first]
    rw [ih _ _ rest, Nat.add_assoc, Nat.add_comm 1]

theorem writeBlocks_fail (m : Mem UInt8) (n k : Nat) (p : UInt32 × List UInt32) (some : ¬ card.accepts k n) :
    (writeBlocks card m n k p).1 = false := by
  induction n generalizing k p with
  | zero => exact absurd (fun i inside => absurd inside (Nat.not_lt_zero i)) some
  | succ n ih =>
    rw [writeBlocks]
    by_cases first : card.writeStatus k = 2
    · simp only [if_neg (not_not_intro first)]
      apply ih
      intro rest
      apply some
      intro i inside
      cases i with
      | zero => exact first
      | succ i =>
        have next := rest i (Nat.lt_of_succ_lt_succ inside)
        rwa [Nat.add_assoc, Nat.add_comm 1] at next
    · simp only [if_pos first]

theorem wordBytes_bufferWord (m : Mem UInt8) (k : Nat) :
    wordBytes (bufferWord m k) =
      [m (4 * k % 2 ^ 32), m ((4 * k + 1) % 2 ^ 32), m ((4 * k + 2) % 2 ^ 32), m ((4 * k + 3) % 2 ^ 32)] := by
  have offset (j : Nat) : (UInt32.ofNat (4 * k) + UInt32.ofNat j).toNat = (4 * k + j) % 2 ^ 32 := by
    rw [← UInt32.ofNat_add, UInt32.toNat_ofNat']
  rw [bufferWord, wordBytes_tmpval, UInt32.toNat_ofNat']
  exact congrArg (_ :: ·) (by rw [← offset, ← offset, ← offset]; rfl)

theorem bufferWords_bytes (m : Mem UInt8) (n : Nat) :
    ((List.range n).map (bufferWord m)).flatMap wordBytes = bufferBytes m (4 * n) := by
  induction n with
  | zero => rfl
  | succ n ih =>
    have four : bufferBytes m (4 * n + 4) = bufferBytes m (4 * n) ++ wordBytes (bufferWord m n) := by
      rw [wordBytes_bufferWord]
      simp only [bufferBytes, List.range_succ, List.map_append, List.append_assoc]
      rfl
    rw [List.range_succ, List.map_append, List.flatMap_append, ih, Nat.mul_add, four]
    exact congrArg (_ ++ ·) (List.append_nil _)

/-- The blocks that a count stands for: the first one and those of the loop. -/
def blocksOf (count : UInt32) : Nat := otherBlocks count + 1

theorem blocksOf_eq (count : UInt32) : blocksOf count = if count = 0 then 2 ^ 32 else count.toNat := by
  split
  next none =>
    rw [none]
    rfl
  next some =>
    have positive := (toNat_ne_zero count).mp some
    rw [blocksOf, otherBlocks, toNat_pred count some]
    omega

/-- The zero behind the last block stays in the FIFO. -/
theorem sentBytes_eq (m : Mem UInt8) (blocks : Nat) :
    sentBytes ((filled m (128 * blocks)).2 ++ [0]) = bufferBytes m (512 * blocks) := by
  have bytes : ((filled m (128 * blocks)).2 ++ [0]).flatMap wordBytes =
      bufferBytes m (512 * blocks) ++ wordBytes 0 := by
    have words : 4 * (128 * blocks) = 512 * blocks := by omega
    rw [List.flatMap_append, filled, bufferWords_bytes, words]
    exact congrArg (_ ++ ·) (List.append_nil _)
  have length : (bufferBytes m (512 * blocks)).length = 512 * blocks := by
    rw [bufferBytes, List.length_map, List.length_range]
  have whole : (512 * blocks + (wordBytes 0).length) / SD_DEFAULT_BLOCK_SIZE * SD_DEFAULT_BLOCK_SIZE =
      512 * blocks := by
    have rest : (wordBytes 0).length = 4 := rfl
    rw [rest, SD_DEFAULT_BLOCK_SIZE]
    omega
  have front : (bufferBytes m (512 * blocks) ++ wordBytes 0).take (bufferBytes m (512 * blocks)).length =
      bufferBytes m (512 * blocks) := List.take_left
  rw [length] at front
  rw [sentBytes, bytes, List.length_append, length, whole]
  exact front

theorem accepts_split (card : Card) (n : Nat) :
    card.accepts 0 (n + 1) ↔ card.accepts 0 n ∧ card.writeStatus n = 2 := by
  simp only [Card.accepts, Nat.zero_add]
  exact Nat.forall_lt_succ_right

theorem writeData_ok (m : Mem UInt8) (count : UInt32) (all : card.accepts 0 (blocksOf count)) :
    writeData card m count = (SD_OK, (filled m (128 * blocksOf count)).2 ++ [0]) := by
  obtain ⟨others, last⟩ := (accepts_split card (otherBlocks count)).mp all
  have first : fillBlock m (0, []) = filled m (128 * 1) := fillBlock_eq m 0
  have written := writeBlocks_ok m (otherBlocks count) 0 1 others
  rw [writeData]
  simp only [first, written, Bool.true_eq_false, if_false, if_neg (not_not_intro last)]
  rw [Nat.add_comm 1]
  rfl

theorem writeData_fail (m : Mem UInt8) (count : UInt32) (some : ¬ card.accepts 0 (blocksOf count)) :
    (writeData card m count).1 = SD_ERROR := by
  rw [writeData]
  by_cases others : card.accepts 0 (otherBlocks count)
  · have first : fillBlock m (0, []) = filled m (128 * 1) := fillBlock_eq m 0
    have written := writeBlocks_ok m (otherBlocks count) 0 1 others
    have last : card.writeStatus (otherBlocks count) ≠ 2 := by
      intro accepted
      exact some ((accepts_split card (otherBlocks count)).mpr ⟨others, accepted⟩)
    simp only [first, written, Bool.true_eq_false, if_false, if_pos last]
  · have failed := writeBlocks_fail m (otherBlocks count) 0 (fillBlock m (0, [])) others
    simp only [failed, if_true]

/-- The command, all blocks and the stop are accepted. -/
def Card.acceptsWrite (card : Card) (count : UInt32) : Prop :=
  sdioWaitCmdResponse WRITE_MULTIPLE_BLOCK card.writeCmd = SD_OK ∧ card.accepts 0 (blocksOf count) ∧
    sdioWaitCmdResponse STOP_TRANSMISSION card.stopCmd = SD_OK

theorem response_le (cmd : UInt32) (reply : Reply) : (sdioWaitCmdResponse cmd reply).toNat ≤ 3 := by
  unfold sdioWaitCmdResponse
  split_ifs <;> decide

/-- The errors are added up, and none is lost. -/
theorem sdcardWrite_ok_iff (card : Card) (byteAddressed : Bool) (m : Mem UInt8) (count opFlag : UInt32) :
    (sdcardWrite card byteAddressed m count opFlag).1 = 0 ↔ card.acceptsWrite count := by
  have small := response_le STOP_TRANSMISSION card.stopCmd
  -- the codes are small, and their sum does not wrap to 0
  have sum (x y : UInt32) (fits : x.toNat ≤ 9) (fits' : y.toNat ≤ 3) : x + y = 0 ↔ x = SD_OK ∧ y = SD_OK := by
    rw [← UInt32.toNat_inj, ← UInt32.toNat_inj, ← UInt32.toNat_inj, UInt32.toNat_add]
    simp only [SD_OK, UInt32.toNat_zero]
    omega
  rw [Card.acceptsWrite, sdcardWrite, sdcardWriteMultiBlock]
  simp only
  split
  next accepted =>
    by_cases all : card.accepts 0 (blocksOf count)
    · rw [writeData_ok m count all, sum SD_OK _ (Nat.zero_le 9) small]
      simp only [accepted, all, true_and]
    · have failed := writeData_fail m count all
      have fits : (writeData card m count).1.toNat ≤ 9 := by
        rw [failed]
        decide
      rw [sum _ _ fits small, failed]
      have wrong : SD_ERROR ≠ SD_OK := by decide
      simp only [wrong, all, false_and, and_false]
  next refused =>
    have fits := response_le WRITE_MULTIPLE_BLOCK card.writeCmd
    rw [sum _ _ (by simp only; omega) small]
    simp only [refused, false_and]

/-- A write that returns 0 has sent the bytes of the buffer; and one with a block that was not accepted does
not return 0. -/
structure WriteRight (card : Card) (userBuf : Mem UInt8) (count : UInt32) (result : UInt32 × Written) :
    Prop where
  sent : result.1 = SD_OK → sentBytes result.2.words = bufferBytes userBuf (512 * count.toNat)
  report : (∃ i < count.toNat, card.writeStatus i ≠ 2) → result.1 ≠ SD_OK

/-- There is something to write; or the card refuses the command, the stop or one of 2^32 blocks. -/
def WriteFits (card : Card) (count : UInt32) : Prop := count ≠ 0 ∨ ¬ card.acceptsWrite 0

theorem sdcardWrite_right_iff (card : Card) (byteAddressed : Bool) (userBuf : Mem UInt8)
    (count opFlag : UInt32) :
    WriteRight card userBuf count (sdcardWrite card byteAddressed userBuf count opFlag) ↔
      WriteFits card count := by
  have ok_iff := sdcardWrite_ok_iff card byteAddressed userBuf count opFlag
  have sent : card.acceptsWrite count →
      sentBytes (sdcardWrite card byteAddressed userBuf count opFlag).2.words =
        bufferBytes userBuf (512 * blocksOf count) := by
    intro accepted
    rw [sdcardWrite, sdcardWriteMultiBlock]
    simp only [if_pos accepted.1]
    rw [writeData_ok userBuf count accepted.2.1, sentBytes_eq]
  constructor
  · intro right
    by_contra neither
    obtain ⟨none, accepted⟩ := not_or.mp neither
    obtain rfl := not_not.mp none
    have accepted := not_not.mp accepted
    -- 2^32 blocks are as many as none
    have lengths := congrArg List.length ((sent accepted).symm.trans (right.sent (ok_iff.mpr accepted)))
    simp only [bufferBytes, List.length_map, List.length_range, blocksOf_eq, if_pos] at lengths
    exact absurd lengths (by decide)
  · intro fits
    have some : card.acceptsWrite count → count ≠ 0 := by
      rintro accepted rfl
      exact fits.elim (fun some => some rfl) fun refused => refused accepted
    constructor
    · intro ok
      have accepted := ok_iff.mp ok
      rw [sent accepted, blocksOf_eq, if_neg (some accepted)]
    · rintro ⟨i, inside, refused⟩ ok
      have accepted := ok_iff.mp ok
      have all := accepted.2.1
      rw [blocksOf_eq, if_neg (some accepted)] at all
      have status := all i inside
      rw [Nat.zero_add] at status
      exact refused status

/-- For every card, count and start block. -/
theorem sdcard_extent_iff (card : Card) (byteAddressed : Bool) (userBuf : Mem UInt8) (count opFlag : UInt32) :
    (ReadRight card userBuf count opFlag (sdcardRead card byteAddressed userBuf count opFlag) ↔
      ReadFits card byteAddressed count opFlag) ∧
    (WriteRight card userBuf count (sdcardWrite card byteAddressed userBuf count opFlag) ↔
      WriteFits card count) := by
  constructor
  · exact sdcardRead_right_iff card byteAddressed userBuf count opFlag
  · exact sdcardWrite_right_iff card byteAddressed userBuf count opFlag

/-- A card that accepts everything. -/
def goodCard : Card :=
  ⟨fun block _ => UInt8.ofNat block, fun _ => ⟨false, false⟩, fun _ => ⟨false, false⟩, ⟨false, false⟩,
    fun _ => 2, ⟨false, false⟩⟩

/-- A read of 256 blocks reads none and returns 256. -/
theorem read_reads_nothing :
    (sdcardRead goodCard false (fun _ => 0) 256 0).1 = 256 ∧
      (sdcardRead goodCard false (fun _ => 0) 256 0).2.blocks = [] ∧
      ¬ ReadRight goodCard (fun _ => 0) 256 0 (sdcardRead goodCard false (fun _ => 0) 256 0) := by
  refine ⟨rfl, rfl, ?_⟩
  intro right
  have lengths := congrArg List.length (right.blocks rfl)
  rw [List.length_map, List.length_range] at lengths
  exact absurd lengths (by decide)

end Bk7251.SdCard
