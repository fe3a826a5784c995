import Bk7251.Spi.SpiFlash

/-!
# Writing to the external flash

`spi_flash_write` cuts a range by size and the chip programs by address. The pieces are right when none of
them leaves the page it begins in; a piece that does clears bits in front of the range.
-/
namespace Bk7251.SpiFlash

open Lib Nor

/-! ### The rounds -/

/-- A round that finds memory. -/
theorem writeLoop_round (fuel : Nat) (s : State) (addr : UInt32) {size i : UInt32} (src : Mem UInt8)
    (pos : Nat) (more : i < size) :
    ∃ s', s'.mallocs = (fun k => s.mallocs (k + 1)) ∧
      s'.dev.cells = (if s.mallocs 0 then programPage 256 s.dev.cells (addr.toNat % CAPACITY)
        (src.read pos (dsizeOf size i).toNat) else s.dev.cells) ∧
      writeLoop (fuel + 1) s addr size i src pos =
        if s.mallocs 0 then
          writeLoop fuel s' (addr + dsizeOf size i) size (i + dsizeOf size i) src
            (pos + (dsizeOf size i).toNat)
        else (1, s') := by
  obtain ⟨ret, heap, cells⟩ := programPage_cells s addr src pos (dsizeOf_ne_zero more)
    (dsizeOf_le size i)
  refine ⟨_, heap, cells, ?_⟩
  simp only [writeLoop, if_pos more, ret]
  cases s.mallocs 0 <;> simp

/-- With memory for every piece the call succeeds. -/
theorem writeLoop_returns (fuel : Nat) (s : State) (addr size i : UInt32) (src : Mem UInt8) (pos : Nat)
    (memory : ∀ k, s.mallocs k = true) : (writeLoop fuel s addr size i src pos).1 = 0 := by
  induction fuel generalizing s addr i pos with
  | zero => rfl
  | succ fuel ih =>
    by_cases more : i < size
    · obtain ⟨s', heap, -, round⟩ := writeLoop_round fuel s addr src pos more
      rw [round, if_pos (memory 0)]
      apply ih
      intro k
      rw [heap]
      exact memory (k + 1)
    · rw [writeLoop, if_neg more]

/-- No round sets a bit. -/
theorem writeLoop_zero (fuel : Nat) (s : State) (addr size i : UInt32) (src : Mem UInt8) (pos : Nat)
    {x : Nat} (zero : s.dev.cells x = 0) : (writeLoop fuel s addr size i src pos).2.dev.cells x = 0 := by
  induction fuel generalizing s addr i pos with
  | zero => exact zero
  | succ fuel ih =>
    by_cases more : i < size
    · obtain ⟨s', -, cells, round⟩ := writeLoop_round fuel s addr src pos more
      have kept : s'.dev.cells x = 0 := by
        rw [cells]
        split
        · exact programPage_zero zero _ _
        · exact zero
      rw [round]
      split
      · exact ih s' _ _ _ kept
      · exact kept
    · rw [writeLoop, if_neg more]
      exact zero

/-- Pieces that stay in their pages program the range. What is left begins a page or ends in this one. -/
theorem writeLoop_cells (fuel : Nat) (s : State) (addr size i : UInt32) (src : Mem UInt8) (pos : Nat)
    (enough : size.toNat - i.toNat ≤ fuel) (inside : addr.toNat + (size.toNat - i.toNat) ≤ CAPACITY)
    (paged : addr.toNat % 256 = 0 ∨ addr.toNat % 256 + (size.toNat - i.toNat) ≤ 256)
    (success : (writeLoop fuel s addr size i src pos).1 = 0) :
    (writeLoop fuel s addr size i src pos).2.dev.cells =
      program s.dev.cells addr.toNat (src.read pos (size.toNat - i.toNat)) := by
  -- by induction on the rounds: a piece that does not end the range ends a page
  induction fuel generalizing s addr i pos with
  | zero =>
    rw [Nat.le_zero.mp enough, Mem.read_zero, program_nil]
    rfl
  | succ fuel ih =>
    by_cases more : i < size
    · have piece := toNat_dsizeOf more
      obtain ⟨next, advanced⟩ := toNat_behind more inside
      obtain ⟨s', heap, cells, round⟩ := writeLoop_round fuel s addr src pos more
      rw [round] at success ⊢
      by_cases memory : s.mallocs 0 = true
      case neg =>
        rw [if_neg memory] at success
        cases success
      case pos =>
        rw [if_pos memory] at success ⊢ cells
        have below := UInt32.lt_iff_toNat_lt.mp more
        generalize dsizeOf size i = dsize at *
        rw [ih s' _ _ _ (by omega) (by omega) (by omega) success, cells, next, advanced,
          Nat.mod_eq_of_lt (show addr.toNat < CAPACITY by omega),
          programPage_of_fits _ (by rw [Mem.length_read]; omega)]
        -- this piece, and behind it what the other rounds wrote
        have whole := program_append s.dev.cells addr.toNat (src.read pos dsize.toNat)
          (src.read (pos + dsize.toNat) (size.toNat - (i.toNat + dsize.toNat)))
        rw [← Mem.read_add, Mem.length_read,
          show dsize.toNat + (size.toNat - (i.toNat + dsize.toNat)) = size.toNat - i.toNat by omega] at whole
        exact whole.symm
    · rw [writeLoop, if_neg more, left_zero more, Mem.read_zero, program_nil]

/-- Reading has no pages to respect. -/
theorem readLoop_eq (fuel : Nat) (dev : Device) (addr size i : UInt32) (dst : Mem UInt8) (pos : Nat)
    (enough : size.toNat - i.toNat ≤ fuel) (inside : addr.toNat + (size.toNat - i.toNat) ≤ CAPACITY) :
    (readLoop fuel dev addr size i dst pos).1 = 0 ∧
      (readLoop fuel dev addr size i dst pos).2.1.cells = dev.cells ∧
      (readLoop fuel dev addr size i dst pos).2.2 =
        dst.write pos (dev.cells.read addr.toNat (size.toNat - i.toNat)) := by
  induction fuel generalizing dev addr i dst pos with
  | zero =>
    rw [Nat.le_zero.mp enough, Mem.read_zero, Mem.write_nil]
    exact ⟨rfl, rfl, rfl⟩
  | succ fuel ih =>
    by_cases more : i < size
    · have below := UInt32.lt_iff_toNat_lt.mp more
      have piece := toNat_dsizeOf more
      obtain ⟨next, advanced⟩ := toNat_behind more inside
      have page := readPage_eq dev addr dst pos (dsizeOf_ne_zero more) (dsizeOf_le size i) (by
        omega)
      simp only [readLoop, if_pos more, page]
      rw [if_neg (by decide)]
      generalize dsizeOf size i = dsize at *
      obtain ⟨ret, cells, stored⟩ := ih { dev with wip := 0 } (addr + dsize) (i + dsize)
        (dst.write pos (dev.cells.read addr.toNat dsize.toNat)) (pos + dsize.toNat) (by omega)
        (by omega)
      refine ⟨ret, cells, ?_⟩
      rw [stored, next, advanced, show size.toNat - i.toNat =
        dsize.toNat + (size.toNat - (i.toNat + dsize.toNat)) by omega, Mem.read_add, Mem.write_append,
        Mem.length_read]
    · rw [readLoop, if_neg more, left_zero more, Mem.read_zero, Mem.write_nil]
      exact ⟨rfl, rfl, rfl⟩

/-! ### Whole calls -/

/-- A call that returns 0 programs the range with the bytes and nothing else, and the range reads back as
the cells are. -/
def WriteExact (addr size : UInt32) : Prop :=
  ∀ (s : State) (src : Option (Mem UInt8)), (spiFlashWrite s addr size src).1 = 0 →
    ∃ bytes s', src = some bytes ∧ spiFlashWrite s addr size src = (0, s') ∧
      (∀ x, s'.dev.cells x =
        if addr.toNat ≤ x ∧ x < addr.toNat + size.toNat then s.dev.cells x &&& bytes (x - addr.toNat)
        else s.dev.cells x) ∧
      ∀ dst, ∃ dev got, spiFlashRead s'.dev addr size (some dst) = (0, dev, some got) ∧
        dev.cells = s'.dev.cells ∧ got.read 0 size.toNat = s'.dev.cells.read addr.toNat size.toNat

/-- Programming a range, cell by cell. -/
theorem program_read_apply (m bytes : Mem UInt8) (a n x : Nat) :
    program m a (bytes.read 0 n) x = if a ≤ x ∧ x < a + n then m x &&& bytes (x - a) else m x := by
  by_cases low : x < a
  · rw [program_of_lt _ _ low, if_neg (by omega)]
  by_cases high : a + n ≤ x
  · rw [program_of_ge _ _ (by rwa [Mem.length_read]), if_neg (by omega)]
  · obtain ⟨i, rfl⟩ := Nat.exists_eq_add_of_le (Nat.not_lt.mp low)
    rw [program_getElem _ _ (by rw [Mem.length_read]; omega), Mem.getElem_read, if_pos (by omega),
      Nat.zero_add, Nat.add_sub_cancel_left]

theorem spiFlashRead_eq (dev : Device) {addr size : UInt32} (inside : addr.toNat + size.toNat ≤ CAPACITY)
    (dst : Mem UInt8) : ∃ dev' got, spiFlashRead dev addr size (some dst) = (0, dev', some got) ∧
      dev'.cells = dev.cells ∧ got.read 0 size.toNat = dev.cells.read addr.toNat size.toNat := by
  rw [spiFlashRead]
  split
  next nothing =>
    refine ⟨dev, dst, rfl, rfl, ?_⟩
    rw [nothing, UInt32.toNat_zero, Mem.read_zero, Mem.read_zero]
  next =>
    obtain ⟨ret, cells, stored⟩ := readLoop_eq size.toNat dev addr size 0 dst 0 (Nat.sub_le _ _) (by
      simpa using inside)
    refine ⟨_, _, Prod.ext ret rfl, cells, ?_⟩
    rw [stored, UInt32.toNat_zero, Nat.sub_zero]
    have back := Mem.read_write_self dst 0 (dev.cells.read addr.toNat size.toNat)
    rwa [Mem.length_read] at back

/-- Where every piece stays in its page the call does what it should. -/
theorem writeExact_of_paged {addr size : UInt32} (inside : addr.toNat + size.toNat ≤ CAPACITY)
    (paged : addr.toNat % 256 = 0 ∨ addr.toNat % 256 + size.toNat ≤ 256) : WriteExact addr size := by
  intro s src success
  cases src with
  | none => cases success
  | some bytes =>
    refine ⟨bytes, _, rfl, Prod.ext success rfl, ?_, fun dst => spiFlashRead_eq _ inside dst⟩
    intro x
    rw [← program_read_apply]
    rw [spiFlashWrite] at success ⊢
    split
    next nothing => rw [nothing, UInt32.toNat_zero, Mem.read_zero, program_nil]
    next more =>
      rw [if_neg more] at success
      rw [writeLoop_cells size.toNat s addr size 0 bytes 0 (Nat.sub_le _ _) (by simpa using inside)
        (by simpa using paged) success]
      rfl

/-- A chip as it leaves the factory, always done at once. -/
def blank : Device := ⟨fun _ => 0xff, false, 0, fun _ => 0⟩

theorem spiFlashWrite_blank (addr size : UInt32) :
    (spiFlashWrite ⟨blank, fun _ => true⟩ addr size (some fun _ => 0)).1 = 0 := by
  rw [spiFlashWrite]
  split
  · rfl
  · exact writeLoop_returns _ _ _ _ _ _ _ fun _ => rfl

/-- A first piece that does not fit into its page, from a buffer of zeros, clears the first cell of the
page, which lies in front of the range. -/
theorem spiFlashWrite_wraps {addr size : UInt32} (s : State)
    (inside : addr.toNat + size.toNat ≤ CAPACITY) (offset : addr.toNat % 256 ≠ 0)
    (crosses : 256 < addr.toNat % 256 + size.toNat) :
    (spiFlashWrite s addr size (some fun _ => 0)).1 = 0 →
      (spiFlashWrite s addr size (some fun _ => 0)).2.dev.cells (addr.toNat / 256 * 256) = 0 := by
  have nonzero : size ≠ 0 := by
    rw [toNat_ne_zero]
    omega
  have more : (0 : UInt32) < size := by
    rw [UInt32.lt_iff_toNat_lt, UInt32.toNat_zero]
    omega
  obtain ⟨rounds, fuel⟩ := Nat.exists_eq_succ_of_ne_zero ((toNat_ne_zero size).mp nonzero)
  obtain ⟨s', -, cells, round⟩ := writeLoop_round rounds s addr (fun _ => 0) 0 more
  rw [spiFlashWrite, if_neg nonzero, fuel, round]
  by_cases memory : s.mallocs 0 = true
  case neg =>
    rw [if_neg memory]
    intro success
    cases success
  case pos =>
    rw [if_pos memory] at cells ⊢
    intro _
    apply writeLoop_zero
    have piece := toNat_dsizeOf more
    rw [UInt32.toNat_zero, Nat.sub_zero] at piece
    have whole := Nat.div_add_mod' addr.toNat 256
    have wrapped : (dsizeOf size 0).toNat = 256 - addr.toNat % 256 +
        (1 + ((dsizeOf size 0).toNat - (256 - addr.toNat % 256) - 1)) := by omega
    -- the piece is cut where the page ends; its rest begins with the byte for the first cell
    rw [cells, Nat.mod_eq_of_lt (by omega), wrapped, Mem.read_add, Mem.read_add,
      programPage_wrap _ _ (by simp [Mem.read]; omega) (by rw [Mem.length_read]; omega)]
    have first : Mem.read (fun _ => (0 : UInt8)) (0 + (256 - addr.toNat % 256)) 1 = [0] := rfl
    rw [first, List.singleton_append, programPage]
    apply programPage_zero
    simp [program]

/-- The cell in front of the range is lost. -/
theorem not_writeExact {addr size : UInt32} (inside : addr.toNat + size.toNat ≤ CAPACITY)
    (offset : addr.toNat % 256 ≠ 0) (crosses : 256 < addr.toNat % 256 + size.toNat) :
    ¬ WriteExact addr size := by
  intro exact_write
  -- a blank chip, and zeros to write
  obtain ⟨_, s', src, call, cells, -⟩ := exact_write ⟨blank, fun _ => true⟩ (some fun _ => 0)
    (spiFlashWrite_blank addr size)
  have cleared := spiFlashWrite_wraps ⟨blank, fun _ => true⟩ inside offset crosses (by rw [call])
  rw [call, cells, if_neg (by omega)] at cleared
  exact absurd cleared (show ¬ (0xff : UInt8) = 0 by decide)

/-- The call does what it should exactly for ranges that begin a page or stay in one. -/
theorem spiFlashWrite_exact_iff (addr size : UInt32) (inside : addr.toNat + size.toNat ≤ CAPACITY) :
    WriteExact addr size ↔ addr.toNat % 256 = 0 ∨ addr.toNat % 256 + size.toNat ≤ 256 := by
  constructor
  · intro exact_write
    by_contra crosses
    obtain ⟨offset, long⟩ := not_or.mp crosses
    exact not_writeExact inside offset (by omega) exact_write
  · intro paged
    exact writeExact_of_paged inside paged

theorem spiFlashWrite_exact_iff_page :
    (0x100 : UInt32).toNat + (0x300 : UInt32).toNat ≤ CAPACITY ∧
      (WriteExact 0x100 0x300 ↔
        (0x100 : UInt32).toNat % 256 = 0 ∨ (0x100 : UInt32).toNat % 256 + (0x300 : UInt32).toNat ≤ 256) :=
  ⟨by decide, spiFlashWrite_exact_iff 0x100 0x300 (by decide)⟩

/-- A page of zeros written to address 1 of a blank chip clears cell 0. -/
theorem write_leaves_page : ¬ WriteExact 1 0x100 := by
  apply not_writeExact
  · decide
  · decide
  · decide

end Bk7251.SpiFlash
