import Bk7251.Flash.FlashDriver

/-!
# What the flash driver tells the controller

`flash_read_data`, `flash_write_data` and `flash_erase_sector` as the commands they give. A command
reads or programs one page, or erases one sector, and always the whole of it.
-/
namespace Bk7251.Flash

open Lib Nor

/-- A command with `FLASH_OPCODE_READ`, `FLASH_OPCODE_PP` or `FLASH_OPCODE_SE`. -/
inductive FlashOp where
  | read (addr : Nat)
  | program (addr : Nat) (page : List UInt8)
  | erase (addr : Nat)
deriving DecidableEq

namespace FlashOp

def addr : FlashOp → Nat
  | read addr => addr
  | program addr _ => addr
  | erase addr => addr

def size : FlashOp → Nat
  | read _ => 32
  | program _ page => page.length
  | erase _ => SECTOR

def apply (cells : Mem UInt8) : FlashOp → Mem UInt8
  | read _ => cells
  | program addr page => Nor.program cells addr page
  | erase addr => Nor.erase cells addr SECTOR

/-- The command is about this cell. -/
def Touches (op : FlashOp) (x : Nat) : Prop := op.addr ≤ x ∧ x < op.addr + op.size

/-- The command erases or programs. -/
def changes : FlashOp → Bool
  | read _ => false
  | _ => true

theorem apply_of_not_touches (cells : Mem UInt8) {op : FlashOp} {x : Nat} (apart : ¬ op.Touches x) :
    op.apply cells x = cells x := by
  have outside : x < op.addr ∨ op.addr + op.size ≤ x := by
    rw [Touches] at apart
    omega
  cases op with
  | read _ => rfl
  | program addr page =>
    rcases outside with below | above
    · exact program_of_lt _ _ below
    · exact program_of_ge _ _ above
  | erase addr =>
    rcases outside with below | above
    · exact erase_of_lt _ below
    · exact erase_of_ge _ above

end FlashOp

/-- The commands of `readPages`. -/
def readOps : (fuel addr address len : Nat) → List FlashOp
  | 0, _, _, _ => []
  | fuel + 1, addr, address, len =>
    if len = 0 then []
    else
      let moved := min (32 - address % 32) len
      .read addr :: readOps fuel (addr + 32) (address + moved) (len - moved)

def flashReadOps (address len : Nat) : List FlashOp :=
  readOps len (address - address % 32) address len

/-- The commands of `writePages`. -/
def writeOps (buffer : Mem UInt8) :
    (fuel : Nat) → (cells : Mem UInt8) → (pb : List UInt8) → (addr address src len : Nat) →
      List FlashOp
  | 0, _, _, _, _, _, _ => []
  | fuel + 1, cells, pb, addr, address, src, len =>
    if len = 0 then []
    else
      let before := if len < 32 then flashReadOps addr 32 else []
      let pb := if len < 32 then flashReadData cells addr 32 else pb
      let moved := min (32 - address % 32) len
      let pb := pb.take (address % 32) ++ buffer.read src moved ++ pb.drop (address % 32 + moved)
      before ++ .program addr pb :: writeOps buffer fuel (program cells addr pb)
        (List.replicate 32 0xFF) (addr + 32) (address + moved) (src + moved) (len - moved)

def flashWriteOps (chip : Chip) (cells buffer : Mem UInt8) (address len : Nat) : List FlashOp :=
  if Writable chip address len then
    let addr := address - address % 32
    let before := if address % 32 ≠ 0 then flashReadOps addr 32 else []
    let pb := if address % 32 ≠ 0 then flashReadData cells addr 32 else List.replicate 32 0xFF
    before ++ writeOps buffer len cells pb addr address 0 len
  else []

def flashEraseOps (chip : Chip) (address : Nat) : List FlashOp :=
  if chip.flashSize ≤ sectorOf address then [] else [.erase (sectorOf address)]

/-! ### The commands do what the functions do -/

private theorem foldl_readOps (cells : Mem UInt8) (fuel : Nat) : ∀ addr address len,
    (readOps fuel addr address len).foldl FlashOp.apply cells = cells := by
  induction fuel with
  | zero => intro addr address len; rfl
  | succ fuel ih =>
    intro addr address len
    rw [readOps]
    split
    · rfl
    · exact ih _ _ _

theorem foldl_flashReadOps (cells : Mem UInt8) (address len : Nat) :
    (flashReadOps address len).foldl FlashOp.apply cells = cells := foldl_readOps cells len _ _ _

private theorem foldl_before (cells : Mem UInt8) (p : Prop) [Decidable p] (addr : Nat) :
    (if p then flashReadOps addr 32 else []).foldl FlashOp.apply cells = cells := by
  split
  · exact foldl_flashReadOps cells addr 32
  · rfl

private theorem foldl_writeOps (buffer : Mem UInt8) (fuel : Nat) : ∀ cells pb addr address src len,
    (writeOps buffer fuel cells pb addr address src len).foldl FlashOp.apply cells =
      writePages buffer fuel cells pb addr address src len := by
  induction fuel with
  | zero => intros; rfl
  | succ fuel ih =>
    intro cells pb addr address src len
    rw [writeOps, writePages]
    split
    · rfl
    · simp only [List.foldl_append, foldl_before, List.foldl_cons, FlashOp.apply]
      exact ih _ _ _ _ _ _

theorem foldl_flashWriteOps (chip : Chip) (cells buffer : Mem UInt8) (address len : Nat) :
    (flashWriteOps chip cells buffer address len).foldl FlashOp.apply cells =
      flashWriteData chip cells buffer address len := by
  rw [flashWriteOps, flashWriteData]
  split
  · simp only [List.foldl_append, foldl_before]
    exact foldl_writeOps buffer len _ _ _ _ _ _
  · rfl

theorem foldl_flashEraseOps (chip : Chip) (cells : Mem UInt8) (address : Nat) :
    (flashEraseOps chip address).foldl FlashOp.apply cells = flashEraseSector chip cells address := by
  rw [flashEraseOps, flashEraseSector]
  split <;> rfl

/-! ### Which pages they are -/

/-- The ranges have a cell in common. -/
def Meets (address len base size : Nat) : Prop := 0 < len ∧ address < base + size ∧ base < address + len

/-- The page that starts at `line` has a byte of the range. -/
def IsPage (address len line : Nat) : Prop := line % 32 = 0 ∧ Meets address len line 32

/-- The first page of a range, and the pages of the rest. -/
private theorem isPage_step {address len moved : Nat} (more : len ≠ 0)
    (split : moved = min (32 - address % 32) len) (line : Nat) :
    IsPage address len line ↔
      line = address - address % 32 ∨ IsPage (address + moved) (len - moved) line := by
  simp only [IsPage, Meets]
  omega

theorem mem_flashReadOps (address len : Nat) (op : FlashOp) :
    op ∈ flashReadOps address len ↔ ∃ line, op = .read line ∧ IsPage address len line := by
  have pages : ∀ fuel address len, len ≤ fuel →
      (op ∈ readOps fuel (address - address % 32) address len ↔
        ∃ line, op = .read line ∧ IsPage address len line) := by
    intro fuel
    induction fuel with
    | zero =>
      intro address len enough
      simp [readOps, IsPage, Meets, Nat.le_zero.mp enough]
    | succ fuel ih =>
      intro address len enough
      rw [readOps]
      split
      next done => simp [IsPage, Meets, done]
      next more =>
        obtain ⟨moved, split⟩ : ∃ moved, moved = min (32 - address % 32) len := ⟨_, rfl⟩
        simp only [← split, List.mem_cons]
        have rest : op ∈ readOps fuel (address - address % 32 + 32) (address + moved) (len - moved) ↔
            ∃ line, op = .read line ∧ IsPage (address + moved) (len - moved) line := by
          by_cases last : len - moved = 0
          · cases fuel <;> simp [readOps, IsPage, Meets, last]
          · rw [← ih (address + moved) (len - moved) (by omega),
              show address - address % 32 + 32 = address + moved - (address + moved) % 32 by omega]
        simp only [rest, isPage_step more split, and_or_left, exists_or, exists_eq_right]
  exact pages len address len (Nat.le_refl _)

/-- Nothing but the pages that are read decides what is read. -/
theorem flashReadData_congr {cells cells' : Mem UInt8} {address len : Nat}
    (same : ∀ op ∈ flashReadOps address len, ∀ x, op.Touches x → cells x = cells' x) :
    flashReadData cells address len = flashReadData cells' address len := by
  rw [flashReadData_eq, flashReadData_eq]
  apply Mem.read_congr
  intro x lower upper
  have page : IsPage address len (x - x % 32) := ⟨by omega, by omega, by omega, by omega⟩
  exact same _ ((mem_flashReadOps address len _).mpr ⟨_, rfl, page⟩) x
    ⟨by simp only [FlashOp.addr]; omega, by simp only [FlashOp.addr, FlashOp.size]; omega⟩

/-- A command about one page of the range. -/
def OnPage (address len : Nat) (op : FlashOp) : Prop :=
  ∃ line, (op = .read line ∨ ∃ page, op = .program line page ∧ page.length = 32) ∧ IsPage address len line

/-- Reading a page back is about that page. -/
private theorem onPage_before {address len line : Nat} (page : IsPage address len line) (p : Prop)
    [Decidable p] {op : FlashOp} (member : op ∈ if p then flashReadOps line 32 else []) :
    OnPage address len op := by
  split at member
  · obtain ⟨line', rfl, aligned, -, lower, upper⟩ := (mem_flashReadOps line 32 op).mp member
    have whole := page.1
    obtain rfl : line' = line := by omega
    exact ⟨line', .inl rfl, page⟩
  · cases member

private theorem onPage_writeOps (buffer : Mem UInt8) (fuel : Nat) : ∀ cells pb address src len,
    len ≤ fuel → pb.length = 32 →
    ∀ op ∈ writeOps buffer fuel cells pb (address - address % 32) address src len, OnPage address len op := by
  induction fuel with
  | zero => intro cells pb address src len enough full op member; cases member
  | succ fuel ih =>
    intro cells pb address src len enough full op member
    rw [writeOps] at member
    split at member
    · cases member
    next more =>
      obtain ⟨moved, split⟩ : ∃ moved, moved = min (32 - address % 32) len := ⟨_, rfl⟩
      have first := (isPage_step more split _).mpr (.inl rfl)
      simp only [← split, List.mem_append, List.mem_cons] at member
      rcases member with before | rfl | later
      · exact onPage_before first _ before
      · refine ⟨_, .inr ⟨_, rfl, ?_⟩, first⟩
        -- the bytes before, the new ones and those behind them are a page together
        have low : address % 32 + moved ≤ 32 := by omega
        have whole : (if len < 32 then flashReadData cells (address - address % 32) 32 else pb).length =
            32 := by
          split
          · rw [flashReadData_eq, Mem.length_read]
          · exact full
        simp only [List.length_append, List.length_take, List.length_drop, Mem.length_read, whole]
        omega
      · by_cases last : len - moved = 0
        · rw [last] at later
          cases fuel <;> simp [writeOps] at later
        · rw [show address - address % 32 + 32 = address + moved - (address + moved) % 32 by omega]
            at later
          obtain ⟨line, kind, inside⟩ := ih _ _ _ _ _ (by omega) (List.length_replicate ..) op later
          exact ⟨line, kind, (isPage_step more split line).mpr (.inr inside)⟩

private theorem writeOps_program (buffer : Mem UInt8) (fuel : Nat) : ∀ cells pb address src len line,
    len ≤ fuel → IsPage address len line →
    ∃ page, .program line page ∈ writeOps buffer fuel cells pb (address - address % 32) address src len := by
  induction fuel with
  | zero =>
    intro cells pb address src len line enough page
    exact absurd page.2.1 (by omega)
  | succ fuel ih =>
    intro cells pb address src len line enough page
    have more : len ≠ 0 := Nat.ne_of_gt page.2.1
    obtain ⟨moved, split⟩ : ∃ moved, moved = min (32 - address % 32) len := ⟨_, rfl⟩
    rw [writeOps, if_neg more]
    simp only [← split, List.mem_append, List.mem_cons]
    rcases (isPage_step more split line).mp page with rfl | later
    · exact ⟨_, .inr (.inl rfl)⟩
    · have positive := later.2.1
      rw [show address - address % 32 + 32 = address + moved - (address + moved) % 32 by omega]
      obtain ⟨bytes, member⟩ := ih _ _ _ _ _ line (by omega) later
      exact ⟨bytes, .inr (.inr member)⟩

section

variable {chip : Chip} {cells buffer : Mem UInt8} {address len : Nat}

/-- A write is about the pages that have a byte of the range. -/
theorem onPage_flashWriteOps (some : 0 < len) :
    ∀ op ∈ flashWriteOps chip cells buffer address len, OnPage address len op := by
  intro op member
  rw [flashWriteOps] at member
  split at member
  · rcases List.mem_append.mp member with before | later
    · exact onPage_before ⟨by omega, some, by omega, by omega⟩ _ before
    · refine onPage_writeOps buffer len _ _ _ _ _ (Nat.le_refl _) ?_ op later
      split
      · rw [flashReadData_eq, Mem.length_read]
      · exact List.length_replicate ..
  · cases member

/-- An empty write reads a page at most. -/
theorem flashWriteOps_empty {op : FlashOp}
    (member : op ∈ flashWriteOps chip cells buffer address 0) : op.changes = false := by
  rw [flashWriteOps] at member
  split at member
  · rcases List.mem_append.mp member with before | later
    · split at before
      · obtain ⟨line, rfl, -⟩ := (mem_flashReadOps _ 32 op).mp before
        rfl
      · cases before
    · cases later
  · cases member

/-- What a write programs are whole pages. -/
theorem changes_flashWriteOps {op : FlashOp} (changes : op.changes = true)
    (member : op ∈ flashWriteOps chip cells buffer address len) :
    ∃ line page, op = .program line page ∧ page.length = 32 ∧ IsPage address len line := by
  by_cases empty : len = 0
  · subst empty
    rw [flashWriteOps_empty member] at changes
    cases changes
  · obtain ⟨line, rfl | ⟨page, rfl, size⟩, inside⟩ :=
      onPage_flashWriteOps (Nat.pos_of_ne_zero empty) op member
    · cases changes
    · exact ⟨line, page, rfl, size, inside⟩

theorem flashWriteOps_program (writable : Writable chip address len) {line : Nat}
    (page : IsPage address len line) :
    ∃ bytes, .program line bytes ∈ flashWriteOps chip cells buffer address len := by
  obtain ⟨bytes, member⟩ := writeOps_program buffer len cells
    (if address % 32 ≠ 0 then flashReadData cells (address - address % 32) 32 else List.replicate 32 0xFF)
    address 0 len line (Nat.le_refl _) page
  refine ⟨bytes, ?_⟩
  rw [flashWriteOps, if_pos writable]
  exact List.mem_append_right _ member

/-- Every byte of an accepted write is programmed. -/
theorem flashWriteOps_covers (writable : Writable chip address len) {x : Nat} (lower : address ≤ x)
    (upper : x < address + len) :
    ∃ op ∈ flashWriteOps chip cells buffer address len, op.changes = true ∧ op.Touches x := by
  have page : IsPage address len (x - x % 32) := ⟨by omega, by omega, by omega, by omega⟩
  obtain ⟨bytes, member⟩ := @flashWriteOps_program chip cells buffer address len writable _ page
  obtain ⟨line, page', same, size, -⟩ := changes_flashWriteOps rfl member
  injection same with first second
  refine ⟨_, member, rfl, Nat.sub_le _ _, ?_⟩
  change x < x - x % 32 + bytes.length
  rw [second, size]
  omega

/-! ### Bytes -/

/-- `flash_read_data` returns the bytes of the range. `flash_write_data` clears bits in its cells, and
leaves every other cell of the flash alone. -/
theorem flash_bytes (chip : Chip) (cells buffer : Mem UInt8) (address len : Nat)
    (inside : address + len ≤ chip.flashSize) :
    flashReadData cells address len = (List.range len).map (fun i => cells (address + i)) ∧
      ∀ x, flashWriteData chip cells buffer address len x =
        if address ≤ x ∧ x < address + len then cells x &&& buffer (x - address) else cells x := by
  refine ⟨flashReadData_eq cells address len, fun x => ?_⟩
  have programmed : flashWriteData chip cells buffer address len =
      program cells address (buffer.read 0 len) := by
    rw [flashWriteData_eq]
    split
    · rfl
    next rejected =>
      -- only an empty write at the very end is rejected
      have empty : len = 0 := by
        by_contra more
        exact rejected (writable_of_le chip inside (by omega))
      rw [empty, Mem.read_zero, program_nil]
  rw [programmed]
  split
  next within =>
    obtain ⟨i, rfl⟩ := Nat.exists_eq_add_of_le within.1
    have bound : i < (buffer.read 0 len).length := by
      rw [Mem.length_read]
      omega
    rw [program_getElem _ _ bound, Mem.getElem_read, Nat.zero_add, Nat.add_sub_cancel_left]
  next outside =>
    by_cases below : x < address
    · exact program_of_lt _ _ below
    · exact program_of_ge _ _ (by rw [Mem.length_read]; omega)

/-- A write of two bytes across a page boundary. -/
theorem flash_bytes_boundary :
    flashReadData (Mem.ofList [7]) 31 2 = (List.range 2).map (fun i => Mem.ofList [7] (31 + i)) ∧
      ∀ x, flashWriteData defaultChip (fun _ => 0xFF) (Mem.ofList [1, 2]) 31 2 x =
        if 31 ≤ x ∧ x < 31 + 2 then 0xFF &&& Mem.ofList [1, 2] (x - 31) else 0xFF :=
  ⟨(flash_bytes defaultChip (Mem.ofList [7]) (Mem.ofList [1, 2]) 31 2 (by decide)).1,
    (flash_bytes defaultChip (fun _ => 0xFF) (Mem.ofList [1, 2]) 31 2 (by decide)).2⟩

/-! ### The bound of a write -/

/-- A write is rejected and leaves the flash as it is, or programs cells of the flash only; and none is
accepted that ends behind the flash. -/
def WriteBounded (chip : Chip) (cells buffer : Mem UInt8) (address len : Nat) : Prop :=
  ((¬ Writable chip address len ∧ flashWriteData chip cells buffer address len = cells) ∨
      ∀ op ∈ flashWriteOps chip cells buffer address len, op.changes = true →
        ∀ x, op.Touches x → x < chip.flashSize) ∧
    ¬ (Writable chip address len ∧ 0 < len ∧ chip.flashSize ≤ address + len - 1)

theorem flashSize_page (chip : Chip) : chip.flashSize % 32 = 0 := by
  have valid := chip.valid
  simp only [List.mem_cons, List.not_mem_nil, or_false] at valid
  omega

/-- The bound is checked for the start of the first page, so a write that begins in the middle of a page
may end behind the flash. -/
theorem write_bounded_iff (chip : Chip) (cells buffer : Mem UInt8) (address len : Nat) :
    WriteBounded chip cells buffer address len ↔
      len = 0 ∨ address + len ≤ chip.flashSize ∨ chip.flashSize < address - address % 32 + len := by
  have whole := flashSize_page chip
  constructor
  · rintro ⟨-, inside⟩
    by_contra outside
    refine inside ⟨⟨?_, ?_, ?_⟩, ?_, ?_⟩ <;> omega
  · intro fine
    constructor
    · by_cases writable : Writable chip address len
      · refine .inr fun op member changes x touches => ?_
        obtain ⟨line, page, rfl, size, aligned, meets⟩ := changes_flashWriteOps changes member
        have upper : x < line + page.length := touches.2
        obtain ⟨-, -, fits⟩ := writable
        obtain ⟨positive, -, before⟩ := meets
        omega
      · exact .inl ⟨writable, by rw [flashWriteData_eq, if_neg writable]⟩
    · rintro ⟨⟨-, -, fits⟩, positive, behind⟩
      omega

/-- The last byte and one more, on the smallest chip. -/
theorem write_bounded_fails :
    ¬ WriteBounded ⟨0x100000, by decide⟩ (fun _ => 0xFF) (fun _ => 0) 0xFFFFF 2 := by
  rw [WriteBounded]
  exact fun bounded => bounded.2 (by decide)

end

end Bk7251.Flash
