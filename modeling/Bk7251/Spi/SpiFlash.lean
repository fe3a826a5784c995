import Bk7251.Lib.Bytes
import Bk7251.Lib.Nor

/-!
# The external SPI flash

The chip behind the bus, and `driver/spi/spi_flash.c`: commands go out as one message each, and before each
of them the driver polls the status until the chip is done with the last one.
-/
namespace Bk7251.SpiFlash

open Lib Nor

def FLASH_PHY_PAGE_SIZE : UInt32 := 256
def FLASH_PHY_SECTOR_SIZE : Nat := 4096
def FLASH_PHY_BLK_32K : Nat := 32 * 1024
def FLASH_PHY_BLK_64K : Nat := 64 * 1024

def CMD_READ_STATUS_S7_0 : UInt8 := 0x05
def READ_STATUS_LEN : Nat := 1
def FLASH_STATUS_WIP_BIT : UInt8 := 1
def FLASH_STATUS_WEL_BIT : UInt8 := 2
def CMD_ERASE_ALL : UInt8 := 0xc7
def CMD_ERASE_BLK_64K : UInt8 := 0xD8
def CMD_ERASE_BLK_32K : UInt8 := 0x52
def CMD_ERASE_SECTOR : UInt8 := 0x20
def CMD_READ_DATA : UInt8 := 0x03
def CMD_PAGE_PROG : UInt8 := 0x02
def CMD_WRITE_ENABLE : UInt8 := 0x06

def ERASE_MODE_ALL : UInt32 := 1
def ERASE_MODE_BLOCK_64K : UInt32 := 2
def ERASE_MODE_BLOCK_32K : UInt32 := 3
def ERASE_MODE_SECTOR : UInt32 := 4

/-! ### The chip -/

/-- The number of cells that three address bytes reach. -/
def CAPACITY : Nat := 0x1000000

structure Device where
  cells : Mem UInt8
  /-- The write enable latch. -/
  wel : Bool
  /-- How many more status reads find the chip busy. -/
  wip : Nat
  /-- The same for the operations to come. -/
  delays : Nat → Nat

/-- The chip takes up an operation that ends with these cells. -/
def Device.start (dev : Device) (cells : Mem UInt8) : Device :=
  { cells, wel := false, wip := dev.delays 0, delays := fun k => dev.delays (k + 1) }

def Device.status (dev : Device) : UInt8 :=
  (if dev.wip = 0 then 0 else FLASH_STATUS_WIP_BIT) ||| (if dev.wel then FLASH_STATUS_WEL_BIT else 0)

def addressOf (a2 a1 a0 : UInt8) : Nat := a2.toNat * 65536 + a1.toNat * 256 + a0.toNat

/-- Set the aligned block of `address` to ones. -/
def eraseBlock (cells : Mem UInt8) (address block : Nat) : Mem UInt8 :=
  erase cells (address / block * block) block

/-- What an idle chip with its latch set does with a command and its address. -/
def Device.modify (dev : Device) (cmd : UInt8) (address : Nat) (data : List UInt8) : Device :=
  if cmd = CMD_PAGE_PROG then
    dev.start (programPage FLASH_PHY_PAGE_SIZE.toNat dev.cells address data)
  else if cmd = CMD_ERASE_SECTOR then dev.start (eraseBlock dev.cells address FLASH_PHY_SECTOR_SIZE)
  else if cmd = CMD_ERASE_BLK_32K then dev.start (eraseBlock dev.cells address FLASH_PHY_BLK_32K)
  else if cmd = CMD_ERASE_BLK_64K then dev.start (eraseBlock dev.cells address FLASH_PHY_BLK_64K)
  else dev

/-- One message: the bytes of `send_buf` go to the chip, `recv_len` bytes come back. A busy chip answers
nothing but its status. -/
def bkSpiMasterXfer (dev : Device) (sendBuf : List UInt8) (recvLen : Nat) : Device × List UInt8 :=
  if sendBuf = [CMD_READ_STATUS_S7_0] then
    ({ dev with wip := dev.wip - 1 }, List.replicate recvLen dev.status)
  else if dev.wip ≠ 0 then (dev, List.replicate recvLen 0xff)
  else
    match sendBuf with
    | [cmd] =>
      if cmd = CMD_WRITE_ENABLE then ({ dev with wel := true }, List.replicate recvLen 0xff)
      else if cmd = CMD_ERASE_ALL ∧ dev.wel then (dev.start fun _ => 0xff, List.replicate recvLen 0xff)
      else (dev, List.replicate recvLen 0xff)
    | cmd :: a2 :: a1 :: a0 :: data =>
      if cmd = CMD_READ_DATA then
        (dev, (List.range recvLen).map fun i => dev.cells ((addressOf a2 a1 a0 + i) % CAPACITY))
      else if dev.wel then (dev.modify cmd (addressOf a2 a1 a0) data, List.replicate recvLen 0xff)
      else (dev, List.replicate recvLen 0xff)
    | _ => (dev, List.replicate recvLen 0xff)

/-! ### Single commands -/

def spiFlashSendCommand (dev : Device) (cmd : UInt8) : Device := (bkSpiMasterXfer dev [cmd] 0).1

def spiFlashIsBusy (dev : Device) : Device × UInt8 :=
  let r := bkSpiMasterXfer dev [CMD_READ_STATUS_S7_0] READ_STATUS_LEN
  (r.1, r.2.headD 0 &&& FLASH_STATUS_WIP_BIT)

/-- `while(spi_flash_is_busy())`, for at most so many rounds. -/
def whileBusy : Nat → Device → Device
  | 0, dev => dev
  | fuel + 1, dev =>
    let r := spiFlashIsBusy dev
    if r.2 ≠ 0 then whileBusy fuel r.1 else r.1

/-- The chip is done after finitely many status reads, and the loop with it. -/
def waitWhileBusy (dev : Device) : Device := whileBusy (dev.wip + 1) dev

/-- The wait, the write enable and the wait that come before a command that changes cells. -/
def writeEnable (dev : Device) : Device :=
  waitWhileBusy (spiFlashSendCommand (waitWhileBusy dev) CMD_WRITE_ENABLE)

/-- `(addr >> 16) & 0xff` and the two bytes below. -/
def addressBytes (addr : UInt32) : List UInt8 :=
  [((addr >>> 16) &&& 0xff).toUInt8, ((addr >>> 8) &&& 0xff).toUInt8, (addr &&& 0xff).toUInt8]

def spiFlashEarse (dev : Device) (addr mode : UInt32) : Device :=
  if mode = ERASE_MODE_ALL then (bkSpiMasterXfer (writeEnable dev) [CMD_ERASE_ALL] 0).1
  else if mode = ERASE_MODE_BLOCK_64K then
    (bkSpiMasterXfer (writeEnable dev) (CMD_ERASE_BLK_64K :: addressBytes addr) 0).1
  else if mode = ERASE_MODE_BLOCK_32K then
    (bkSpiMasterXfer (writeEnable dev) (CMD_ERASE_BLK_32K :: addressBytes addr) 0).1
  else if mode = ERASE_MODE_SECTOR then
    (bkSpiMasterXfer (writeEnable dev) (CMD_ERASE_SECTOR :: addressBytes addr) 0).1
  else dev

/-- The answer is stored at `dst + pos`. -/
def spiFlashReadPage (dev : Device) (addr size : UInt32) (dst : Mem UInt8) (pos : Nat) :
    Nat × Device × Mem UInt8 :=
  if FLASH_PHY_PAGE_SIZE < size then (1, dev, dst)
  else if size = 0 then (0, dev, dst)
  else
    let r := bkSpiMasterXfer (waitWhileBusy dev) (CMD_READ_DATA :: addressBytes addr) size.toNat
    (0, r.1, dst.write pos r.2)

/-- The chip and what `os_malloc` will answer. -/
structure State where
  dev : Device
  mallocs : Nat → Bool

/-- The answer of `os_malloc`, and the heap behind it. -/
def osMalloc (s : State) : Bool × State := (s.mallocs 0, { s with mallocs := fun k => s.mallocs (k + 1) })

/-- The bytes are those at `src + pos`. -/
def spiFlashProgramPage (s : State) (addr size : UInt32) (src : Mem UInt8) (pos : Nat) : Nat × State :=
  if FLASH_PHY_PAGE_SIZE < size then (1, s)
  else if size = 0 then (0, s)
  else
    let ucmd := osMalloc s
    if ucmd.1 = false then (1, ucmd.2)
    else
      let sendBuf := CMD_PAGE_PROG :: addressBytes addr ++ src.read pos size.toNat
      (0, { ucmd.2 with dev := (bkSpiMasterXfer (writeEnable s.dev) sendBuf 0).1 })

/-! ### The interface -/

/-- The size of the next piece. -/
def dsizeOf (size i : UInt32) : UInt32 :=
  if FLASH_PHY_PAGE_SIZE ≤ size - i then FLASH_PHY_PAGE_SIZE else size - i

/-- The loop of `spi_flash_read`; a round moves at least one byte, so `size` rounds are enough. -/
def readLoop : (fuel : Nat) → Device → (addr size i : UInt32) → (dst : Mem UInt8) → (pos : Nat) →
    Nat × Device × Mem UInt8
  | 0, dev, _, _, _, dst, _ => (0, dev, dst)
  | fuel + 1, dev, addr, size, i, dst, pos =>
    if i < size then
      let dsize := dsizeOf size i
      let r := spiFlashReadPage dev addr dsize dst pos
      if r.1 ≠ 0 then (1, r.2)
      else readLoop fuel r.2.1 (addr + dsize) size (i + dsize) r.2.2 (pos + dsize.toNat)
    else (0, dev, dst)

def spiFlashRead (dev : Device) (addr size : UInt32) : (dst : Option (Mem UInt8)) →
    Nat × Device × Option (Mem UInt8)
  | none => (1, dev, none)
  | some dst =>
    if size = 0 then (0, dev, some dst)
    else
      let r := readLoop size.toNat dev addr size 0 dst 0
      (r.1, r.2.1, some r.2.2)

/-- The loop of `spi_flash_write`. -/
def writeLoop : (fuel : Nat) → State → (addr size i : UInt32) → (src : Mem UInt8) → (pos : Nat) →
    Nat × State
  | 0, s, _, _, _, _, _ => (0, s)
  | fuel + 1, s, addr, size, i, src, pos =>
    if i < size then
      let dsize := dsizeOf size i
      let r := spiFlashProgramPage s addr dsize src pos
      if r.1 ≠ 0 then (1, r.2)
      else writeLoop fuel r.2 (addr + dsize) size (i + dsize) src (pos + dsize.toNat)
    else (0, s)

def spiFlashWrite (s : State) (addr size : UInt32) : (src : Option (Mem UInt8)) → Nat × State
  | none => (1, s)
  | some src => if size = 0 then (0, s) else writeLoop size.toNat s addr size 0 src 0

/-- The size and the mode of the next erase. -/
def eraseChoice (size : UInt32) (leftSize : Int) : UInt32 × UInt32 :=
  if leftSize ≤ 4 * 1024 then (4 * 1024, ERASE_MODE_SECTOR)
  else if size ≤ 32 * 1024 then (32 * 1024, ERASE_MODE_BLOCK_32K)
  else (64 * 1024, ERASE_MODE_BLOCK_64K)

/-- The step to the next boundary of the erase size. -/
def eraseStep (addr eraseSize : UInt32) : UInt32 :=
  if addr &&& (eraseSize - 1) ≠ 0 then eraseSize - (addr &&& (eraseSize - 1)) else eraseSize

/-- The loop of `spi_flash_erase`, `none` when it is not over after so many rounds. The variable `size` is
overwritten by the step. -/
def eraseLoop : (fuel : Nat) → Device → (addr size : UInt32) → (leftSize : Int) → Option Device
  | 0, _, _, _, _ => none
  | fuel + 1, dev, addr, size, leftSize =>
    if 0 < leftSize then
      let choice := eraseChoice size leftSize
      let dev := spiFlashEarse dev addr choice.2
      let size := eraseStep addr choice.1
      eraseLoop fuel dev (addr + size) size (leftSize - size.toNat)
    else some dev

/-- `(int)size` as the loop begins with it. -/
def spiFlashErase (fuel : Nat) (dev : Device) (addr size : UInt32) : Option Device :=
  eraseLoop fuel dev addr size size.toInt32.toInt

/-! ### What a command does -/

theorem isBusy_fst (dev : Device) : (spiFlashIsBusy dev).1 = { dev with wip := dev.wip - 1 } := rfl

theorem isBusy_snd (dev : Device) : (spiFlashIsBusy dev).2 ≠ 0 ↔ dev.wip ≠ 0 := by
  have answer : (spiFlashIsBusy dev).2 = dev.status &&& FLASH_STATUS_WIP_BIT := rfl
  -- the bit of the write enable latch is masked out
  rw [answer, Device.status]
  split
  next idle =>
    apply iff_of_false
    · cases dev.wel <;> decide
    · exact not_not.mpr idle
  next busy =>
    apply iff_of_true
    · cases dev.wel <;> decide
    · exact busy

/-- The wait ends, and with nothing changed but the chip being idle. -/
theorem waitWhileBusy_eq (dev : Device) : waitWhileBusy dev = { dev with wip := 0 } := by
  rw [waitWhileBusy]
  -- by induction on the answers that still say busy
  generalize rounds : dev.wip = n
  induction n generalizing dev with
  | zero =>
    have idle : ¬ (spiFlashIsBusy dev).2 ≠ 0 := by
      rw [isBusy_snd, rounds]
      simp
    simp only [whileBusy, if_neg idle, isBusy_fst, rounds]
  | succ n ih =>
    have busy : (spiFlashIsBusy dev).2 ≠ 0 := by
      rw [isBusy_snd, rounds]
      simp
    rw [whileBusy]
    simp only [if_pos busy]
    rw [ih _ (by rw [isBusy_fst, rounds]; rfl), isBusy_fst]

theorem writeEnable_eq (dev : Device) : writeEnable dev = { dev with wel := true, wip := 0 } := by
  rw [writeEnable, waitWhileBusy_eq, waitWhileBusy_eq]
  rfl

theorem addressBytes_eq (addr : UInt32) : ∃ a2 a1 a0, addressBytes addr = [a2, a1, a0] ∧
    addressOf a2 a1 a0 = addr.toNat % CAPACITY := by
  refine ⟨_, _, _, rfl, ?_⟩
  have bytes : ∀ k, k = 8 ∨ k = 16 → addr.toNat >>> k = addr.toNat / 2 ^ k := fun k _ =>
    Nat.shiftRight_eq_div_pow addr.toNat k
  have mask : ∀ n : Nat, n &&& 255 = n % 256 := fun n => Nat.and_two_pow_sub_one_eq_mod n 8
  simp only [addressOf, CAPACITY, UInt32.toNat_toUInt8, UInt32.toNat_and, UInt32.toNat_shiftRight,
    UInt32.reduceToNat, mask, Nat.reduceMod, bytes 8 (.inl rfl), bytes 16 (.inr rfl)]
  omega

/-- A command with an address that reaches the idle chip behind a write enable. -/
theorem xfer_modify (dev : Device) {cmd : UInt8} (not_read : cmd ≠ CMD_READ_DATA) (addr : UInt32)
    (data : List UInt8) :
    (bkSpiMasterXfer (writeEnable dev) (cmd :: addressBytes addr ++ data) 0).1 =
      (writeEnable dev).modify cmd (addr.toNat % CAPACITY) data := by
  obtain ⟨a2, a1, a0, bytes, address⟩ := addressBytes_eq addr
  rw [writeEnable_eq, bytes, ← address]
  simp [bkSpiMasterXfer, not_read]

/-- The block size of an erase mode. -/
def blockOf (mode : UInt32) : Option Nat :=
  if mode = ERASE_MODE_SECTOR then some FLASH_PHY_SECTOR_SIZE
  else if mode = ERASE_MODE_BLOCK_32K then some FLASH_PHY_BLK_32K
  else if mode = ERASE_MODE_BLOCK_64K then some FLASH_PHY_BLK_64K
  else none

theorem earse_cells (dev : Device) (addr : UInt32) {mode : UInt32} {block : Nat}
    (known : blockOf mode = some block) :
    (spiFlashEarse dev addr mode).cells = eraseBlock dev.cells (addr.toNat % CAPACITY) block := by
  have sent : ∀ cmd, cmd ≠ CMD_READ_DATA →
      (bkSpiMasterXfer (writeEnable dev) (cmd :: addressBytes addr) 0).1 =
        (writeEnable dev).modify cmd (addr.toNat % CAPACITY) [] := by
    intro cmd not_read
    have whole := xfer_modify dev not_read addr []
    rwa [List.append_nil] at whole
  rw [blockOf] at known
  split at known
  next sector =>
    cases known
    rw [sector, spiFlashEarse, if_neg (by decide), if_neg (by decide), if_neg (by decide), if_pos rfl,
      sent _ (by decide), writeEnable_eq]
    rfl
  split at known
  next half =>
    cases known
    rw [half, spiFlashEarse, if_neg (by decide), if_neg (by decide), if_pos rfl, sent _ (by decide),
      writeEnable_eq]
    rfl
  split at known
  next full =>
    cases known
    rw [full, spiFlashEarse, if_neg (by decide), if_pos rfl, sent _ (by decide), writeEnable_eq]
    rfl
  next => cases known

/-- A page program sends the bytes in one command. -/
theorem programPage_cells (s : State) (addr : UInt32) {size : UInt32} (src : Mem UInt8) (pos : Nat)
    (some_bytes : size ≠ 0) (one_page : size ≤ FLASH_PHY_PAGE_SIZE) :
    (spiFlashProgramPage s addr size src pos).1 = (if s.mallocs 0 then 0 else 1) ∧
      (spiFlashProgramPage s addr size src pos).2.mallocs = (fun k => s.mallocs (k + 1)) ∧
      (spiFlashProgramPage s addr size src pos).2.dev.cells =
        if s.mallocs 0 then
          programPage FLASH_PHY_PAGE_SIZE.toNat s.dev.cells (addr.toNat % CAPACITY)
            (src.read pos size.toNat)
        else s.dev.cells := by
  rw [spiFlashProgramPage, if_neg (UInt32.not_lt.mpr one_page), if_neg some_bytes]
  cases block : s.mallocs 0
  · simp [osMalloc, block]
  · simp only [osMalloc, block, xfer_modify _ (show CMD_PAGE_PROG ≠ CMD_READ_DATA by decide)]
    refine ⟨rfl, rfl, ?_⟩
    rw [writeEnable_eq]
    rfl

/-- A page read stores the cells from `addr` on. -/
theorem readPage_eq (dev : Device) (addr : UInt32) {size : UInt32} (dst : Mem UInt8) (pos : Nat)
    (some_bytes : size ≠ 0) (one_page : size ≤ FLASH_PHY_PAGE_SIZE)
    (inside : addr.toNat + size.toNat ≤ CAPACITY) :
    spiFlashReadPage dev addr size dst pos =
      (0, { dev with wip := 0 }, dst.write pos (dev.cells.read addr.toNat size.toNat)) := by
  obtain ⟨a2, a1, a0, bytes, address⟩ := addressBytes_eq addr
  have positive := (toNat_ne_zero size).mp some_bytes
  rw [Nat.mod_eq_of_lt (by omega)] at address
  -- inside the chip the address does not wrap around
  have cells : (List.range size.toNat).map (fun i => dev.cells ((addr.toNat + i) % CAPACITY)) =
      dev.cells.read addr.toNat size.toNat := by
    apply List.map_congr_left
    intro i member
    have bound := List.mem_range.mp member
    rw [Nat.mod_eq_of_lt (by omega)]
  rw [spiFlashReadPage, if_neg (UInt32.not_lt.mpr one_page), if_neg some_bytes, waitWhileBusy_eq, bytes]
  simp [bkSpiMasterXfer, address, cells]

theorem dsizeOf_le (size i : UInt32) : dsizeOf size i ≤ FLASH_PHY_PAGE_SIZE := by
  rw [dsizeOf]
  split
  · exact UInt32.le_refl _
  next less => exact UInt32.le_of_lt (UInt32.not_le.mp less)

theorem toNat_dsizeOf {size i : UInt32} (more : i < size) :
    (dsizeOf size i).toNat = min 256 (size.toNat - i.toNat) := by
  have below := UInt32.lt_iff_toNat_lt.mp more
  have left := toNat_sub size i (by omega)
  simp only [dsizeOf, FLASH_PHY_PAGE_SIZE, UInt32.le_iff_toNat_le, left, UInt32.reduceToNat]
  split
  · change 256 = _
    omega
  · omega

theorem dsizeOf_ne_zero {size i : UInt32} (more : i < size) : dsizeOf size i ≠ 0 := by
  have below := UInt32.lt_iff_toNat_lt.mp more
  rw [toNat_ne_zero, toNat_dsizeOf more]
  omega

/-- The loops of both directions go on behind the piece. -/
theorem toNat_behind {addr size i : UInt32} (more : i < size)
    (inside : addr.toNat + (size.toNat - i.toNat) ≤ CAPACITY) :
    (i + dsizeOf size i).toNat = i.toNat + (dsizeOf size i).toNat ∧
      (addr + dsizeOf size i).toNat = addr.toNat + (dsizeOf size i).toNat := by
  have room := size.toNat_lt
  have piece := toNat_dsizeOf more
  have below := UInt32.lt_iff_toNat_lt.mp more
  unfold CAPACITY at inside
  constructor
  · exact toNat_add i _ (by omega)
  · exact toNat_add addr _ (by omega)

/-- The loops end when nothing is left. -/
theorem left_zero {size i : UInt32} (done : ¬ i < size) : size.toNat - i.toNat = 0 := by
  have whole := UInt32.not_lt.mp done
  rw [UInt32.le_iff_toNat_le] at whole
  exact Nat.sub_eq_zero_of_le whole

end Bk7251.SpiFlash
