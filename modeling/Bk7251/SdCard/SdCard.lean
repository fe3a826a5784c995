import Bk7251.Lib.Bytes

/-!
# The SD-card host

`driver/sdcard/sdcard.c`: the two calls of the device that move blocks. The FIFOs of the controller are
always ready; what the card says to a command or a block is the card's.
-/
namespace Bk7251.SdCard

open Lib

/-! ### `SDIO_Error` -/

def SD_OK : UInt32 := 0
def SD_CMD_CRC_FAIL : UInt32 := 1
def SD_DATA_CRC_FAIL : UInt32 := 2
def SD_CMD_RSP_TIMEOUT : UInt32 := 3
def SD_DATA_TIMEOUT : UInt32 := 4
def SD_ERROR : UInt32 := 9

def SD_DEFAULT_BLOCK_SIZE : Nat := 512

def STOP_TRANSMISSION : UInt32 := 12
def READ_SINGLE_BLOCK : UInt32 := 17
def WRITE_MULTIPLE_BLOCK : UInt32 := 25

/-! ### The card -/

/-- The flags of `REG_SDCARD_CMD_RSP_INT_SEL` at the end of a command or of a block. -/
structure Reply where
  timeout : Bool
  crcFail : Bool

/-- A card, with what it says to the reads of a call by their number, and to the blocks of a write. -/
structure Card where
  content : Nat → Mem UInt8
  readCmd : Nat → Reply
  readData : Nat → Reply
  writeCmd : Reply
  writeStatus : Nat → BitVec 3
  stopCmd : Reply

/-- `Addr_shift_bit`: the card counts bytes or blocks. -/
def addrShiftBit (byteAddressed : Bool) : UInt32 := if byteAddressed then 9 else 0

/-- `sdio_wait_cmd_response`. -/
def sdioWaitCmdResponse (cmd : UInt32) (reply : Reply) : UInt32 :=
  if reply.timeout then SD_CMD_RSP_TIMEOUT
  else if reply.crcFail ∧ cmd ≠ 41 ∧ cmd ≠ 2 ∧ cmd ≠ 9 ∧ cmd ≠ 1 then SD_CMD_CRC_FAIL
  else SD_OK

/-! ### Reading -/

/-- `blocks` are the blocks that the card was asked for, with whether they came. -/
structure ReadState where
  userBuf : Mem UInt8
  blocks : List (Nat × Bool)

/-- The loop of `sdcard_wait_receive_data`. A word of the FIFO has the first byte lowest. -/
def receiveWords (content : Mem UInt8) (readbuff : Nat) : Nat → Nat → Mem UInt8 → Mem UInt8
  | 0, _, m => m
  | n + 1, i, m =>
    let reg := content.load32 i
    receiveWords content readbuff n (i + 4) (m.write (readbuff + i)
      [(reg &&& 0xff).toUInt8, ((reg >>> 8) &&& 0xff).toUInt8, ((reg >>> 16) &&& 0xff).toUInt8,
        ((reg >>> 24) &&& 0xff).toUInt8])

/-- `sdcard_wait_receive_data`. -/
def sdcardWaitReceiveData (content : Mem UInt8) (reply : Reply) (readbuff : Nat) (m : Mem UInt8) :
    UInt32 × Mem UInt8 :=
  if reply.timeout then (SD_DATA_TIMEOUT, m)
  else if reply.crcFail then (SD_DATA_CRC_FAIL, m)
  else (SD_OK, receiveWords content readbuff (SD_DEFAULT_BLOCK_SIZE / 4) 0 m)

/-- `sdcard_read_single_block`, the read number `k` of a call. -/
def sdcardReadSingleBlock (card : Card) (byteAddressed : Bool) (k : Nat) (readbuff : Nat) (readaddr : UInt32)
    (s : ReadState) : UInt32 × ReadState :=
  let arg := readaddr <<< addrShiftBit byteAddressed
  let block := (arg >>> addrShiftBit byteAddressed).toNat
  let cmdErr := sdioWaitCmdResponse READ_SINGLE_BLOCK (card.readCmd k)
  let (ret, userBuf) :=
    if cmdErr = SD_CMD_RSP_TIMEOUT then (cmdErr, s.userBuf)
    else if cmdErr = SD_CMD_CRC_FAIL then (cmdErr, s.userBuf)
    else sdcardWaitReceiveData (card.content block) (card.readData k) readbuff s.userBuf
  (ret, ⟨userBuf, s.blocks ++ [(block, ret == SD_OK)]⟩)

/-- The loop of `sdcard_read`, with what is left of `read_blk_numb` and the number of the read. -/
def readBlocks (card : Card) (byteAddressed : Bool) : Nat → Nat → UInt32 → Nat → ReadState → Bool × ReadState
  | 0, _, _, _, s => (true, s)
  | n + 1, k, startBlkAddr, readDataBuf, s =>
    let (result, s) := sdcardReadSingleBlock card byteAddressed k readDataBuf startBlkAddr s
    if result ≠ SD_OK then (false, s)
    else readBlocks card byteAddressed n (k + 1) (startBlkAddr + 1) (readDataBuf + SD_DEFAULT_BLOCK_SIZE) s

/-- `sdcard_read`; `read_blk_numb` is a byte. -/
def sdcardRead (card : Card) (byteAddressed : Bool) (userBuf : Mem UInt8) (count opFlag : UInt32) :
    UInt32 × ReadState :=
  let (ok, s) := readBlocks card byteAddressed count.toUInt8.toNat 0 opFlag 0 ⟨userBuf, []⟩
  (if ok then count else 0, s)

/-! ### Writing -/

/-- `tmpval` for the four bytes from `i` on. -/
def tmpval (writeBuff : Mem UInt8) (i : UInt32) : UInt32 :=
  (writeBuff i.toNat).toUInt32 <<< 24 ||| (writeBuff (i + 1).toNat).toUInt32 <<< 16 |||
    (writeBuff (i + 2).toNat).toUInt32 <<< 8 ||| (writeBuff (i + 3).toNat).toUInt32

/-- The loops that fill the FIFO with `n` words; `i` is the index into `write_buff`. -/
def fillWords (writeBuff : Mem UInt8) : Nat → UInt32 × List UInt32 → UInt32 × List UInt32
  | 0, p => p
  | n + 1, (i, words) => fillWords writeBuff n (i + 4, words ++ [tmpval writeBuff i])

def fillBlock (writeBuff : Mem UInt8) (p : UInt32 × List UInt32) : UInt32 × List UInt32 :=
  fillWords writeBuff (SD_DEFAULT_BLOCK_SIZE / 4) p

/-- The loop over the other blocks, each followed by what the card said to the block before, which is number
`k`. -/
def writeBlocks (card : Card) (writeBuff : Mem UInt8) :
    Nat → Nat → UInt32 × List UInt32 → Bool × UInt32 × List UInt32
  | 0, _, p => (true, p)
  | n + 1, k, p =>
    let p := fillBlock writeBuff p
    if card.writeStatus k ≠ 2 then (false, p) else writeBlocks card writeBuff n (k + 1) p

/-- The rounds of `while(--block_num)`: the count goes down before it is looked at. -/
def otherBlocks (blockNum : UInt32) : Nat := (blockNum - 1).toNat

/-- `sdcard_write_multi_block` after a command that was accepted: the result so far, and the words that
were written to `REG_SDCARD_WR_DATA_ADDR`. -/
def writeData (card : Card) (writeBuff : Mem UInt8) (blockNum : UInt32) : UInt32 × List UInt32 :=
  let first := fillBlock writeBuff (0, [])
  let (ok, _, words) := writeBlocks card writeBuff (otherBlocks blockNum) 0 first
  if ok = false then (SD_ERROR, words)
  -- After the last block a zero.
  else (if card.writeStatus (otherBlocks blockNum) ≠ 2 then SD_ERROR else SD_OK, words ++ [0])

/-- `arg` is the argument of the command, `words` what was written to the FIFO. -/
structure Written where
  arg : UInt32
  words : List UInt32

/-- `sdcard_write_multi_block`. -/
def sdcardWriteMultiBlock (card : Card) (byteAddressed : Bool) (writeBuff : Mem UInt8)
    (firstBlock blockNum : UInt32) : UInt32 × Written :=
  let arg := firstBlock <<< addrShiftBit byteAddressed
  let ret := sdioWaitCmdResponse WRITE_MULTIPLE_BLOCK card.writeCmd
  let (ret, words) := if ret = SD_OK then writeData card writeBuff blockNum else (ret, [])
  (ret + sdioWaitCmdResponse STOP_TRANSMISSION card.stopCmd, ⟨arg, words⟩)

/-- `sdcard_write`. -/
def sdcardWrite (card : Card) (byteAddressed : Bool) (userBuf : Mem UInt8) (count opFlag : UInt32) :
    UInt32 × Written :=
  sdcardWriteMultiBlock card byteAddressed userBuf opFlag count

/-- The bytes of a word, the highest first. -/
def wordBytes (w : UInt32) : List UInt8 := (toLe32 w).reverse

/-- What the controller has sent: whole blocks. The rest of the FIFO is reset. -/
def sentBytes (words : List UInt32) : List UInt8 :=
  let bytes := words.flatMap wordBytes
  bytes.take (bytes.length / SD_DEFAULT_BLOCK_SIZE * SD_DEFAULT_BLOCK_SIZE)

end Bk7251.SdCard
