import Bk7251.Lib.Bytes
import Bk7251.Flash.FlashDriver

/-!
# Storing a block of an image

`store_block` of `app/tftp/tftpclient.c`: every block starts with a `SEND_PTK_HD`, what follows is
programmed at `os_data_addr`, and the block that ends the image commits it by writing an `IMG_HEAD`.
`co_crc32` is the chip's own routine and stays a parameter.
-/
namespace Bk7251.Ota

open Lib Nor Flash

/-- `SEND_PTK_HD`, the head of every block. -/
structure SendPtkHd where
  totalLen : UInt32
  seq : UInt16
  totalSeq : UInt16
  os0ExAddr : UInt32
  osHdAddr : UInt32
  os0FlashAddr : UInt32
  os1FlashAddr : UInt32
deriving Inhabited

def SendPtkHd.bytes (hd : SendPtkHd) : List UInt8 :=
  toLe32 hd.totalLen ++ toLe16 hd.seq ++ toLe16 hd.totalSeq ++ toLe32 hd.os0ExAddr ++
    toLe32 hd.osHdAddr ++ toLe32 hd.os0FlashAddr ++ toLe32 hd.os1FlashAddr

def TFTP_PKT_HD_LEN : Nat := 24
def TFTP_ALL_CRC_LEN : Nat := 4

/-- `os_memcpy(&send_hd, src, sizeof(send_hd))`. -/
def SendPtkHd.load (src : Mem UInt8) : SendPtkHd where
  totalLen := src.load32 0
  seq := src.load16 4
  totalSeq := src.load16 6
  os0ExAddr := src.load32 8
  osHdAddr := src.load32 12
  os0FlashAddr := src.load32 16
  os1FlashAddr := src.load32 20

@[simp] theorem length_sendPtkHd_bytes (hd : SendPtkHd) : hd.bytes.length = TFTP_PKT_HD_LEN := by
  simp [SendPtkHd.bytes, TFTP_PKT_HD_LEN]

/-- The head is read back from the front of a block. -/
@[simp] theorem load_bytes (hd : SendPtkHd) (payload : List UInt8) :
    SendPtkHd.load (Mem.ofList (hd.bytes ++ payload)) = hd := by
  simp only [SendPtkHd.load, Mem.load32, Mem.load16, Mem.ofList, SendPtkHd.bytes, toLe32, toLe16,
    List.cons_append, List.nil_append, List.getD_cons_succ, List.getD_cons_zero, Nat.reduceAdd,
    ofLe32_toLe32, ofLe16_toLe16]

/-- `IMG_HEAD`, which tells the boot loader about a complete image. -/
structure ImgHead where
  bkupAddr : UInt32
  bkupLen : UInt32
  exAddr : UInt32
  osAddr : UInt32
  hdAddr : UInt32
  crc : UInt32
  status : UInt32
  bk : UInt32
deriving Inhabited

def ImgHead.bytes (h : ImgHead) : List UInt8 :=
  toLe32 h.bkupAddr ++ toLe32 h.bkupLen ++ toLe32 h.exAddr ++ toLe32 h.osAddr ++ toLe32 h.hdAddr ++
    toLe32 h.crc ++ toLe32 h.status ++ toLe32 h.bk

/-- The flash and the globals of `store_block`. -/
structure Store where
  cells : Mem UInt8
  sendHd : SendPtkHd
  sendHdBk : SendPtkHd
  osDataAddr : Nat
  tftpCrc : UInt32
  imgHd : ImgHead

/-- What `store_block` checks a head against its predecessor for. A mismatch is printed only. -/
def SendPtkHd.Follows (hd bk : SendPtkHd) : Prop :=
  bk.seq + 1 = hd.seq ∧ bk.totalLen = hd.totalLen ∧ bk.os0ExAddr = hd.os0ExAddr ∧
    bk.os0FlashAddr = hd.os0FlashAddr ∧ bk.os1FlashAddr = hd.os1FlashAddr ∧
    bk.totalSeq = hd.totalSeq

/-- `os_data_addr` lies outside what an image may occupy. -/
def OutOfRange (osDataAddr : Nat) : Prop := 0x200000 ≤ osDataAddr ∨ osDataAddr < 0x27000

instance (a : Nat) : Decidable (OutOfRange a) := inferInstanceAs (Decidable (_ ∨ _))

/-- The image head that commits the image. -/
def Store.commitHead (s : Store) (orCrc : UInt32) : ImgHead where
  bkupAddr := s.sendHd.os1FlashAddr
  bkupLen := s.sendHdBk.totalLen
  exAddr := s.sendHd.os0ExAddr
  osAddr := s.sendHd.os0FlashAddr
  hdAddr := s.sendHd.osHdAddr
  crc := orCrc
  status := 1
  bk := s.imgHd.bk

/-- The image head replaces its sector. -/
def Store.commit (chip : Chip) (s : Store) (orCrc : UInt32) : Store :=
  let imgHd := s.commitHead orCrc
  let hdAddr := s.sendHd.osHdAddr.toNat
  { s with
    imgHd
    cells := flashWriteData chip (flashEraseSector chip s.cells hdAddr) (Mem.ofList imgHd.bytes)
      hdAddr 32 }

/-- The block's head is taken over; block 0 starts an image. -/
def Store.takeHead (s : Store) (block : Nat) (src : Mem UInt8) : Store :=
  let hd := SendPtkHd.load src
  let s := if block ≠ 0 then s else { s with osDataAddr := hd.os1FlashAddr.toNat, tftpCrc := 0 }
  { s with sendHd := hd, sendHdBk := hd }

/-- Only a block that begins exactly at a sector boundary erases, and only that sector. -/
def Store.eraseSector (chip : Chip) (s : Store) : Store :=
  { s with
    cells :=
      if s.osDataAddr % SECTOR = 0 then flashEraseSector chip s.cells s.osDataAddr else s.cells }

section

variable (co_crc32 : List UInt8 → UInt32 → UInt32) (chip : Chip)

/-- The checksum after the block that ends the image, whose last bytes are the expected one. -/
def lastCrc (tftpCrc : UInt32) (src : Mem UInt8) (len : Nat) : UInt32 :=
  co_crc32 (src.read 0 (len - TFTP_ALL_CRC_LEN)) tftpCrc

def orCrc (src : Mem UInt8) (len : Nat) : UInt32 := src.load32 (len - TFTP_ALL_CRC_LEN)

/-- The checksum is carried on, and compared with the image's own one at the end. -/
def checkCrc (s : Store) (src : Mem UInt8) (len : Nat) : Store :=
  if s.sendHd.seq ≠ s.sendHd.totalSeq then
    { s with tftpCrc := co_crc32 (src.read 0 len) s.tftpCrc }
  else
    let crc := lastCrc co_crc32 s.tftpCrc src len
    let s := { s with tftpCrc := crc }
    if crc = orCrc src len then s.commit chip (orCrc src len) else s

/-- `store_block(block, src, len)`; `malloc` tells whether `os_malloc(1024)` finds memory. There is no
result where the function runs over the end of `f_data` or reads in front of the block. -/
def storeBlock (malloc : Bool) (s : Store) (block : Nat) (src : Mem UInt8) (len : Nat) : Option Store :=
  let s := (s.takeHead block src).eraseSector chip
  -- the range is checked after the erase
  if OutOfRange s.osDataAddr then some s
  else
    let count := (len + (2 ^ 32 - TFTP_PKT_HD_LEN)) % 2 ^ 32
    let s := { s with
      cells := flashWriteData chip s.cells (src.shift TFTP_PKT_HD_LEN) s.osDataAddr count }
    -- the block is read back into 1024 bytes; a difference is printed only
    if malloc ∧ 1024 < count then none
    else if s.sendHd.seq = s.sendHd.totalSeq ∧ len < TFTP_ALL_CRC_LEN then none
    else
      let s := checkCrc co_crc32 chip s src len
      some { s with osDataAddr := (s.osDataAddr + count) % 2 ^ 32 }

end

end Bk7251.Ota
