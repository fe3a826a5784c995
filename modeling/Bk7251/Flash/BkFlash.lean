import Bk7251.Flash.FlashDriver

/-!
# Flash partitions

`bk7231_partitions` and the partition calls of `func/user_driver/BkDriverFlash.c`.
-/
namespace Bk7251.Flash

open Lib

inductive BkPartition where
  | BOOTLOADER
  | APPLICATION
  | RF_FIRMWARE
  | NET_PARAM
  | USR_CONFIG

structure BkLogicPartition where
  partitionStartAddr : Nat
  partitionLength : Nat

/-- `bk_flash_get_info`; the table has no entry of its own for the user configuration. -/
def bkFlashGetInfo : BkPartition → BkLogicPartition
  | .BOOTLOADER => ⟨0x00000000, 0x0F000⟩
  | .APPLICATION => ⟨0x11000, 0x143000⟩
  | .RF_FIRMWARE => ⟨0x1e0000, 0x1000⟩
  | .NET_PARAM => ⟨0x1e1000, 0x1000⟩
  | .USR_CONFIG => ⟨0, 0⟩

/-- `bk_flash_erase`: every sector from the first to the last byte of the range. -/
def bkFlashErase (chip : Chip) (inPartition : BkPartition) (cells : Mem UInt8)
    (offSet size : Nat) : Mem UInt8 :=
  let startSector := offSet / SECTOR
  let endSector := (offSet + size + (2 ^ 32 - 1)) % 2 ^ 32 / SECTOR
  (List.range' startSector (endSector + 1 - startSector)).foldl (fun cells i =>
    flashEraseSector chip cells ((bkFlashGetInfo inPartition).partitionStartAddr + i * SECTOR)) cells

def bkFlashWrite (chip : Chip) (inPartition : BkPartition) (cells : Mem UInt8) (offSet : Nat)
    (inBuffer : List UInt8) : Mem UInt8 :=
  flashWriteData chip cells (Mem.ofList inBuffer)
    (((bkFlashGetInfo inPartition).partitionStartAddr + offSet) % 2 ^ 32) inBuffer.length

def bkFlashRead (inPartition : BkPartition) (cells : Mem UInt8) (offSet inBufferLength : Nat) :
    List UInt8 :=
  flashReadData cells (((bkFlashGetInfo inPartition).partitionStartAddr + offSet) % 2 ^ 32) inBufferLength

end Bk7251.Flash
