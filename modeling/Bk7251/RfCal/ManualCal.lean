import Bk7251.NetParam.NetParam

/-!
# The calibration table

`func/bk7011_cal/manual_cal_bk7231U.c`: a TLV table in the `BK_PARTITION_RF_FIRMWARE` partition, with the
items `TXID` and `TXPWR_TAB_TAB`, which hold items of their own. Each item is read into a variable of fixed
size, so a call has no result where the item is longer, where a search does not end, or where a buffer is
written behind its end.
-/
namespace Bk7251.RfCal

open Lib Flash
open NetParam (readHead scan scanFuel)

def BK_FLASH_OPT_TLV_HEADER : UInt32 := 0x00564c54
def BK_FLASH_SECTOR_SIZE : Nat := 4 * 1024
def BK_FLASH_WRITE_CHECK_TIMES : Nat := 3

def TXID : UInt32 := 0x11111100
def TXPWR_TAB_TAB : UInt32 := 0x22222200

def TXID_ID : UInt32 := TXID + 1
def TXID_MAC : UInt32 := TXID + 2
def TXID_THERMAL : UInt32 := TXID + 3
def TXID_CHANNEL : UInt32 := TXID + 4
def TXID_XTAL : UInt32 := TXID + 5
def TXID_ADC : UInt32 := TXID + 6
def TXID_LPFCAP : UInt32 := TXID + 7

def TXPWR_ENABLE_ID : UInt32 := TXPWR_TAB_TAB + 1
def TXPWR_TAB_B_ID : UInt32 := TXPWR_TAB_TAB + 2
def TXPWR_TAB_G_ID : UInt32 := TXPWR_TAB_TAB + 3
def TXPWR_TAB_N_ID : UInt32 := TXPWR_TAB_TAB + 4
def TXPWR_TAB_DIF_GN20_ID : UInt32 := TXPWR_TAB_TAB + 5
def TXPWR_TAB_DIF_GN40_ID : UInt32 := TXPWR_TAB_TAB + 6
def TXPWR_TAB_BLE_ID : UInt32 := TXPWR_TAB_TAB + 7
def TXPWR_TAB_CALI_STATUTS : UInt32 := TXPWR_TAB_TAB + 8

def TXPWR_NONE_RD : UInt32 := 0
def TXPWR_TAB_B_RD : UInt32 := 1
def TXPWR_TAB_G_RD : UInt32 := 2
def TXPWR_TAB_N_RD : UInt32 := 4
def TXPWR_TAB_BLE : UInt32 := 8

def DEFAULT_TXID_ID : UInt32 := 12345678
def DEFAULT_TXID_CHANNEL : UInt32 := 22222222
def CALI_STA_NOFOUND : UInt32 := 0

/-- The global tables `gtxpwr_tab_b`, `_g`, `_n`, `_n_40` and `_ble`, and the two differences. -/
structure Tabs where
  b : Vector UInt8 14
  g : Vector UInt8 14
  n : Vector UInt8 14
  n40 : Vector UInt8 14
  ble : Vector UInt8 40
  difGN20 : UInt32
  difGN40 : UInt32

/-- The globals that `manual_cal_save_chipinfo_tab_to_flash` saves. -/
structure ChipInfo where
  mac : Vector UInt8 6
  temp : UInt32
  xtal : UInt32
  saradc : UInt32
  lpfI : UInt32
  lpfQ : UInt32

/-- What a call finds in a fresh heap block and in its uninitialised locals. -/
structure Uninit where
  heap : Mem UInt8
  tab : Vector UInt8 14
  bleTab : Vector UInt8 40
  word : UInt32

/-! ### Searching -/

def rfStart : Nat := (bkFlashGetInfo .RF_FIRMWARE).partitionStartAddr

/-- The length of the table with its head, where there is one. -/
def manualCalSearchOptTab (cells : Mem UInt8) : Option Nat :=
  let head := readHead cells rfStart
  if BK_FLASH_OPT_TLV_HEADER = head.type then some ((head.len.toNat + 8) % 2 ^ 32) else none

/-- The address of an item in the one at `startAddr`, or 0. -/
def manualCalSearchTxpwrTab (cells : Mem UInt8) (type : UInt32) (startAddr : Nat) : Option Nat :=
  match manualCalSearchOptTab cells with
  | none => some 0
  | some _ =>
    let head := readHead cells startAddr
    let addr := (startAddr + 8) % 2 ^ 32
    let endAddr := (addr + head.len.toNat) % 2 ^ 32
    (scan cells type endAddr scanFuel addr).map fun addr => if endAddr ≤ addr then 0 else addr

/-- The first bytes of a variable are overwritten. -/
def fill {k : Nat} (old : Vector UInt8 k) (xs : List UInt8) : Vector UInt8 k :=
  Vector.ofFn fun i => xs.getD i old[i]

def ofWord (w : UInt32) : Vector UInt8 4 := ⟨(toLe32 w).toArray, rfl⟩

def toWord (v : Vector UInt8 4) : UInt32 := ofLe32 v[0] v[1] v[2] v[3]

/-- The item at `addr` is read into a variable of `k` bytes. -/
def readItem {k : Nat} (cells : Mem UInt8) (addr : Nat) (old : Vector UInt8 k) : Option (Vector UInt8 k) :=
  let len := (readHead cells addr).len.toNat
  if k < len then none else some (fill old (flashReadData cells (addr + 8) len))

/-- The same where the item is found; without it the variable stays. -/
def loadItem {k : Nat} (cells : Mem UInt8) (type : UInt32) (addrStart : Nat) (old : Vector UInt8 k) :
    Option (Vector UInt8 k) :=
  (manualCalSearchTxpwrTab cells type addrStart).bind fun addr =>
    if addr = 0 then some old else readItem cells addr old

def loadWord (cells : Mem UInt8) (type : UInt32) (addrStart : Nat) (old : UInt32) : Option UInt32 :=
  (loadItem cells type addrStart (ofWord old)).map toWord

/-! ### Writing -/

/-- From `write_again` to the check: the sector is read into the buffer where the new bytes do not begin
it, erased and written. -/
def writeAgain (chip : Chip) (heap cells : Mem UInt8) (addrOffset writeLen : Nat) (buf : List UInt8) :
    Mem UInt8 :=
  let readBuf := if addrOffset ≠ 0 then flashReadData cells rfStart writeLen else heap.read 0 writeLen
  let readBuf := splice readBuf addrOffset buf
  flashWriteData chip (flashEraseSector chip cells rfStart) (Mem.ofList readBuf) rfStart writeLen

def writeTries (chip : Chip) (heap : Mem UInt8) (addrOffset writeLen : Nat) (buf : List UInt8) :
    Nat → Mem UInt8 → Mem UInt8
  | 0, cells => cells
  | times + 1, cells =>
    let cells := writeAgain chip heap cells addrOffset writeLen buf
    -- Only the new bytes are compared.
    if flashReadData cells (rfStart + addrOffset) buf.length = buf then cells
    else writeTries chip heap addrOffset writeLen buf times cells

def manualCalUpdateFlashArea (chip : Chip) (heap cells : Mem UInt8) (addrOffset : Nat) (buf : List UInt8) :
    Mem UInt8 :=
  if BK_FLASH_SECTOR_SIZE < addrOffset then cells
  else if buf.length = 0 then cells
  else
    let writeLen :=
      -- What lies behind the new bytes is kept as far as the table reaches.
      match manualCalSearchOptTab cells with
      | some flashLen => if addrOffset + buf.length ≤ flashLen then flashLen else addrOffset + buf.length
      | none => addrOffset + buf.length
    writeTries chip heap addrOffset writeLen buf BK_FLASH_WRITE_CHECK_TIMES cells

/-! ### The calibration state in flash -/

def manualCalGetRfcaliStatusInflash (cells : Mem UInt8) (statusBak : UInt32) : Option (Option UInt32) :=
  match manualCalSearchOptTab cells with
  | none => some none
  | some _ =>
    (manualCalSearchTxpwrTab cells TXPWR_TAB_TAB rfStart).bind fun addrStart =>
      if addrStart = 0 then some none
      else
        (manualCalSearchTxpwrTab cells TXPWR_TAB_CALI_STATUTS addrStart).bind fun addr =>
          if addr = 0 then some none
          else (readItem cells addr (ofWord statusBak)).map fun v => some (toWord v)

/-- `inRfcali` is what `manual_cal_is_in_rfcali_mode` says. -/
def manualCalGRfcaliStatus (cells : Mem UInt8) (inRfcali : Bool) (statusBak : UInt32) : Option UInt32 :=
  (manualCalGetRfcaliStatusInflash cells statusBak).map fun
    | none => CALI_STA_NOFOUND
    | some status => if inRfcali then CALI_STA_NOFOUND else status

/-! ### Saving the power tables -/

def manualCalTxpwrTabIsFitted : UInt32 :=
  TXPWR_TAB_B_RD ||| TXPWR_TAB_G_RD ||| TXPWR_TAB_N_RD ||| TXPWR_TAB_BLE

/-- The sizes of the structures that make up the item. -/
def txpwrLen : Nat := 8 + 12 + 3 * 22 + 2 * 12 + 48 + 12

/-- A tag takes its table from memory where that is ready, else from the flash where that was; `stale` is
what the tag held before. -/
def tabOf {k : Nat} (cells : Mem UInt8) (addrStart : Nat) (isReady isReadyFlash bit id : UInt32)
    (current stale : Vector UInt8 k) : Option (Vector UInt8 k) :=
  if isReady &&& bit ≠ 0 then some current
  else if isReadyFlash &&& bit ≠ 0 then loadItem cells id addrStart stale
  else some stale

/-- The items in `TXPWR_TAB_TAB`. -/
def txpwrEntries (isReady : UInt32) (b g n40 : Vector UInt8 14) (ble : Vector UInt8 40)
    (difGN20 difGN40 status : UInt32) : List Tlv.Entry :=
  [⟨TXPWR_ENABLE_ID, toLe32 isReady⟩, ⟨TXPWR_TAB_B_ID, b.toList⟩, ⟨TXPWR_TAB_G_ID, g.toList⟩,
    ⟨TXPWR_TAB_N_ID, n40.toList⟩, ⟨TXPWR_TAB_DIF_GN20_ID, toLe32 difGN20⟩,
    ⟨TXPWR_TAB_DIF_GN40_ID, toLe32 difGN40⟩, ⟨TXPWR_TAB_BLE_ID, ble.toList⟩,
    ⟨TXPWR_TAB_CALI_STATUTS, toLe32 status⟩]

/-- The tags one behind the other, from `TXPWR_TAB_TAB` to `TXPWR_TAB_CALI_STATUTS`. -/
def txpwrTag (u : Uninit) (inRfcali : Bool) (cells : Mem UInt8) (addrStart : Nat) (isReady : UInt32)
    (tabs : Tabs) : Option (List UInt8) := do
  let isReadyFlash ← loadWord cells TXPWR_ENABLE_ID addrStart TXPWR_NONE_RD
  let b ← tabOf cells addrStart isReady isReadyFlash TXPWR_TAB_B_RD TXPWR_TAB_B_ID tabs.b u.tab
  -- A tag that gets nothing keeps what the one before it left in the same variable.
  let g ← tabOf cells addrStart isReady isReadyFlash TXPWR_TAB_G_RD TXPWR_TAB_G_ID tabs.g b
  let n40 ← tabOf cells addrStart isReady isReadyFlash TXPWR_TAB_N_RD TXPWR_TAB_N_ID tabs.n40 g
  let ble ← tabOf cells addrStart isReady isReadyFlash TXPWR_TAB_BLE TXPWR_TAB_BLE_ID tabs.ble u.bleTab
  let status ← manualCalGRfcaliStatus cells inRfcali u.word
  return Tlv.head TXPWR_TAB_TAB (txpwrLen - 8) ++
    Tlv.encode (txpwrEntries isReady b g n40 ble tabs.difGN20 tabs.difGN40 status)

/-- A copy of the table with the length of a longer one in its head. -/
def copyLonger (cells : Mem UInt8) (flashLen len : Nat) : List UInt8 :=
  splice (flashReadData cells rfStart flashLen) 0 (Tlv.head BK_FLASH_OPT_TLV_HEADER (len - 8))

/-- Without the item it goes behind the table; an item that is there is written over in place. -/
def manualCalSaveTxpwrTabToFlash (chip : Chip) (u : Uninit) (inRfcali : Bool) (cells : Mem UInt8)
    (tabs : Tabs) : Option (Mem UInt8 × Nat) :=
  let isReady := manualCalTxpwrTabIsFitted
  if isReady = TXPWR_NONE_RD then some (cells, 0)
  else
    match manualCalSearchOptTab cells with
    | none => some (cells, 0)
    | some flashLen =>
      (manualCalSearchTxpwrTab cells TXPWR_TAB_TAB rfStart).bind fun found =>
        let addrStart := if found = 0 then rfStart else found
        (txpwrTag u inRfcali cells addrStart isReady tabs).map fun tag =>
          let front := if found = 0 then copyLonger cells flashLen (flashLen + txpwrLen) else []
          (manualCalUpdateFlashArea chip u.heap cells (addrStart - rfStart) (front ++ tag), 1)

/-! ### Saving the chip's information -/

def chipinfoLen : Nat := 8 + 12 + 14 + 12 + 12 + 12 + 12 + 16

def chipinfoEntries (info : ChipInfo) : List Tlv.Entry :=
  [⟨TXID_ID, toLe32 DEFAULT_TXID_ID⟩, ⟨TXID_MAC, info.mac.toList⟩, ⟨TXID_THERMAL, toLe32 info.temp⟩,
    ⟨TXID_CHANNEL, toLe32 DEFAULT_TXID_CHANNEL⟩, ⟨TXID_XTAL, toLe32 info.xtal⟩,
    ⟨TXID_ADC, toLe32 info.saradc⟩, ⟨TXID_LPFCAP, toLe32 info.lpfI ++ toLe32 info.lpfQ⟩]

def chipinfoTag (info : ChipInfo) : List UInt8 :=
  Tlv.head TXID (chipinfoLen - 8) ++ Tlv.encode (chipinfoEntries info)

/-- The buffer and where the tag goes into it: behind the table; where the table is there with a `TXID`, to
its front; and without a table to the front of a new one. -/
def chipinfoBuf (u : Uninit) (cells : Mem UInt8) : Option (List UInt8 × Nat) :=
  match manualCalSearchOptTab cells with
  | none => some (Tlv.head BK_FLASH_OPT_TLV_HEADER chipinfoLen ++ u.heap.read 8 chipinfoLen, 8)
  | some flashLen =>
    (manualCalSearchTxpwrTab cells TXID rfStart).map fun found =>
      if found = 0 then
        (copyLonger cells flashLen (flashLen + chipinfoLen) ++ u.heap.read flashLen chipinfoLen, flashLen)
      else (flashReadData cells rfStart flashLen, 8)

def manualCalSaveChipinfoTabToFlash (chip : Chip) (u : Uninit) (cells : Mem UInt8) (info : ChipInfo) :
    Option (Mem UInt8 × Nat) :=
  (chipinfoBuf u cells).bind fun buf =>
    -- The table may be too short for the item.
    if buf.1.length < buf.2 + chipinfoLen then none
    else
      let written := splice buf.1 buf.2 (chipinfoTag info)
      some (manualCalUpdateFlashArea chip u.heap cells 0 written, 1)

/-- The bytes after the head of `TXID_MAC` are written over, whatever its length. -/
def manualCalWriteMacaddrToFlash (chip : Chip) (u : Uninit) (cells : Mem UInt8) (mac : Vector UInt8 6) :
    Option (Mem UInt8 × Nat) :=
  match manualCalSearchOptTab cells with
  | none => some (cells, 0)
  | some _ =>
    (manualCalSearchTxpwrTab cells TXID rfStart).bind fun addrStart =>
      if addrStart = 0 then some (cells, 0)
      else
        (manualCalSearchTxpwrTab cells TXID_MAC addrStart).map fun addr =>
          if addr = 0 then (cells, 0)
          else (manualCalUpdateFlashArea chip u.heap cells (addr + 8 - rfStart) mac.toList, 1)

/-! ### Loading the power tables -/

/-- `manual_cal_adjust_fitting` with a 16-bit distance. -/
def manualCalAdjustFitting (value : UInt8) (dist : UInt16) : UInt8 :=
  let gain := (value &&& 0x1f).toUInt16
  let gain := if dist < gain then gain - dist else 0
  (value &&& ~~~0x1f) ||| (gain.toUInt8 &&& 0x1f)

def manualCalFitTxpwrTabN20 (tabs : Tabs) (differ : UInt32) : Tabs :=
  { tabs with n := tabs.g.map (manualCalAdjustFitting · differ.toUInt16) }

/-- The tables that the flash has, one after the other. -/
def loadTabs (cells : Mem UInt8) (addrStart : Nat) (isReadyFlash : UInt32) (tabs : Tabs) : Option Tabs := do
  let b ←
    if isReadyFlash &&& TXPWR_TAB_B_RD ≠ 0 then loadItem cells TXPWR_TAB_B_ID addrStart tabs.b
    else some tabs.b
  let tabs := { tabs with b := b }
  let tabs ←
    if isReadyFlash &&& TXPWR_TAB_G_RD ≠ 0 then do
      let g ← loadItem cells TXPWR_TAB_G_ID addrStart tabs.g
      let difGN20 ← loadWord cells TXPWR_TAB_DIF_GN20_ID addrStart tabs.difGN20
      some (manualCalFitTxpwrTabN20 { tabs with g := g, difGN20 := difGN20 } difGN20)
    else some tabs
  let n40 ←
    if isReadyFlash &&& TXPWR_TAB_N_RD ≠ 0 then loadItem cells TXPWR_TAB_N_ID addrStart tabs.n40
    else some tabs.n40
  let difGN40 ← loadWord cells TXPWR_TAB_DIF_GN40_ID addrStart tabs.difGN40
  let ble ←
    if isReadyFlash &&& TXPWR_TAB_BLE ≠ 0 then loadItem cells TXPWR_TAB_BLE_ID addrStart tabs.ble
    else some tabs.ble
  some { tabs with n40 := n40, difGN40 := difGN40, ble := ble }

/-- `auto` is what `bk7011_is_rfcali_mode_auto` says, `status` what the variable held. -/
def manualCalLoadTxpwrTabFlash (auto : Bool) (status : UInt32) (cells : Mem UInt8) (tabs : Tabs) :
    Option (Tabs × UInt32) :=
  if auto then some (tabs, 0)
  else
    (manualCalSearchTxpwrTab cells TXPWR_TAB_TAB rfStart).bind fun addrStart =>
      if addrStart = 0 then some (tabs, TXPWR_NONE_RD)
      else
        (manualCalSearchTxpwrTab cells TXPWR_ENABLE_ID addrStart).bind fun addr =>
          if addr = 0 then some (tabs, TXPWR_NONE_RD)
          else
            (readItem cells addr (ofWord status)).bind fun v =>
              if toWord v = TXPWR_NONE_RD then some (tabs, TXPWR_NONE_RD)
              else (loadTabs cells addrStart (toWord v) tabs).map fun tabs => (tabs, toWord v)

end Bk7251.RfCal
