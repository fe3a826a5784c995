import Bk7251.Lib.Tlv
import Bk7251.Flash.BkFlash

/-!
# The network parameter table

`func/net_param_intf/net_param.c`: a TLV table in the `BK_PARTITION_NET_PARAM` partition. Saving an
item reads the whole table into memory, changes it there, erases and rewrites it.
-/
namespace Bk7251.NetParam

open Lib Flash

/-- `NET_INFO_ITEM`. -/
inductive NetInfoItem where
  | AUTO_CONNECT_ITEM
  | WIFI_MODE_ITEM
  | DHCP_MODE_ITEM
  | WIFI_MAC_ITEM
  | SSID_KEY_ITEM
  | IP_CONFIG_ITEM
  | RF_CFG_TSSI_ITEM
  | RF_CFG_DIST_ITEM
  | RF_CFG_MODE_ITEM
  | CHARGE_CONFIG_ITEM
  | RF_CFG_TSSI_B_ITEM
deriving DecidableEq

namespace NetInfoItem

def code : NetInfoItem → UInt32
  | AUTO_CONNECT_ITEM => 0x11111111
  | WIFI_MODE_ITEM => 0x22222222
  | DHCP_MODE_ITEM => 0x33333333
  | WIFI_MAC_ITEM => 0x44444444
  | SSID_KEY_ITEM => 0x55555555
  | IP_CONFIG_ITEM => 0x66666666
  | RF_CFG_TSSI_ITEM => 0x77777777
  | RF_CFG_DIST_ITEM => 0x88888888
  | RF_CFG_MODE_ITEM => 0x99999999
  | CHARGE_CONFIG_ITEM => 0xaaaaaaaa
  | RF_CFG_TSSI_B_ITEM => 0xbbbbbbbb

theorem code_inj {a b : NetInfoItem} (same : a.code = b.code) : a = b := by
  cases a <;> cases b <;> first | rfl | exact absurd same (by decide)

end NetInfoItem

def INFO_TLV_HEADER : UInt32 := 0x00564c54

/-- `info_item_len`: the size of the item's structure, head included. -/
def infoItemLen : NetInfoItem → Nat
  | .WIFI_MAC_ITEM => 16
  | .CHARGE_CONFIG_ITEM => 12
  | .SSID_KEY_ITEM => 104
  | .IP_CONFIG_ITEM => 56
  | _ => 12

/-- `INFO_ITEM_ST`. -/
structure InfoItemSt where
  type : UInt32
  len : UInt32

/-- The eight bytes of a head read from flash. -/
def readHead (cells : Mem UInt8) (addr : Nat) : InfoItemSt :=
  let buf := Mem.ofList (flashReadData cells addr 8)
  ⟨buf.load32 0, buf.load32 4⟩

def tblStart : Nat := (bkFlashGetInfo .NET_PARAM).partitionStartAddr

/-- `search_info_tbl`: the length of the table and its bytes, where there is one. -/
def searchInfoTbl (cells : Mem UInt8) : Option (Nat × List UInt8) :=
  let head := readHead cells tblStart
  if INFO_TLV_HEADER = head.type then
    let cfgLen := (head.len.toNat + 8) % 2 ^ 32
    some (cfgLen, flashReadData cells tblStart cfgLen)
  else none

/-- The `while (addr < end_addr)` of `search_info_item`, with the cursor it stops at. -/
def scan (cells : Mem UInt8) (type : UInt32) (endAddr : Nat) : (fuel addr : Nat) → Option Nat
  | 0, _ => none
  | fuel + 1, addr =>
    if addr < endAddr then
      let head := readHead cells addr
      if type ≠ head.type then
        scan cells type endAddr fuel ((addr + 8 + head.len.toNat) % 2 ^ 32)
      else some addr
    else some addr

/-- A 32-bit cursor that has taken this many steps has been somewhere twice and never stops. -/
def scanFuel : Nat := 2 ^ 32

/-- `search_info_item`: the item's address, or 0; no result where the search does not end. -/
def searchInfoItem (cells : Mem UInt8) (type : UInt32) (startAddr : Nat) : Option Nat :=
  let head := readHead cells startAddr
  let addr := (startAddr + 8) % 2 ^ 32
  let endAddr := (addr + head.len.toNat) % 2 ^ 32
  (scan cells type endAddr scanFuel addr).map fun addr => if endAddr ≤ addr then 0 else addr

/-- The return value of `get_info_item` and what it stores through its three pointers. -/
structure Got where
  ret : Nat
  out0 : List UInt8
  out1 : List UInt8
  out2 : List UInt8
deriving DecidableEq

def Got.nothing : Got := ⟨0, [], [], []⟩

/-- The `switch` of `get_info_item`; the flags tell which pointers are not `NULL`. -/
def readItem (cells : Mem UInt8) (item : NetInfoItem) (ptr0 ptr1 ptr2 : Bool) (len addr : Nat) : Got :=
  match item with
  | .SSID_KEY_ITEM =>
    if ptr0 ∧ ptr1 then
      ⟨1, flashReadData cells addr 32, flashReadData cells (addr + 32) 64, []⟩
    else .nothing
  | .IP_CONFIG_ITEM =>
    if ptr0 ∧ ptr1 ∧ ptr2 then
      ⟨1, flashReadData cells addr 16, flashReadData cells (addr + 16) 16,
        flashReadData cells (addr + 32) 16⟩
    else .nothing
  | _ => if ptr0 then ⟨1, flashReadData cells addr len, [], []⟩ else .nothing

def getInfoItem (cells : Mem UInt8) (item : NetInfoItem) (ptr0 ptr1 ptr2 : Bool) : Option Got :=
  match searchInfoTbl cells with
  | none => some .nothing
  | some _ =>
    (searchInfoItem cells item.code tblStart).map fun addr =>
      if addr = 0 then .nothing
      else readItem cells item ptr0 ptr1 ptr2 (readHead cells addr).len.toNat (addr + 8)

/-- What `save_info_item` takes from each of its pointers. -/
structure Fields where
  f0 : List UInt8
  f1 : List UInt8
  f2 : List UInt8

/-- The copies of the `switch` of `save_info_item`. -/
def takeFields (item : NetInfoItem) (ptr0 ptr1 ptr2 : Mem UInt8) : Fields :=
  match item with
  | .WIFI_MAC_ITEM => ⟨ptr0.read 0 6, [], []⟩
  | .SSID_KEY_ITEM => ⟨ptr0.read 0 32, ptr1.read 0 64, []⟩
  | .IP_CONFIG_ITEM => ⟨ptr0.read 0 16, ptr1.read 0 16, ptr2.read 0 16⟩
  | _ => ⟨ptr0.read 0 4, [], []⟩

/-- The fields lie one behind the other in the item. -/
def Fields.bytes (f : Fields) : List UInt8 := f.f0 ++ f.f1 ++ f.f2

/-- Where the item goes, how long the table gets, and the length in its head. -/
structure Layout where
  addrOffset : Nat
  cfgTblLen : Nat
  headLen : Nat
  /-- The table read back into the zeroed buffer. -/
  tbl : List UInt8

def layout (cells : Mem UInt8) (item : NetInfoItem) : Option Layout :=
  match searchInfoTbl cells with
  | none => some ⟨8, 8 + infoItemLen item, infoItemLen item, []⟩
  | some (len, tbl) =>
    (searchInfoItem cells item.code tblStart).map fun addr =>
      let addrOffset := if addr = 0 then len else addr - tblStart
      let cfgTblLen := if addr = 0 then (len + infoItemLen item) % 2 ^ 32 else len
      ⟨addrOffset, cfgTblLen, cfgTblLen - 8, tbl⟩

/-- The table rebuilt in memory: the payload, the item's head, then the table's head. -/
def rebuild (item : NetInfoItem) (fields : Fields) (l : Layout) : List UInt8 :=
  let wrbuf := l.tbl ++ List.replicate (l.cfgTblLen - l.tbl.length) 0
  let wrbuf := splice wrbuf (l.addrOffset + 8) fields.bytes
  let wrbuf := splice wrbuf l.addrOffset (Tlv.head item.code (infoItemLen item - 8))
  splice wrbuf 0 (Tlv.head INFO_TLV_HEADER l.headLen)

/-- `save_info_item`; `malloc` tells whether `os_zalloc` finds memory. There is no result where the
search does not end or the item would be written behind the buffer. -/
def saveInfoItem (chip : Chip) (malloc : Bool) (cells : Mem UInt8) (item : NetInfoItem)
    (ptr0 ptr1 ptr2 : Mem UInt8) : Option (Mem UInt8 × Nat) :=
  (layout cells item).bind fun l =>
    if ¬ malloc then some (cells, 0)
    else if l.cfgTblLen < l.addrOffset + infoItemLen item then none
    else
      let cells := bkFlashErase chip .NET_PARAM cells 0 l.cfgTblLen
      some (bkFlashWrite chip .NET_PARAM cells 0 (rebuild item (takeFields item ptr0 ptr1 ptr2) l), 1)

end Bk7251.NetParam
