import Bk7251.Lib.ExchangeSort
import Bk7251.Lib.Heap
import Bk7251.Lib.Mem
import Mathlib.Data.Int.Order.Basic

/-!
# Scan results

The table that collects the access points of a scan (`func/rwnx_intf/rw_msg_rx.c`) and the pointer to
it that the supplicant side keeps (`func/hostapd_intf/hostapd_intf.c`). Items and shells live in
heaps; a function that touches a released object, releases one again or writes behind the block of one
has no result.
-/
namespace Bk7251.Scan

open Lib

def MAX_BSS_LIST : Nat := 32
def MAC_SSID_LEN : Nat := 32
def MAC_BEACON_VARIABLE_PART_OFT : UInt32 := 36
def MAC_ELTID_SSID : UInt8 := 0
def MAC_ELTID_DS : UInt8 := 3
def MAC_SSID_LEN_OFT : Nat := 1
def MAC_SSID_SSID_OFT : Nat := 2
def MAC_DS_CHANNEL_OFT : Nat := 2

/-- `SCAN_RST_ITEM_T` with the elements that follow it. -/
structure StaScanRes where
  bssid : List UInt8
  ssid : List UInt8
  onChannel : Bool
  channel : UInt8
  beaconInt : UInt16
  caps : UInt16
  level : Int
  security : Int
  tsf : List UInt8
  ieLen : UInt32
  ie : List UInt8

/-- `sizeof(struct sta_scan_res)`. -/
def sizeofStaScanRes : UInt32 := 64

/-- `struct wpa_scan_res`, the fields that `wpa_get_scan_rst` fills. -/
structure WpaScanRes where
  bssid : List UInt8
  level : Int
  freq : Nat
  beaconInt : UInt16
  caps : UInt16
  tsf : List UInt8
  ieLen : UInt32
  ie : List UInt8

/-- The part of `g_country_code.cfg` that decides which channels count. -/
structure WifiCountry where
  schan : UInt8
  nchan : UInt8
  manual : Bool

/-- A `SCANU_RESULT_IND` message and the beacon or probe response it carries. `variable` is the memory
from the frame's elements on, `country` the configuration in force when the message is handled. -/
structure ScanInd where
  length : UInt16
  centerFreq : Nat
  rssi : Int
  bssid : List UInt8
  timestamp : List UInt8
  beaconInt : UInt16
  capabInfo : UInt16
  «variable» : Mem UInt8
  country : WifiCountry

/-! ### Channels -/

/-- The `center_freq` column of `rw_2ghz_channels`. -/
def rw2ghzChannels : List Nat :=
  [2412, 2417, 2422, 2427, 2432, 2437, 2442, 2447, 2452, 2457, 2462, 2467, 2472, 2484]

/-- The channel of a center frequency, 0 if it is none of the table's. -/
def rwIeee80211GetChanId (freq : Nat) : UInt8 :=
  match rw2ghzChannels.findIdx? (· == freq) with
  | some i => UInt8.ofNat (i + 1)
  | none => 0

/-- The center frequency of a channel; without one the assertion fails. -/
def rwIeee80211GetCentreFrequency (chanId : UInt8) : Option Nat :=
  if 1 ≤ chanId.toNat then rw2ghzChannels[chanId.toNat - 1]? else none

def rwIeee80211IsScanRstInCountrycode (country : WifiCountry) (freq : UInt8) : Bool :=
  if !country.manual then true
  else
    let startChan := country.schan.toUInt32
    let endChan := startChan + country.nchan.toUInt32 - 1
    !(freq.toUInt32 < startChan || endChan < freq.toUInt32)

/-! ### The state of both modules -/

/-- A `SCAN_RST_UPLOAD_T` is the array of its first `scanu_num` item pointers. -/
structure State where
  items : Heap StaScanRes
  shells : Heap (List Nat)
  scanCfm : Bool
  scanRstSetPtr : Option Nat
  sScanResultUploadPtr : Option Nat
  /-- The core thread stays in a failed assertion. -/
  coreHung : Bool

def State.boot : State := ⟨.empty, .empty, false, none, none, false⟩

/-- The library functions whose code is not part of the scan: `mac_ie_find` finds an element in the
memory from a frame's elements on and returns its offset. -/
structure Mac where
  macIeFind : Mem UInt8 → UInt16 → UInt8 → Option Nat
  getSecurityTypeFromIe : Mem UInt8 → Nat → UInt16 → Int

namespace State

def wpaBufferScanResults (s : State) : State := { s with sScanResultUploadPtr := s.scanRstSetPtr }

def wpaClearScanResults (s : State) : State := { s with sScanResultUploadPtr := none }

/-- `sr_free_all`: every item, then the emptied shell. -/
def srFreeAll (s : State) (scanRst : Nat) : Option State := do
  let res ← s.shells.get? scanRst
  let items ← s.items.freeAll res
  let shells ← s.shells.write scanRst []
  let shells ← shells.free scanRst
  return { s with items, shells }

def srReleaseScanResults (s : State) (ptr : Option Nat) : Option State := do
  let s ← match ptr with
    | some p => s.srFreeAll p
    | none => some s
  return wpaClearScanResults { s with scanRstSetPtr := none }

end State

/-- `sort_scan_result`, on the item pointers of the table. -/
def sortScanResult (items : Heap StaScanRes) (res : List Nat) : Option (List Nat) :=
  if res.length = 0 then some res
  else ExchangeSort.sortM (fun p => (items.get? p).map (·.level)) res

def State.mhdrScanuStartCfm (s : State) (apList : Option Nat) : Option State :=
  match apList with
  | none => some s
  | some p => do
    let res ← s.shells.get? p
    let sorted ← sortScanResult s.items res
    let shells ← s.shells.write p sorted
    return wpaBufferScanResults { s with shells }

/-! ### One scan result -/

section

variable (mac : Mac)

namespace ScanInd

/-- `vies_len`, which wraps for a frame that ends before its elements. -/
def viesLen (ind : ScanInd) : UInt32 := ind.length.toUInt32 - MAC_BEACON_VARIABLE_PART_OFT

/-- The item and the elements copied behind it lie in the block that `sr_malloc_result_item` asks for. -/
def itemFits (ind : ScanInd) : Bool :=
  sizeofStaScanRes.toNat + ind.viesLen.toNat ≤ (ind.viesLen + sizeofStaScanRes).toNat

/-- `chann` and `on_channel`; none if the country code drops the frame. -/
def scanChannel (ind : ScanInd) : Option (UInt8 × Bool) :=
  match mac.macIeFind ind.variable ind.viesLen.toUInt16 MAC_ELTID_DS with
  | some elmt =>
    let chann := ind.variable (elmt + MAC_DS_CHANNEL_OFT)
    if !rwIeee80211IsScanRstInCountrycode ind.country chann then none
    else some (chann, chann == rwIeee80211GetChanId ind.centerFreq)
  | none => some (rwIeee80211GetChanId ind.centerFreq, false)

/-- The bytes copied into the cleared `ssid` of the item. -/
def ssid (ind : ScanInd) : List UInt8 :=
  match mac.macIeFind ind.variable ind.viesLen.toUInt16 MAC_ELTID_SSID with
  | some elmt =>
    let ssidLen := min (ind.variable (elmt + MAC_SSID_LEN_OFT)).toNat MAC_SSID_LEN
    ind.variable.read (elmt + MAC_SSID_SSID_OFT) ssidLen ++ List.replicate (MAC_SSID_LEN - ssidLen) 0
  | none => List.replicate MAC_SSID_LEN 0

def item (ind : ScanInd) (chann : UInt8) (onChannel : Bool) : StaScanRes where
  bssid := ind.bssid
  ssid := ind.ssid mac
  onChannel := onChannel
  channel := chann
  beaconInt := ind.beaconInt
  caps := ind.capabInfo
  level := ind.rssi
  security := mac.getSecurityTypeFromIe ind.variable ind.viesLen.toNat ind.capabInfo
  tsf := ind.timestamp
  ieLen := ind.viesLen
  ie := ind.variable.read 0 ind.viesLen.toNat

end ScanInd

inductive Duplicate where
  /-- The entry that is there stays. -/
  | keep
  /-- A new item goes to `replace_index`, or to the end. -/
  | insert (replaceIndex : Option Nat)

/-- The loop over the entries from `i` on that looks for the frame's BSSID. -/
def checkDuplicate (items : Heap StaScanRes) (bssid : List UInt8) (onChannel : Bool) :
    List Nat → Nat → Option Nat → Option Duplicate
  | [], _, replaceIndex => some (.insert replaceIndex)
  | p :: ps, i, replaceIndex => do
    let entry ← items.get? p
    if bssid = entry.bssid then
      -- the last entry of the BSSID is the one that gives way
      if entry.onChannel = true ∨ onChannel = false then return .keep
      else checkDuplicate items bssid onChannel ps (i + 1) (some i)
    else checkDuplicate items bssid onChannel ps (i + 1) replaceIndex

/-- `itemAllocated` tells whether `sr_malloc_result_item` has memory. -/
def State.mhdrScanuResultInd (s : State) (scanRst : Nat) (ind : ScanInd) (itemAllocated : Bool) :
    Option State := do
  let res ← s.shells.get? scanRst
  -- a full table drops the frame before its BSSID is looked at
  if MAX_BSS_LIST ≤ res.length then return s
  match ind.scanChannel mac with
  | none => return s
  | some (chann, onChannel) =>
    match ← checkDuplicate s.items ind.bssid onChannel res 0 none with
    | .keep => return s
    | .insert replaceIndex =>
      if !itemAllocated then return s
      if !ind.itemFits then none
      let item := s.items.next
      let items := s.items.alloc (ind.item mac chann onChannel)
      match replaceIndex with
      | some i =>
        let old ← res[i]?
        let items ← items.free old
        let shells ← s.shells.write scanRst (res.set i item)
        return { s with items, shells }
      | none =>
        let shells ← s.shells.write scanRst (res ++ [item])
        return { s with items, shells }

/-! ### Messages and requests -/

/-- The `SCANU_RESULT_IND` case of `rwnx_handle_recv_msg`. -/
def State.scanuResultInd (s : State) (ind : ScanInd) (shellAllocated itemAllocated : Bool) :
    Option State := do
  let s ← if s.scanCfm && s.scanRstSetPtr.isSome then do
      let s ← s.srReleaseScanResults s.scanRstSetPtr
      pure { s with scanRstSetPtr := none, scanCfm := false }
    else pure s
  match s.scanRstSetPtr with
  | some p => s.mhdrScanuResultInd mac p ind itemAllocated
  | none =>
    -- the assertion on the new shell
    if !shellAllocated then return { s with coreHung := true }
    let p := s.shells.next
    let s := { s with shells := s.shells.alloc [], scanRstSetPtr := some p }
    s.mhdrScanuResultInd mac p ind itemAllocated

end

namespace State

/-- The `SCANU_START_CFM` case. -/
def scanuStartCfm (s : State) : Option State :=
  { s with scanCfm := true }.mhdrScanuStartCfm s.scanRstSetPtr

/-- The `SM_CONNECT_IND` case. -/
def smConnectInd (s : State) : Option State :=
  match s.scanRstSetPtr with
  | some p => do
    let s ← s.srReleaseScanResults (some p)
    return { s with scanRstSetPtr := none }
  | none => some s

end State

inductive GetScanRst where
  /-- The return value, and the results copied before an allocation failed. -/
  | done (ret : Int) (results : List WpaScanRes)
  /-- The assertion in `rw_ieee80211_get_centre_frequency`. -/
  | assertFailed

/-- The loop of `wpa_get_scan_rst`; `room` results can be allocated. -/
def copyScanRst (items : Heap StaScanRes) : List Nat → Nat → List WpaScanRes → Option GetScanRst
  | [], _, results => some (.done 0 results)
  | p :: ps, room, results => do
    let entry ← items.get? p
    match room with
    | 0 => return .done (-1) results
    | room + 1 =>
      match rwIeee80211GetCentreFrequency entry.channel with
      | none => return .assertFailed
      | some freq =>
        copyScanRst items ps room (results ++
          [⟨entry.bssid, entry.level, freq, entry.beaconInt, entry.caps, entry.tsf, entry.ieLen, entry.ie⟩])

namespace State

def wpaGetScanRst (s : State) (room : Nat) : Option GetScanRst :=
  match s.sScanResultUploadPtr with
  | none => some (.done (-1) [])
  | some p => do
    let res ← s.shells.get? p
    copyScanRst s.items res room []

/-- What `wpa_send_assoc_req` does with the results, on its way out. -/
def wpaSendAssocReq (s : State) : Option State :=
  match s.sScanResultUploadPtr with
  | some p => do
    let s ← s.srReleaseScanResults (some p)
    return { s with sScanResultUploadPtr := none }
  | none => some s

def wpaHostapdReleaseScanRst (s : State) : Option State :=
  match s.sScanResultUploadPtr with
  | some p => do
    let s ← s.srReleaseScanResults (some p)
    return { s with sScanResultUploadPtr := none }
  | none => s.srReleaseScanResults s.scanRstSetPtr

/-- `bk_wlan_get_scan_ap_result_numbers`. -/
def bkWlanGetScanApResultNumbers (s : State) : Option Nat :=
  match s.scanRstSetPtr with
  | some p => (s.shells.get? p).map (·.length)
  | none => some 0

/-- `bk_wlan_get_scan_ap_result`: the copies of the first items, and the results are released. -/
def bkWlanGetScanApResult (s : State) (getScanuNum : Nat) : Option (State × List StaScanRes) := do
  let table ← match s.scanRstSetPtr with
    | some p => do
      let res ← s.shells.get? p
      (res.take getScanuNum).mapM s.items.get?
    | none => some []
  let s ← s.srReleaseScanResults s.scanRstSetPtr
  return (s, table)

end State

/-- A message for the core thread, or a call of another one. -/
inductive Event where
  | resultInd (ind : ScanInd) (shellAllocated itemAllocated : Bool)
  | startCfm
  | connectInd
  | getScanRst (room : Nat)
  | assocReq
  | releaseScanRst
  | apResultNumbers
  | apResult (getScanuNum : Nat)

/-- A core thread that hangs handles no message any more. -/
def State.core (s : State) (handled : Option State) : Option State :=
  if s.coreHung then some s else handled

def State.step (mac : Mac) (s : State) : Event → Option State
  | .resultInd ind shellAllocated itemAllocated =>
    s.core (s.scanuResultInd mac ind shellAllocated itemAllocated)
  | .startCfm => s.core s.scanuStartCfm
  | .connectInd => s.core s.smConnectInd
  | .getScanRst room => (s.wpaGetScanRst room).map fun _ => s
  | .assocReq => s.wpaSendAssocReq
  | .releaseScanRst => s.wpaHostapdReleaseScanRst
  | .apResultNumbers => s.bkWlanGetScanApResultNumbers.map fun _ => s
  | .apResult getScanuNum => (s.bkWlanGetScanApResult getScanuNum).map Prod.fst

def State.run (mac : Mac) (s : State) (es : List Event) : Option State := es.foldlM (State.step mac) s

end Bk7251.Scan
