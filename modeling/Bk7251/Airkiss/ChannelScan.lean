import Mathlib.Data.List.Basic
import Bk7251.Lib.Bytes

/-!
# The channel scan of airkiss

`func/airkiss/airkiss_main.c`: the frames that the monitor lets through are counted on the current channel
and their senders kept in a table; a timer goes from channel to channel. `g_chans` and `g_macs` are objects
of their own, and each callback runs to its end.
-/
namespace Bk7251.AirkissMain

open Lib

def MAX_CHANNELS : Nat := 14
def MAX_MAC : Nat := 50
def AIRKISS_SWITCH_TIMER : UInt32 := 50
def MIN_SEL_CHAN_TIMER : UInt32 := 1000
def MAX_SEL_CHAN_TIMER : UInt32 := 5000
def AIRKISS_MIN_RX_BUF_SIZE : Int32 := 24
def MIN_VALID_DATACNT_INCHAN : UInt8 := 4
def MIN_VALID_BCNCNT_INCHAN : UInt8 := 1

def MAC_FCTRL_TYPE_MASK : UInt16 := 0x000C
def MAC_FCTRL_SUBT_MASK : UInt16 := 0x00F0
def MAC_FCTRL_TYPESUBTYPE_MASK : UInt16 := MAC_FCTRL_TYPE_MASK ||| MAC_FCTRL_SUBT_MASK
def MAC_FCTRL_MGT_T : UInt16 := 0x0000
def MAC_FCTRL_DATA_T : UInt16 := 0x0008
def MAC_FCTRL_PROBERSP : UInt16 := MAC_FCTRL_MGT_T ||| 0x0050
def MAC_FCTRL_BEACON : UInt16 := MAC_FCTRL_MGT_T ||| 0x0080
def MAC_SHORT_MAC_HDR_LEN : Nat := 24
def MAC_BEACON_VARIABLE_PART_OFT : Nat := MAC_SHORT_MAC_HDR_LEN + 12
def MAC_ELTID_DS : UInt8 := 3
def MAC_DS_CHANNEL_OFT : Nat := 2

/-! ### Frames -/

/-- What the monitor hands over: the memory from the frame on, and its length. -/
structure Frame where
  data : Mem UInt8
  len : Int32

def Frame.fctl (f : Frame) : UInt16 := f.data.load16 0

/-- The branches of `airkiss_count_usefull_packet`. -/
def Frame.isBeacon (f : Frame) : Bool :=
  MAC_FCTRL_BEACON == f.fctl &&& MAC_FCTRL_TYPESUBTYPE_MASK ||
    MAC_FCTRL_PROBERSP == f.fctl &&& MAC_FCTRL_TYPESUBTYPE_MASK

def Frame.isData (f : Frame) : Bool := MAC_FCTRL_DATA_T == f.fctl &&& MAC_FCTRL_TYPE_MASK

/-- A beacon or probe response that gets to the counters. -/
def Frame.beacon (f : Frame) : Bool := !decide (f.len < AIRKISS_MIN_RX_BUF_SIZE) && f.isBeacon

def Frame.dataFrame (f : Frame) : Bool := !decide (f.len < AIRKISS_MIN_RX_BUF_SIZE) && f.isData

/-- The loop of `calcrc_1byte`. -/
def crcBits : Nat → UInt8 → UInt8 → UInt8
  | 0, _, crc => crc
  | n + 1, abyte, crc =>
    crcBits n (abyte >>> 1) (if (crc ^^^ abyte) &&& 0x01 ≠ 0 then (crc ^^^ 0x18) >>> 1 ||| 0x80 else crc >>> 1)

def calcrc1byte (abyte : UInt8) : UInt8 := crcBits 8 abyte 0

def calcrcBytes (bytes : List UInt8) : UInt8 := bytes.foldl (fun crc b => calcrc1byte (crc ^^^ b)) 0

/-- The CRC of `addr2`, the sender. -/
def Frame.macCrc (f : Frame) : UInt8 := calcrcBytes (f.data.read 10 6)

/-! ### The state -/

structure ChanParam where
  bcnCnt : UInt8
  dataCnt : UInt8
  channel : UInt16

def ChanParam.zero : ChanParam := ⟨0, 0, 0⟩

inductive AirkissMode
  | scanAllChan | scanSelectedChan

/-- `airkiss_channel_t`; the indices stay within `MAX_CHANNELS`. -/
structure AirkissChannel where
  chan : List ChanParam
  curChanIdx : Nat
  allChanNums : Nat
  selectedChanNums : Nat
  mode : AirkissMode

/-- The fields of `mac_param_t` that are used. -/
structure MacParam where
  macCrc : UInt8
  channel : UInt16

/-- `airkiss_mac_t`; what is beyond `MAX_MAC` is the memory behind the array. -/
structure AirkissMac where
  mac : Nat → MacParam
  macCnt : UInt8

/-- An access to an entry of `g_macs.mac`, or a call of `mac_ie_find` for a frame of a size. -/
inductive Access
  | mac (i : Nat)
  | search (size : Int32) (buflen : UInt16)

/-- With the channel of the radio, the period of `ak_chan_timer`, and all accesses so far. -/
structure State where
  gChans : AirkissChannel
  gMacs : AirkissMac
  wlanChannel : UInt16
  period : UInt32
  accesses : List Access

/-- `&g_chans.chan[g_chans.cur_chan_idx]`. -/
def AirkissChannel.cur (g : AirkissChannel) : ChanParam := g.chan.getD g.curChanIdx .zero

/-- Change an entry of `g_chans.chan`. -/
def AirkissChannel.modify (g : AirkissChannel) (i : Nat) (change : ChanParam → ChanParam) : AirkissChannel :=
  { g with chan := g.chan.modify i change }

/-! ### `airkiss_count_usefull_packet` -/

/-- The loop over the table: where it ends, with what it has looked at. -/
def findMac (macs : AirkissMac) (macCrc : UInt8) : Nat → Nat → Nat × List Access
  | 0, i => (i, [])
  | n + 1, i =>
    if macCrc = (macs.mac i).macCrc then (i, [.mac i])
    else
      let (j, accesses) := findMac macs macCrc n (i + 1)
      (j, .mac i :: accesses)

/-- The sender of a beacon goes into the table; `channel` is 0 where the frame does not say it. -/
def countMac (macs : AirkissMac) (macCrc : UInt8) (channel : UInt16) : AirkissMac × List Access :=
  let (i, accesses) := findMac macs macCrc macs.macCnt.toNat 0
  let setChannel := fun entry : MacParam => if channel ≠ 0 then { entry with channel } else entry
  if i = macs.macCnt.toNat then
    ({ mac := Function.update macs.mac i (setChannel { macs.mac i with macCrc }), macCnt := macs.macCnt + 1 },
      accesses ++ [.mac i])
  else ({ macs with mac := Function.update macs.mac i (setChannel (macs.mac i)) }, accesses)

/-- `mac_ie_find`, whose code is not there: it finds an element in the memory from the elements on. -/
abbrev MacIeFind := Mem UInt8 → UInt16 → UInt8 → Option Nat

/-- `airkiss_count_usefull_packet`. -/
def airkissCountUsefullPacket (macIeFind : MacIeFind) (frame : Frame) (s : State) : State :=
  if frame.len = 0 then s
  else if frame.isBeacon then
    let gChans := s.gChans.modify s.gChans.curChanIdx fun c => { c with bcnCnt := c.bcnCnt + 1 }
    let varPart := frame.data.shift MAC_BEACON_VARIABLE_PART_OFT
    let varPartLen := frame.len.toUInt32 - UInt32.ofNat MAC_BEACON_VARIABLE_PART_OFT
    -- The parameter of `mac_ie_find` is 16 bits wide.
    let buflen := varPartLen.toUInt16
    let channel := match macIeFind varPart buflen MAC_ELTID_DS with
      | some elmt => (varPart (elmt + MAC_DS_CHANNEL_OFT)).toUInt16
      | none => 0
    let (gMacs, accesses) := countMac s.gMacs frame.macCrc channel
    { s with gChans, gMacs, accesses := s.accesses ++ .search frame.len buflen :: accesses }
  else if frame.isData then
    { s with gChans := s.gChans.modify s.gChans.curChanIdx fun c => { c with dataCnt := c.dataCnt + 1 } }
  else s

/-- `airkiss_monitor_callback`, without the hand-over to the ping-pong buffer. -/
def airkissMonitorCallback (macIeFind : MacIeFind) (frame : Frame) (s : State) : State :=
  if frame.len < AIRKISS_MIN_RX_BUF_SIZE then s else airkissCountUsefullPacket macIeFind frame s

/-! ### From channel to channel -/

/-- `airkiss_set_scan_all_channel`. -/
def airkissSetScanAllChannel (s : State) : State :=
  let allChanNums := MAX_CHANNELS - 1
  { s with
    gChans :=
      { chan := (List.range allChanNums).foldl
          (fun chan i => chan.modify i fun c => { c with channel := UInt16.ofNat (i + 1) })
          (List.replicate MAX_CHANNELS .zero)
        curChanIdx := 0
        allChanNums
        selectedChanNums := 0
        mode := .scanAllChan }
    gMacs :=
      { mac := fun i => if i < MAX_MAC then ⟨0, 0⟩ else s.gMacs.mac i
        macCnt := 0 } }

/-- `airkiss_calc_time_for_selected_channel`. -/
def airkissCalcTimeForSelectedChannel (validCnt : UInt8) : UInt32 :=
  let timerCnt := (validCnt / MIN_VALID_DATACNT_INCHAN).toUInt32 * MIN_SEL_CHAN_TIMER
  if timerCnt < MIN_SEL_CHAN_TIMER then MIN_SEL_CHAN_TIMER
  else if timerCnt > MAX_SEL_CHAN_TIMER then MAX_SEL_CHAN_TIMER
  else timerCnt

/-- `os_memmove` of `n` entries within `g_chans.chan`. -/
def memmove (chan : List ChanParam) (dst src n : Nat) : List ChanParam :=
  chan.take dst ++ (chan.drop src).take n ++ chan.drop (dst + n)

/-- The loop of `airkiss_add_channel` from `i` on, with the rounds that are left. -/
def addFrom (channel dataCnt : UInt8) : Nat → Nat → AirkissChannel → AirkissChannel
  | 0, i, g =>
    { g with selectedChanNums := g.selectedChanNums + 1 }.modify i fun c =>
      { c with channel := channel.toUInt16, dataCnt }
  | n + 1, i, g =>
    let cur := g.chan.getD i .zero
    if cur.dataCnt < dataCnt then
      let g := if cur.channel.toUInt8 ≠ channel then
          { g with
            chan := memmove g.chan (i + 1) i (g.selectedChanNums - i)
            selectedChanNums := g.selectedChanNums + 1 }
        else g
      g.modify i fun c => { c with channel := channel.toUInt16, dataCnt }
    else addFrom channel dataCnt n (i + 1) g

/-- `airkiss_add_channel`. -/
def airkissAddChannel (channel bcnCnt dataCnt : UInt8) (g : AirkissChannel) : AirkissChannel :=
  if dataCnt < MIN_VALID_DATACNT_INCHAN then g
  else if bcnCnt < MIN_VALID_BCNCNT_INCHAN then g
  else addFrom channel dataCnt g.selectedChanNums 0 g

/-- The case `AIRKISS_SCAN_ALL_CHAN`, with `timer_cnt`. -/
def switchAll (s : State) : State × UInt32 :=
  let cur := s.gChans.cur
  let g := airkissAddChannel cur.channel.toUInt8 cur.bcnCnt cur.dataCnt s.gChans
  let g := { g with curChanIdx := g.curChanIdx + 1 }
  if g.allChanNums ≤ g.curChanIdx then
    let g := { g with curChanIdx := 0 }
    if g.selectedChanNums ≠ 0 then
      ({ s with gChans := { g with mode := .scanSelectedChan } }, airkissCalcTimeForSelectedChannel g.cur.dataCnt)
    else (airkissSetScanAllChannel { s with gChans := g }, AIRKISS_SWITCH_TIMER)
  else ({ s with gChans := g }, AIRKISS_SWITCH_TIMER)

/-- The case `AIRKISS_SCAN_SELECTED_CHAN`, with `timer_cnt`. -/
def switchSelected (s : State) : State × UInt32 :=
  let g := { s.gChans with curChanIdx := s.gChans.curChanIdx + 1 }
  if g.selectedChanNums ≤ g.curChanIdx then
    (airkissSetScanAllChannel { s with gChans := { g with curChanIdx := 0 } }, AIRKISS_SWITCH_TIMER)
  else ({ s with gChans := g }, airkissCalcTimeForSelectedChannel g.cur.dataCnt)

/-- `airkiss_switch_channel_callback`. -/
def airkissSwitchChannelCallback (s : State) : State :=
  let (s, timerCnt) := match s.gChans.mode with
    | .scanAllChan => switchAll s
    | .scanSelectedChan => switchSelected s
  let channel := s.gChans.cur.channel.toUInt8
  { s with wlanChannel := channel.toUInt16, period := timerCnt }

/-- The start of a scan, in `airkiss_main` and in `airkiss_doing_timeout_callback`. -/
def startScan (s : State) : State :=
  let s := airkissSetScanAllChannel s
  let s := { s with gChans := { s.gChans with curChanIdx := 0 } }
  { s with wlanChannel := s.gChans.cur.channel, period := AIRKISS_SWITCH_TIMER }

/-! ### `process_airkiss` -/

/-- A round of the loop over the table, when the library has locked the channel. -/
def lockEntry (macCrc : UInt8) (i : Nat) (s : State) : State :=
  let s := { s with accesses := s.accesses ++ [.mac i] }
  let entry := s.gMacs.mac i
  if macCrc = entry.macCrc ∧ s.gChans.cur.channel ≠ entry.channel then
    { s with
      gChans := s.gChans.modify s.gChans.curChanIdx fun c => { c with channel := entry.channel }
      wlanChannel := entry.channel }
  else s

def lockFrom (macCrc : UInt8) : Nat → Nat → State → State
  | 0, _, s => s
  | n + 1, i, s => lockFrom macCrc n (i + 1) (lockEntry macCrc i s)

/-- `process_airkiss`, with whether `airkiss_recv` answers `AIRKISS_STATUS_CHANNEL_LOCKED`. -/
def processAirkiss (locked : Bool) (packet : Frame) (s : State) : State :=
  if locked then lockFrom packet.macCrc s.gMacs.macCnt.toNat 0 s else s

end Bk7251.AirkissMain
