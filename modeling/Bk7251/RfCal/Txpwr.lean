import Bk7251.RfCal.ManualCal

/-!
# The TX power tables

`func/bk7011_cal/manual_cal_bk7231U.c`: saving, reading and fitting the entries of the tables of gains. An
entry is a byte with the gain in its five low bits and a flag in the highest. Channels 1 to 14 of WLAN are
the entries 0 to 13.
-/
namespace Bk7251.RfCal

def WLAN_2_4_G_CHANNEL_NUM : Nat := 14
def BLE_2_4_G_CHANNEL_NUM : Nat := 40
def MAX_RATE_FOR_B_5M : UInt32 := 5
def MAX_RATE_FOR_B : UInt32 := 11
def MAX_RATE_FOR_G : UInt32 := 54
def MIN_RATE_FOR_N : UInt32 := 128
def MAX_RATE_FOR_N : UInt32 := 135
def EVM_DEFUALT_BLE_RATE : UInt32 := 158

def PHY_CHNL_BW_20 : UInt32 := 0
def PHY_CHNL_BW_40 : UInt32 := 1

def TXPWR_ELEM_INUSED : UInt8 := 0
def TXPWR_ELEM_UNUSED : UInt8 := 1

def FLAG_MASK : UInt8 := 0x1
def FLAG_POSI : UInt8 := 7
def GAIN_MASK : UInt8 := 0x1f

/-! ### Entries -/

/-- `GET_TXPWR_GAIN` -/
def getTxpwrGain (p : UInt8) : UInt8 := p &&& GAIN_MASK

/-- `SET_TXPWR_GAIN` -/
def setTxpwrGain (p : UInt8) (gain : UInt32) : UInt8 := (p &&& ~~~GAIN_MASK) ||| (gain.toUInt8 &&& GAIN_MASK)

/-- `GET_TXPWR_FLAG` -/
def getTxpwrFlag (p : UInt8) : UInt8 := (p >>> FLAG_POSI) &&& FLAG_MASK

/-- `SET_TXPWR_FLAG` -/
def setTxpwrFlag (p flag : UInt8) : UInt8 :=
  (p &&& ~~~(FLAG_MASK <<< FLAG_POSI)) ||| ((flag &&& FLAG_MASK) <<< FLAG_POSI)

@[simp] theorem gain_setTxpwrGain (p : UInt8) (gain : UInt32) :
    getTxpwrGain (setTxpwrGain p gain) = gain.toUInt8 &&& GAIN_MASK := by
  unfold getTxpwrGain setTxpwrGain GAIN_MASK
  rw [← UInt8.toBitVec_inj]
  ext i inside
  match i with
  | 0 | 1 | 2 | 3 | 4 | 5 | 6 | 7 => simp

@[simp] theorem gain_setTxpwrFlag (p flag : UInt8) : getTxpwrGain (setTxpwrFlag p flag) = getTxpwrGain p := by
  unfold getTxpwrGain setTxpwrFlag GAIN_MASK FLAG_POSI FLAG_MASK
  rw [← UInt8.toBitVec_inj]
  ext i inside
  match i with
  | 0 | 1 | 2 | 3 | 4 | 5 | 6 | 7 => simp

@[simp] theorem flag_setTxpwrFlag (p flag : UInt8) :
    getTxpwrFlag (setTxpwrFlag p flag) = flag &&& FLAG_MASK := by
  unfold getTxpwrFlag setTxpwrFlag FLAG_POSI FLAG_MASK
  rw [← UInt8.toBitVec_inj]
  ext i inside
  match i with
  | 0 | 1 | 2 | 3 | 4 | 5 | 6 | 7 => simp

theorem toNat_gain (p : UInt8) : (getTxpwrGain p).toNat = p.toNat % 32 := by
  rw [getTxpwrGain, UInt8.toNat_and]
  exact Nat.and_two_pow_sub_one_eq_mod p.toNat 5

theorem gain_lt (p : UInt8) : (getTxpwrGain p).toNat < 32 := by
  rw [toNat_gain]
  exact Nat.mod_lt _ (by decide)

theorem gain_of_lt {p : UInt8} (small : p.toNat < 32) : getTxpwrGain p = p := by
  rw [← UInt8.toNat_inj, toNat_gain, Nat.mod_eq_of_lt small]

/-! ### Tables -/

inductive Tab
  | b
  | g
  | n
  | n40
  | ble
deriving DecidableEq

def Tab.size : Tab → Nat
  | .b | .g | .n | .n40 => WLAN_2_4_G_CHANNEL_NUM
  | .ble => BLE_2_4_G_CHANNEL_NUM

/-- A `TXPWR_PTR` into one of the tables. -/
structure TxpwrPtr where
  tab : Tab
  index : Nat
  inside : index < tab.size
deriving DecidableEq

/-- The address of an element, if it is one. -/
def Tab.element? (tab : Tab) (index : Nat) : Option TxpwrPtr :=
  if inside : index < tab.size then some ⟨tab, index, inside⟩ else none

namespace Tabs

def table (tabs : Tabs) : (tab : Tab) → Vector UInt8 tab.size
  | .b => tabs.b
  | .g => tabs.g
  | .n => tabs.n
  | .n40 => tabs.n40
  | .ble => tabs.ble

def setTable (tabs : Tabs) : (tab : Tab) → Vector UInt8 tab.size → Tabs
  | .b, b => { tabs with b }
  | .g, g => { tabs with g }
  | .n, n => { tabs with n }
  | .n40, n40 => { tabs with n40 }
  | .ble, ble => { tabs with ble }

def load (tabs : Tabs) (p : TxpwrPtr) : UInt8 := (tabs.table p.tab).get ⟨p.index, p.inside⟩

def store (tabs : Tabs) (p : TxpwrPtr) (value : UInt8) : Tabs :=
  tabs.setTable p.tab ((tabs.table p.tab).set p.index value p.inside)

end Tabs

/-! ### Saving and reading -/

/-- The tables with `cal_11b_2_ble_flag`, the default distances, and the mode of the calibration. -/
structure TxPwr where
  tabs : Tabs
  cal11b2BleFlag : UInt8
  defDistB : Int
  defDistG : Int
  defDistN40 : Int
  defDistBle : Int
  rfcaliModeAuto : Bool

namespace TxPwr

variable (s : TxPwr)

/-- The gain and the flag of an entry are set. -/
def saveEntry (p : TxpwrPtr) (pwrGain : UInt32) : TxPwr :=
  { s with tabs := s.tabs.store p (setTxpwrFlag (setTxpwrGain (s.tabs.load p) pwrGain) TXPWR_ELEM_INUSED) }

/-- `manual_cal_save_txpwr`; none where the entry is not in its table. -/
def manualCalSaveTxpwr (rate channel pwrGain : UInt32) : Option TxPwr :=
  if rate = EVM_DEFUALT_BLE_RATE then
    -- the channel that is as great as the table passes the check
    if channel > UInt32.ofNat BLE_2_4_G_CHANNEL_NUM then some s
    else do
      let p ← Tab.ble.element? channel.toNat
      some { s.saveEntry p pwrGain with cal11b2BleFlag := 1 }
  else if channel = 0 ∨ channel > UInt32.ofNat WLAN_2_4_G_CHANNEL_NUM then some s
  else
    let channel := (channel - 1).toNat
    if rate ≤ MAX_RATE_FOR_B_5M ∨ rate = MAX_RATE_FOR_B then do
      let p ← Tab.b.element? channel
      some (s.saveEntry p pwrGain)
    else if rate ≤ MAX_RATE_FOR_G then do
      let p ← Tab.g.element? channel
      let n ← Tab.n.element? channel
      let s := s.saveEntry p pwrGain
      some { s with tabs := s.tabs.store n (manualCalAdjustFitting (s.tabs.load p) s.tabs.difGN20.toUInt16) }
    else if rate ≤ MAX_RATE_FOR_N ∧ rate ≥ MIN_RATE_FOR_N then do
      let p ← Tab.n40.element? channel
      some (s.saveEntry p pwrGain)
    else some s

/-- `manual_cal_calc_dist` -/
def manualCalCalcDist (org : UInt8) (dist : Int) : UInt8 :=
  let orgBak : Int := org.toNat
  let orgBak :=
    if s.rfcaliModeAuto then
      let orgBak := orgBak + dist
      if orgBak < 0 then 0 else if orgBak > 31 then 31 else orgBak
    else orgBak
  UInt8.ofInt orgBak

/-- The table and the distance that `manual_cal_get_txpwr` takes for WLAN; none for a wrong rate. -/
def getTable (rate bandwidth : UInt32) : Option (Tab × Int) :=
  if bandwidth = PHY_CHNL_BW_20 then
    if rate ≤ MAX_RATE_FOR_B_5M ∨ rate = MAX_RATE_FOR_B then some (.b, s.defDistB)
    else if rate ≤ MAX_RATE_FOR_G then some (.g, s.defDistG)
    else if rate ≤ MAX_RATE_FOR_N ∧ rate ≥ MIN_RATE_FOR_N then some (.n, s.defDistG)
    else none
  else
    if rate ≤ MAX_RATE_FOR_N ∧ rate ≥ MIN_RATE_FOR_N then some (.n40, s.defDistN40)
    else some (.n, s.defDistG)

/-- `manual_cal_get_txpwr`: the gain, if the call gives one; none where the entry is not in its table. -/
def manualCalGetTxpwr (rate channel bandwidth : UInt32) : Option (Option UInt8) :=
  if rate = EVM_DEFUALT_BLE_RATE then
    if channel > UInt32.ofNat BLE_2_4_G_CHANNEL_NUM then some none
    else do
      let p ← Tab.ble.element? channel.toNat
      some (s.manualCalCalcDist (getTxpwrGain (s.tabs.load p)) s.defDistBle)
  else if channel = 0 ∨ channel > UInt32.ofNat WLAN_2_4_G_CHANNEL_NUM then some none
  else if bandwidth ≠ PHY_CHNL_BW_20 ∧ bandwidth ≠ PHY_CHNL_BW_40 then some none
  else
    match s.getTable rate bandwidth with
    | none => some none
    | some (tab, dist) => do
      let p ← tab.element? (channel - 1).toNat
      some (s.manualCalCalcDist (getTxpwrGain (s.tabs.load p)) dist)

end TxPwr

end Bk7251.RfCal
