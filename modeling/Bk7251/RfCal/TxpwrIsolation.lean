import Bk7251.Lib.Bytes
import Bk7251.RfCal.Txpwr

/-!
# Entries of the power tables do not disturb one another

Saving against an abstract store with one gain for each pair of a class of rates and a channel. The channel
behind the last one of BLE is the only one that leads out of a table.
-/
namespace Bk7251.RfCal

namespace Tabs

variable (tabs : Tabs)

theorem table_setTable (tab tab' : Tab) (v : Vector UInt8 tab.size) :
    (tabs.setTable tab v).table tab' = if same : tab = tab' then same ▸ v else tabs.table tab' := by
  cases tab <;> cases tab' <;> rfl

theorem load_store (p q : TxpwrPtr) (value : UInt8) :
    (tabs.store p value).load q = if p = q then value else tabs.load q := by
  obtain ⟨tab, i, inside⟩ := p
  obtain ⟨tab', j, inside'⟩ := q
  by_cases same : tab = tab'
  · subst same
    simp only [load, store, table_setTable, dif_pos, TxpwrPtr.mk.injEq, true_and]
    exact Vector.getElem_set inside inside'
  · have apart : ¬ (⟨tab, i, inside⟩ : TxpwrPtr) = ⟨tab', j, inside'⟩ := fun h => same (TxpwrPtr.mk.inj h).1
    simp only [load, store, table_setTable, dif_neg same, if_neg apart]

@[simp] theorem difGN20_store (p : TxpwrPtr) (value : UInt8) :
    (tabs.store p value).difGN20 = tabs.difGN20 := by
  obtain ⟨tab, i, inside⟩ := p
  cases tab <;> rfl

end Tabs

/-! ### What a save sets -/

def fiveBits (gain : UInt32) : UInt8 := getTxpwrGain gain.toUInt8

/-- A gain lowered by a distance, down to zero. -/
def lessDist (gain : UInt8) (dist : UInt16) : UInt8 :=
  if dist < gain.toUInt16 then (gain.toUInt16 - dist).toUInt8 else 0

/-- The arguments of `manual_cal_save_txpwr`. -/
structure Save where
  rate : UInt32
  channel : UInt32
  pwrGain : UInt32

/-- The table of a rate. The rates of 11b and 11g overlap, and those of 11n have the table of their own
bandwidth. -/
def saveTab (rate : UInt32) : Option Tab :=
  if rate = EVM_DEFUALT_BLE_RATE then some .ble
  else if rate ≤ MAX_RATE_FOR_B_5M ∨ rate = MAX_RATE_FOR_B then some .b
  else if rate ≤ MAX_RATE_FOR_G then some .g
  else if rate ≤ MAX_RATE_FOR_N ∧ rate ≥ MIN_RATE_FOR_N then some .n40
  else none

/-- The entry of a channel, where the channels of WLAN count from 1. -/
def Tab.channel? (tab : Tab) (channel : UInt32) : Option TxpwrPtr :=
  if tab = .ble then tab.element? channel.toNat
  else if channel = 0 then none
  else tab.element? (channel.toNat - 1)

namespace Save

variable (v : Save)

def ptr? : Option TxpwrPtr := (saveTab v.rate).bind fun tab => tab.channel? v.channel

/-- The save goes to the channel behind the table of BLE. -/
def Overruns : Prop := v.rate = EVM_DEFUALT_BLE_RATE ∧ v.channel.toNat = BLE_2_4_G_CHANNEL_NUM

instance : Decidable v.Overruns := inferInstanceAs (Decidable (_ ∧ _))

/-- The gain that the save gives to an entry, if it gives one. -/
def sets (difGN20 : UInt32) (q : TxpwrPtr) : Option UInt32 :=
  match v.ptr? with
  | none => none
  | some p =>
    if p = q then some v.pwrGain
    else if q.tab = .n ∧ p.tab = .g ∧ p.index = q.index then
      some (lessDist (fiveBits v.pwrGain) difGN20.toUInt16).toUInt32
    else none

end Save

/-- The settings that a save leaves alone. -/
def TxPwr.SameSettings (s s' : TxPwr) : Prop :=
  s'.tabs.difGN20 = s.tabs.difGN20 ∧ s'.defDistB = s.defDistB ∧ s'.defDistG = s.defDistG ∧
    s'.defDistN40 = s.defDistN40 ∧ s'.defDistBle = s.defDistBle ∧ s'.rfcaliModeAuto = s.rfcaliModeAuto

/-- The gain of an entry behind a save. -/
def gainAfter (s : TxPwr) (set : Option UInt32) (q : TxpwrPtr) : UInt8 :=
  (set.map fiveBits).getD (getTxpwrGain (s.tabs.load q))

theorem gain_adjustFitting (p : UInt8) (dist : UInt16) :
    getTxpwrGain (manualCalAdjustFitting p dist) = lessDist (getTxpwrGain p) dist := by
  have set (gain : UInt16) : getTxpwrGain ((p &&& ~~~0x1f) ||| (gain.toUInt8 &&& 0x1f)) =
      getTxpwrGain gain.toUInt8 := by
    have masked := gain_setTxpwrGain p gain.toUInt32
    rw [UInt16.toUInt8_toUInt32] at masked
    exact masked
  have small := gain_lt p
  have wide : (getTxpwrGain p).toUInt16.toNat < 32 := by
    rw [UInt8.toNat_toUInt16]
    exact small
  rw [manualCalAdjustFitting, lessDist, set]
  change getTxpwrGain
    (if dist < (getTxpwrGain p).toUInt16 then (getTxpwrGain p).toUInt16 - dist else 0).toUInt8 = _
  split
  next less =>
    have le : dist ≤ (getTxpwrGain p).toUInt16 := UInt16.le_of_lt less
    apply gain_of_lt
    rw [UInt16.toNat_toUInt8, UInt16.toNat_sub_of_le _ _ le]
    omega
  next => rfl

/-! ### One save -/

section

variable (s : TxPwr) (v : Save)

/-- The state behind a save to an entry. -/
def TxPwr.saved (p : TxpwrPtr) (pwrGain : UInt32) : TxPwr :=
  match p with
  | ⟨.ble, i, inside⟩ => { s.saveEntry ⟨.ble, i, inside⟩ pwrGain with cal11b2BleFlag := 1 }
  | ⟨.g, i, inside⟩ =>
    let s' := s.saveEntry ⟨.g, i, inside⟩ pwrGain
    let n := manualCalAdjustFitting (s'.tabs.load ⟨.g, i, inside⟩) s'.tabs.difGN20.toUInt16
    { s' with tabs := s'.tabs.store ⟨.n, i, inside⟩ n }
  | p => s.saveEntry p pwrGain

theorem element?_of_lt {tab : Tab} {i : Nat} (inside : i < tab.size) :
    tab.element? i = some ⟨tab, i, inside⟩ :=
  dif_pos inside

theorem element?_of_le {tab : Tab} {i : Nat} (outside : tab.size ≤ i) : tab.element? i = none :=
  dif_neg (Nat.not_lt.mpr outside)

theorem size_wlan {tab : Tab} (wlan : tab ≠ .ble) : tab.size = 14 := by
  cases tab with
  | ble => exact absurd rfl wlan
  | _ => rfl

theorem channel_pos {channel : UInt32} (nonzero : channel ≠ 0) : 1 ≤ channel.toNat :=
  Nat.one_le_iff_ne_zero.mpr ((Lib.toNat_ne_zero channel).mp nonzero)

/-- For WLAN the check of the channel is that of the table. -/
theorem wlan_channel {tab : Tab} (wlan : tab ≠ .ble) (channel : UInt32) :
    tab.channel? channel =
      if channel = 0 ∨ channel > UInt32.ofNat WLAN_2_4_G_CHANNEL_NUM then none
      else tab.element? (channel - 1).toNat := by
  have size := size_wlan wlan
  rw [Tab.channel?, if_neg wlan]
  by_cases zero : channel = 0
  · rw [if_pos zero, if_pos (.inl zero)]
  · have pos := channel_pos zero
    rw [if_neg zero, Lib.toNat_pred channel zero]
    by_cases great : channel > UInt32.ofNat WLAN_2_4_G_CHANNEL_NUM
    · rw [if_pos (.inr great)]
      have above : 14 < channel.toNat := UInt32.lt_iff_toNat_lt.mp great
      exact element?_of_le (by omega)
    · rw [if_neg (not_or.mpr ⟨zero, great⟩)]

theorem save_eq (s : TxPwr) (v : Save) : s.manualCalSaveTxpwr v.rate v.channel v.pwrGain =
    if v.Overruns then none else some (v.ptr?.elim s (s.saved · v.pwrGain)) := by
  unfold TxPwr.manualCalSaveTxpwr Save.ptr? saveTab
  by_cases ble : v.rate = EVM_DEFUALT_BLE_RATE
  · rw [if_pos ble, if_pos ble, Option.bind_some, Tab.channel?, if_pos rfl]
    -- channel 40 of BLE passes the check, and has no entry
    by_cases great : v.channel > UInt32.ofNat BLE_2_4_G_CHANNEL_NUM
    · have above : 40 < v.channel.toNat := UInt32.lt_iff_toNat_lt.mp great
      have other : ¬ v.Overruns := fun edge => absurd edge.2 (Nat.ne_of_gt above)
      rw [if_pos great, if_neg other, element?_of_le (Nat.le_of_lt above)]
      rfl
    · have below : v.channel.toNat ≤ 40 := Nat.not_lt.mp fun above => great (UInt32.lt_iff_toNat_lt.mpr above)
      rw [if_neg great]
      rcases Nat.eq_or_lt_of_le below with edge | inside
      · have overruns : v.Overruns := ⟨ble, edge⟩
        have outside : Tab.ble.size ≤ v.channel.toNat := Nat.le_of_eq edge.symm
        rw [if_pos overruns, element?_of_le outside]
        rfl
      · have other : ¬ v.Overruns := fun edge => absurd edge.2 (Nat.ne_of_lt inside)
        rw [if_neg other, element?_of_lt inside]
        rfl
  · have other : ¬ v.Overruns := fun edge => ble edge.1
    rw [if_neg ble, if_neg ble, if_neg other]
    -- the other tables have an entry for every channel that passes
    by_cases wrong : v.channel = 0 ∨ v.channel > UInt32.ofNat WLAN_2_4_G_CHANNEL_NUM
    · have none (tab : Tab) (wlan : tab ≠ .ble) : tab.channel? v.channel = none := by
        rw [wlan_channel wlan, if_pos wrong]
      rw [if_pos wrong]
      split_ifs <;> simp [none]
    · have here (tab : Tab) (wlan : tab ≠ .ble) :
          tab.channel? v.channel = tab.element? (v.channel - 1).toNat := by
        rw [wlan_channel wlan, if_neg wrong]
      have inside (tab : Tab) (wlan : tab ≠ .ble) : (v.channel - 1).toNat < tab.size := by
        have le : v.channel.toNat ≤ 14 := by
          apply Nat.not_lt.mp
          intro above
          exact wrong (.inr (UInt32.lt_iff_toNat_lt.mpr above))
        rw [size_wlan wlan, Lib.toNat_pred _ fun zero => wrong (.inl zero)]
        omega
      rw [if_neg wrong]
      generalize (v.channel - 1).toNat = i at here inside
      have b := element?_of_lt (inside .b nofun)
      have g := element?_of_lt (inside .g nofun)
      have n := element?_of_lt (inside .n nofun)
      have n40 := element?_of_lt (inside .n40 nofun)
      split_ifs
      · simp only [Option.bind_some, here .b nofun, b]
        rfl
      · simp only [Option.bind_some, here .g nofun, g, n]
        rfl
      · simp only [Option.bind_some, here .n40 nofun, n40]
        rfl
      · rfl

theorem gain_saveEntry (p q : TxpwrPtr) (pwrGain : UInt32) :
    getTxpwrGain ((s.saveEntry p pwrGain).tabs.load q) =
      if p = q then fiveBits pwrGain else getTxpwrGain (s.tabs.load q) := by
  rw [TxPwr.saveEntry, Tabs.load_store]
  split
  · rw [gain_setTxpwrFlag, gain_setTxpwrGain]
    rfl
  · rfl

theorem sets_of_ptr {p : TxpwrPtr} (hit : v.ptr? = some p) (difGN20 : UInt32) (q : TxpwrPtr) :
    v.sets difGN20 q =
      if p = q then some v.pwrGain
      else if q.tab = .n ∧ p.tab = .g ∧ p.index = q.index then
        some (lessDist (fiveBits v.pwrGain) difGN20.toUInt16).toUInt32
      else none := by
  simp only [Save.sets, hit]

theorem lessDist_le (gain : UInt8) (dist : UInt16) : (lessDist gain dist).toNat ≤ gain.toNat := by
  rw [lessDist]
  split
  next less =>
    have le : dist ≤ gain.toUInt16 := UInt16.le_of_lt less
    rw [UInt16.toNat_toUInt8, UInt16.toNat_sub_of_le _ _ le, UInt8.toNat_toUInt16]
    omega
  next => exact Nat.zero_le _

theorem fiveBits_lessDist (p : UInt8) (dist : UInt16) :
    fiveBits (lessDist (getTxpwrGain p) dist).toUInt32 = lessDist (getTxpwrGain p) dist := by
  rw [fiveBits, UInt8.toUInt8_toUInt32]
  exact gain_of_lt (Nat.lt_of_le_of_lt (lessDist_le _ dist) (gain_lt p))

theorem sameSettings_saveEntry (p : TxpwrPtr) (pwrGain : UInt32) : s.SameSettings (s.saveEntry p pwrGain) :=
  ⟨Tabs.difGN20_store _ _ _, rfl, rfl, rfl, rfl, rfl⟩

theorem gain_entry {p : TxpwrPtr} (hit : v.ptr? = some p) (other : p.tab ≠ .g) (q : TxpwrPtr) :
    getTxpwrGain ((s.saveEntry p v.pwrGain).tabs.load q) = gainAfter s (v.sets s.tabs.difGN20 q) q := by
  rw [gain_saveEntry, sets_of_ptr v hit, gainAfter]
  by_cases same : p = q
  · rw [if_pos same, if_pos same]
    rfl
  · rw [if_neg same, if_neg same, if_neg fun both => other both.2.1]
    rfl

/-- The n20 entry follows the g entry. -/
theorem gain_entries {i : Nat} {inside : i < Tab.g.size} (hit : v.ptr? = some ⟨.g, i, inside⟩) (q : TxpwrPtr) :
    getTxpwrGain ((s.saved ⟨.g, i, inside⟩ v.pwrGain).tabs.load q) =
      gainAfter s (v.sets s.tabs.difGN20 q) q := by
  have own := gain_saveEntry s ⟨.g, i, inside⟩ ⟨.g, i, inside⟩ v.pwrGain
  rw [if_pos rfl] at own
  have dif := (sameSettings_saveEntry s ⟨.g, i, inside⟩ v.pwrGain).1
  simp only [TxPwr.saved, Tabs.load_store, dif]
  rw [sets_of_ptr v hit, gainAfter]
  -- the entry of n20, that of g itself, or another one
  by_cases n20 : (⟨.n, i, inside⟩ : TxpwrPtr) = q
  · subst n20
    have apart : ¬ (⟨.g, i, inside⟩ : TxpwrPtr) = ⟨.n, i, inside⟩ := nofun
    rw [if_pos rfl, if_neg apart, if_pos ⟨rfl, rfl, rfl⟩, gain_adjustFitting, own]
    exact (fiveBits_lessDist v.pwrGain.toUInt8 _).symm
  · rw [if_neg n20, gain_saveEntry]
    by_cases same : (⟨.g, i, inside⟩ : TxpwrPtr) = q
    · rw [if_pos same, if_pos same]
      rfl
    · have neither : ¬ (q.tab = .n ∧ Tab.g = .g ∧ i = q.index) := by
        rintro ⟨tab, -, index⟩
        apply n20
        obtain ⟨tab', j, inside'⟩ := q
        obtain rfl : tab' = .n := tab
        obtain rfl : i = j := index
        rfl
      rw [if_neg same, if_neg same, if_neg neither]
      rfl

/-- A save to an entry sets that one, and for g the one of n20, and nothing else. -/
theorem saved_spec {p : TxpwrPtr} (hit : v.ptr? = some p) :
    s.SameSettings (s.saved p v.pwrGain) ∧
      ∀ q, getTxpwrGain ((s.saved p v.pwrGain).tabs.load q) = gainAfter s (v.sets s.tabs.difGN20 q) q := by
  obtain ⟨tab, i, inside⟩ := p
  have settings := sameSettings_saveEntry s ⟨tab, i, inside⟩ v.pwrGain
  cases tab with
  | g =>
    refine ⟨⟨?_, settings.2⟩, gain_entries s v hit⟩
    rw [TxPwr.saved, Tabs.difGN20_store]
    exact settings.1
  | b => exact ⟨settings, gain_entry s v hit nofun⟩
  | n => exact ⟨settings, gain_entry s v hit nofun⟩
  | n40 => exact ⟨settings, gain_entry s v hit nofun⟩
  | ble => exact ⟨settings, gain_entry s v hit nofun⟩

/-- One save: nothing but an entry outside of its table stops it, and it sets what it is said to set. -/
theorem save_spec (inside : ¬ v.Overruns) :
    ∃ s', s.manualCalSaveTxpwr v.rate v.channel v.pwrGain = some s' ∧ s.SameSettings s' ∧
      ∀ q, getTxpwrGain (s'.tabs.load q) = gainAfter s (v.sets s.tabs.difGN20 q) q := by
  rw [save_eq, if_neg inside]
  cases hit : v.ptr? with
  | some p => exact ⟨_, rfl, saved_spec s v hit⟩
  | none =>
    refine ⟨s, rfl, ⟨rfl, rfl, rfl, rfl, rfl, rfl⟩, fun q => ?_⟩
    simp only [Save.sets, hit]
    rfl

end

/-! ### Sequences of saves -/

def TxPwr.saves (s : TxPwr) (vs : List Save) : Option TxPwr :=
  vs.foldlM (fun s v => s.manualCalSaveTxpwr v.rate v.channel v.pwrGain) s

/-- The gain saved last for an entry. -/
def lastSaved (difGN20 : UInt32) (q : TxpwrPtr) : List Save → Option UInt32
  | [] => none
  | v :: vs => (lastSaved difGN20 q vs).or (v.sets difGN20 q)

variable {s s' : TxPwr}

theorem saves_spec (vs : List Save) (inside : ∀ v ∈ vs, ¬ v.Overruns) :
    ∃ s', s.saves vs = some s' ∧ s.SameSettings s' ∧
      ∀ q, getTxpwrGain (s'.tabs.load q) = gainAfter s (lastSaved s.tabs.difGN20 q vs) q := by
  -- by induction on the saves, from the first to the last
  induction vs generalizing s with
  | nil => exact ⟨s, rfl, ⟨rfl, rfl, rfl, rfl, rfl, rfl⟩, fun _ => rfl⟩
  | cons v vs ih =>
    obtain ⟨s₁, saved, same, gains⟩ := save_spec s v (inside v List.mem_cons_self)
    obtain ⟨s', run, same', gains'⟩ := ih (s := s₁) fun w member => inside w (List.mem_cons_of_mem v member)
    refine ⟨s', ?_, ?_, fun q => ?_⟩
    · rw [TxPwr.saves, List.foldlM_cons, saved]
      exact run
    · obtain ⟨dif, b, g, n40, ble, auto⟩ := same
      obtain ⟨dif', b', g', n40', ble', auto'⟩ := same'
      exact ⟨dif'.trans dif, b'.trans b, g'.trans g, n40'.trans n40, ble'.trans ble, auto'.trans auto⟩
    · rw [gains', same.1, gainAfter, gains q, lastSaved]
      -- what is saved later counts
      cases lastSaved s.tabs.difGN20 q vs with
      | some gain => rfl
      | none => rfl

theorem saves_overruns {vs : List Save} {v : Save} (member : v ∈ vs) (overruns : v.Overruns) :
    s.saves vs = none := by
  -- the saves before it either overrun too or leave a state for it
  induction vs generalizing s with
  | nil => cases member
  | cons w vs ih =>
    rw [TxPwr.saves, List.foldlM_cons]
    by_cases first : w.Overruns
    · rw [save_eq, if_pos first]
      rfl
    · have later : v ∈ vs := by
        rcases List.mem_cons.mp member with rfl | later
        · exact absurd overruns first
        · exact later
      obtain ⟨s₁, saved, -⟩ := save_spec s w first
      rw [saved]
      exact ih later

theorem saves_isSome_iff (s : TxPwr) (vs : List Save) : (s.saves vs).isSome ↔ ∀ v ∈ vs, ¬ v.Overruns := by
  constructor
  · intro run v member overruns
    rw [saves_overruns member overruns] at run
    cases run
  · intro inside
    obtain ⟨s', run, -⟩ := saves_spec (s := s) vs inside
    exact Option.isSome_of_eq_some run

/-! ### Reading -/

/-- The table that is read for a rate at a bandwidth; 11b and 11g have but the lower one. -/
def readTab (rate bandwidth : UInt32) : Option Tab :=
  if bandwidth = PHY_CHNL_BW_20 then
    if rate ≤ MAX_RATE_FOR_B_5M ∨ rate = MAX_RATE_FOR_B then some .b
    else if rate ≤ MAX_RATE_FOR_G then some .g
    else if rate ≤ MAX_RATE_FOR_N ∧ rate ≥ MIN_RATE_FOR_N then some .n
    else none
  else if bandwidth = PHY_CHNL_BW_40 ∧ rate ≤ MAX_RATE_FOR_N ∧ rate ≥ MIN_RATE_FOR_N then some .n40
  else none

/-- The entry of a rate and a channel at the bandwidth of the rate. -/
def readPtr? (rate channel bandwidth : UInt32) : Option TxpwrPtr :=
  if rate = EVM_DEFUALT_BLE_RATE then Tab.ble.element? channel.toNat
  else (readTab rate bandwidth).bind fun tab => tab.channel? channel

def TxPwr.ZeroDist (s : TxPwr) : Prop :=
  s.defDistB = 0 ∧ s.defDistG = 0 ∧ s.defDistN40 = 0 ∧ s.defDistBle = 0

theorem TxPwr.SameSettings.zeroDist (same : s.SameSettings s') (zero : s.ZeroDist) : s'.ZeroDist := by
  obtain ⟨-, b, g, n40, ble, -⟩ := same
  obtain ⟨b₀, g₀, n40₀, ble₀⟩ := zero
  exact ⟨b.trans b₀, g.trans g₀, n40.trans n40₀, ble.trans ble₀⟩

theorem calcDist_zero (s : TxPwr) (p : UInt8) : s.manualCalCalcDist (getTxpwrGain p) 0 = getTxpwrGain p := by
  have small := gain_lt p
  have same : UInt8.ofInt ((getTxpwrGain p).toNat : Int) = getTxpwrGain p := by
    have whole : ((getTxpwrGain p).toNat % 2 ^ 8 : Int).toNat = (getTxpwrGain p).toNat := by omega
    rw [UInt8.ofInt, whole, UInt8.ofNat_toNat]
  rw [TxPwr.manualCalCalcDist]
  cases s.rfcaliModeAuto with
  | false => exact same
  | true =>
    simp only [if_true, Int.add_zero]
    rw [if_neg (by omega), if_neg (by omega), same]

/-- With no distance the gain of the entry is what is read. -/
theorem get_eq (zero : s.ZeroDist) {rate channel bandwidth : UInt32} {q : TxpwrPtr}
    (asked : readPtr? rate channel bandwidth = some q) :
    s.manualCalGetTxpwr rate channel bandwidth = some (some (getTxpwrGain (s.tabs.load q))) := by
  obtain ⟨b, g, n40, ble⟩ := zero
  unfold readPtr? at asked
  unfold TxPwr.manualCalGetTxpwr
  split at asked
  next isBle =>
    -- an entry was found, so the channel is not the one behind the table
    have inside : channel.toNat < 40 := by
      apply Nat.not_le.mp
      intro outside
      rw [element?_of_le outside] at asked
      cases asked
    have passes : ¬ channel > UInt32.ofNat BLE_2_4_G_CHANNEL_NUM := by
      intro great
      have above : 40 < channel.toNat := UInt32.lt_iff_toNat_lt.mp great
      omega
    rw [if_pos isBle, if_neg passes, asked, ble]
    exact congrArg (some ∘ some) (calcDist_zero s _)
  next other =>
    obtain ⟨tab, table, entry⟩ := Option.bind_eq_some_iff.mp asked
    rw [if_neg other]
    have wlan : tab ≠ .ble := by
      rintro rfl
      unfold readTab at table
      split_ifs at table <;> cases table
    rw [wlan_channel wlan] at entry
    split at entry
    next => cases entry
    next right =>
      -- the bandwidth is one of the two that have tables
      have either : ¬ (bandwidth ≠ PHY_CHNL_BW_20 ∧ bandwidth ≠ PHY_CHNL_BW_40) := by
        rintro ⟨not20, not40⟩
        rw [readTab, if_neg not20, if_neg fun both => not40 both.1] at table
        cases table
      have found : s.getTable rate bandwidth = some (tab, 0) := by
        unfold readTab at table
        unfold TxPwr.getTable
        split_ifs at table ⊢ <;> simp_all
      rw [if_neg right, if_neg either, found]
      simp only [entry]
      exact congrArg (some ∘ some) (calcDist_zero s _)

/-- Every entry is read for some arguments. -/
theorem exists_readPtr (q : TxpwrPtr) :
    ∃ rate channel bandwidth, readPtr? rate channel bandwidth = some q := by
  obtain ⟨tab, i, inside⟩ := q
  have channel (wlan : tab ≠ .ble) : tab.channel? (UInt32.ofNat (i + 1)) = some ⟨tab, i, inside⟩ := by
    have small : i < 14 := by rwa [size_wlan wlan] at inside
    have value : (UInt32.ofNat (i + 1)).toNat = i + 1 :=
      UInt32.toNat_ofNat_of_lt' (by simp [UInt32.size]; omega)
    have nonzero : UInt32.ofNat (i + 1) ≠ 0 := by
      intro zero
      rw [zero] at value
      cases value
    rw [Tab.channel?, if_neg wlan, if_neg nonzero, value]
    exact element?_of_lt inside
  cases tab with
  | b => exact ⟨0, UInt32.ofNat (i + 1), 0, channel nofun⟩
  | g => exact ⟨54, UInt32.ofNat (i + 1), 0, channel nofun⟩
  | n => exact ⟨135, UInt32.ofNat (i + 1), 0, channel nofun⟩
  | n40 => exact ⟨135, UInt32.ofNat (i + 1), 1, channel nofun⟩
  | ble =>
    have value : (UInt32.ofNat i).toNat = i :=
      UInt32.toNat_ofNat_of_lt' (Nat.lt_trans inside (by decide))
    refine ⟨EVM_DEFUALT_BLE_RATE, UInt32.ofNat i, 0, ?_⟩
    rw [readPtr?, if_pos rfl, value]
    exact element?_of_lt inside

/-! ### Isolation -/

/-- The saves stay inside the tables, and every entry reads as the gain last saved for it, or as before. -/
def Isolated (s : TxPwr) (vs : List Save) : Prop :=
  ∃ s', s.saves vs = some s' ∧
    ∀ rate channel bandwidth q, readPtr? rate channel bandwidth = some q →
      ∃ gain, s'.manualCalGetTxpwr rate channel bandwidth = some (some gain) ∧
        gain.toUInt32 = (lastSaved s.tabs.difGN20 q vs).getD (getTxpwrGain (s.tabs.load q)).toUInt32

theorem toUInt32_fiveBits (gain : UInt32) : (fiveBits gain).toUInt32 = gain ↔ gain.toNat ≤ 31 := by
  rw [← UInt32.toNat_inj, UInt8.toNat_toUInt32, fiveBits, toNat_gain, UInt32.toNat_toUInt8]
  omega

/-- The saves stay inside the tables exactly when none of them goes to BLE's channel 40, which is behind the
table. With no distance they do not disturb one another exactly when moreover the gains that count fit their
five bits. -/
theorem txpwr_isolated_iff (s : TxPwr) (vs : List Save) :
    ((s.saves vs).isSome ↔ ∀ v ∈ vs, ¬ v.Overruns) ∧
    (s.ZeroDist → (Isolated s vs ↔ (∀ v ∈ vs, ¬ v.Overruns) ∧
      ∀ q gain, lastSaved s.tabs.difGN20 q vs = some gain → gain.toNat ≤ 31)) := by
  refine ⟨saves_isSome_iff s vs, fun zero => ?_⟩
  constructor
  · rintro ⟨s', run, reads⟩
    have inside := (saves_isSome_iff s vs).mp (Option.isSome_of_eq_some run)
    refine ⟨inside, fun q gain last => ?_⟩
    obtain ⟨s₁, run₁, same, gains⟩ := saves_spec (s := s) vs inside
    obtain rfl : s₁ = s' := Option.some.inj (run₁.symm.trans run)
    -- the entry is read for some arguments, and what is read has five bits
    obtain ⟨rate, channel, bandwidth, asked⟩ := exists_readPtr q
    obtain ⟨read, got, equal⟩ := reads rate channel bandwidth q asked
    rw [get_eq (same.zeroDist zero) asked, gains, last] at got
    rw [last, ← Option.some.inj (Option.some.inj got)] at equal
    exact (toUInt32_fiveBits gain).mp equal
  · rintro ⟨inside, small⟩
    obtain ⟨s', run, same, gains⟩ := saves_spec (s := s) vs inside
    refine ⟨s', run, fun rate channel bandwidth q asked => ?_⟩
    refine ⟨_, get_eq (same.zeroDist zero) asked, ?_⟩
    rw [gains, gainAfter]
    -- a gain of five bits is read as it was saved
    cases last : lastSaved s.tabs.difGN20 q vs with
    | none => rfl
    | some gain => exact (toUInt32_fiveBits gain).mpr (small q gain last)

/-- All gains are the same, and no distance is set. -/
def flatTxPwr : TxPwr where
  tabs := ⟨.replicate 14 16, .replicate 14 16, .replicate 14 14, .replicate 14 12, .replicate 40 16, 2, 4⟩
  cal11b2BleFlag := 0
  defDistB := 0
  defDistG := 0
  defDistN40 := 0
  defDistBle := 0
  rfcaliModeAuto := false

theorem txpwr_isolated_b : Isolated flatTxPwr [⟨11, 1, 20⟩] := by
  refine ((txpwr_isolated_iff flatTxPwr [⟨11, 1, 20⟩]).2 ⟨rfl, rfl, rfl, rfl⟩).mpr ⟨by decide, ?_⟩
  intro q gain last
  rw [lastSaved, lastSaved, Option.none_or, sets_of_ptr (p := ⟨.b, 0, by decide⟩) _ rfl] at last
  split_ifs at last with same n20
  · obtain rfl := Option.some.inj last
    decide
  · cases n20.2.1

/-- The channel as great as the table of BLE, for which there is no element. -/
theorem ble_channel_40_overruns : ¬ Isolated flatTxPwr [⟨EVM_DEFUALT_BLE_RATE, 40, 20⟩] := by
  rintro ⟨s', run, -⟩
  cases run

end Bk7251.RfCal
