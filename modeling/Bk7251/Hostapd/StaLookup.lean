import Mathlib.Data.Nat.Find
import Mathlib.Tactic.Common

/-!
# Looking up a station by its address

The scans of `sta_info_tab` in `func/rwnx_intf/rw_msdu.c`, and `wpa_hostapd_set_sta_flag`
(`func/hostapd_intf/hostapd_intf.c`), which asks two of them.
-/
namespace Bk7251.Hostapd

namespace StaLookup

/-- `NX_REMOTE_STA_MAX`, which is `CFG_STA_MAX`. -/
def NX_REMOTE_STA_MAX : Nat := 2

def PORT_CLOSED : UInt8 := 0
def PORT_OPEN : UInt8 := 3

abbrev MacAddr := Fin 6 → UInt8

/-- `MAC_ADDR_CMP` -/
def macAddrCmp (addr₁ addr₂ : MacAddr) : Bool :=
  addr₁ 0 == addr₂ 0 && addr₁ 1 == addr₂ 1 && addr₁ 2 == addr₂ 2 && addr₁ 3 == addr₂ 3 &&
    addr₁ 4 == addr₂ 4 && addr₁ 5 == addr₂ 5

/-- The fields of `struct sta_info_tag` that the lookups read. -/
structure StaInfoTag where
  macAddr : MacAddr
  ctrlPortState : UInt8

/-- The pointer into the table is the number of the entry. -/
abbrev StaInfPtr := Option Nat

section

variable (staInfoTab : Nat → StaInfoTag)

def rwmMgmtStaIdx2ptr (staid : UInt8) : StaInfPtr :=
  if staid.toNat < NX_REMOTE_STA_MAX then some staid.toNat else none

/-- The loop of the three scans from `i` on, with `left` entries to go: `i` and `sta_entry` behind it. -/
def scan (mac : MacAddr) : (left i : Nat) → (staEntry : StaInfPtr) → Nat × StaInfPtr
  | 0, i, staEntry => (i, staEntry)
  | left + 1, i, _ =>
    if macAddrCmp (staInfoTab i).macAddr mac then (i, some i) else scan mac left (i + 1) (some i)

/-- The number of the entry is not looked at. -/
def rwmMgmtStaMac2ptr (mac : MacAddr) : StaInfPtr := (scan staInfoTab mac NX_REMOTE_STA_MAX 0 none).2

def rwmMgmtStaMac2idx (mac : MacAddr) : UInt8 :=
  let i := (scan staInfoTab mac NX_REMOTE_STA_MAX 0 none).1
  if i < NX_REMOTE_STA_MAX then UInt8.ofNat i else 0xff

def rwmMgmtStaMac2port (mac : MacAddr) : UInt8 :=
  match (scan staInfoTab mac NX_REMOTE_STA_MAX 0 none).2 with
  | some staEntry => if (staInfoTab staEntry).ctrlPortState = PORT_OPEN then 1 else 0
  | none => 0

def WPA_STA_AUTHENTICATED : UInt32 := 0x20

/-- `wpa_hostapd_set_sta_flag`: the station for which the port is asked to be opened. -/
def wpaHostapdSetStaFlag (staAddr : MacAddr) (flagsOr flagsAnd : UInt32) : Option UInt8 :=
  let flag := flagsOr &&& flagsAnd
  if flag = 0 then none
  else if flag &&& WPA_STA_AUTHENTICATED = 0 then none
  else if rwmMgmtStaMac2port staInfoTab staAddr ≠ 0 then none
  else
    let staIdx := rwmMgmtStaMac2idx staInfoTab staAddr
    if staIdx = 0xff then none else some staIdx

/-! ### Where a scan ends -/

variable {staInfoTab} {mac : MacAddr}

/-- The first entry with the address. -/
def First (staInfoTab : Nat → StaInfoTag) (mac : MacAddr) (i : Nat) : Prop :=
  i < NX_REMOTE_STA_MAX ∧ macAddrCmp (staInfoTab i).macAddr mac ∧
    ∀ j < i, ¬ macAddrCmp (staInfoTab j).macAddr mac

def Known (staInfoTab : Nat → StaInfoTag) (mac : MacAddr) : Prop :=
  ∃ i < NX_REMOTE_STA_MAX, macAddrCmp (staInfoTab i).macAddr mac

instance : Decidable (Known staInfoTab mac) :=
  inferInstanceAs (Decidable (∃ i, i < NX_REMOTE_STA_MAX ∧ _))

theorem Known.first (known : Known staInfoTab mac) : ∃ i, First staInfoTab mac i := by
  classical
  have found : ∃ i, i < NX_REMOTE_STA_MAX ∧ macAddrCmp (staInfoTab i).macAddr mac := known
  obtain ⟨inside, same⟩ := Nat.find_spec found
  refine ⟨Nat.find found, inside, same, fun j before again => ?_⟩
  exact Nat.find_min found before ⟨Nat.lt_trans before inside, again⟩

theorem scan_first {i : Nat} (first : ∀ j < i, ¬ macAddrCmp (staInfoTab j).macAddr mac)
    (same : macAddrCmp (staInfoTab i).macAddr mac) (left : Nat) (k : Nat) (staEntry : StaInfPtr)
    (before : k ≤ i) (inside : i < k + left) : scan staInfoTab mac left k staEntry = (i, some i) := by
  -- by induction on the turns left; up to `i` no entry stops the loop
  induction left generalizing k staEntry with
  | zero => omega
  | succ left ih =>
    rw [scan]
    rcases Nat.eq_or_lt_of_le before with rfl | less
    · rw [if_pos same]
    · rw [if_neg (first k less)]
      apply ih
      · exact less
      · omega

/-- Without the address the loop runs out, with the last entry in `sta_entry`. -/
theorem scan_absent (left k : Nat) (staEntry : StaInfPtr)
    (absent : ∀ j < k + (left + 1), ¬ macAddrCmp (staInfoTab j).macAddr mac) :
    scan staInfoTab mac (left + 1) k staEntry = (k + (left + 1), some (k + left)) := by
  -- by induction on the turns left; the pointer stays one entry behind the counter
  induction left generalizing k staEntry with
  | zero =>
    rw [scan, if_neg (absent k (Nat.lt_succ_self k)), scan]
    rfl
  | succ left ih =>
    rw [scan, if_neg (absent k (by omega)), ih]
    · simp only [Nat.add_assoc, Nat.add_comm 1]
    · intro j inside
      exact absent j (by omega)

/-- The three scans refer to the first entry with the address. -/
theorem lookup_first {i : Nat} (first : First staInfoTab mac i) :
    rwmMgmtStaMac2ptr staInfoTab mac = some i ∧ rwmMgmtStaMac2idx staInfoTab mac = UInt8.ofNat i ∧
      rwmMgmtStaMac2port staInfoTab mac = if (staInfoTab i).ctrlPortState = PORT_OPEN then 1 else 0 := by
  obtain ⟨inside, same, before⟩ := first
  have ends : scan staInfoTab mac NX_REMOTE_STA_MAX 0 none = (i, some i) :=
    scan_first before same _ 0 none (Nat.zero_le i) (by omega)
  refine ⟨?_, ?_, ?_⟩
  · rw [rwmMgmtStaMac2ptr, ends]
  · simp only [rwmMgmtStaMac2idx, ends, if_pos inside]
  · simp only [rwmMgmtStaMac2port, ends]

/-- For an address that is not in the table, two of them answer for the last entry. -/
theorem lookup_absent (absent : ¬ Known staInfoTab mac) :
    rwmMgmtStaMac2ptr staInfoTab mac = some (NX_REMOTE_STA_MAX - 1) ∧
      rwmMgmtStaMac2idx staInfoTab mac = 0xff ∧
      rwmMgmtStaMac2port staInfoTab mac =
        if (staInfoTab (NX_REMOTE_STA_MAX - 1)).ctrlPortState = PORT_OPEN then 1 else 0 := by
  have ends : scan staInfoTab mac NX_REMOTE_STA_MAX 0 none =
      (NX_REMOTE_STA_MAX, some (NX_REMOTE_STA_MAX - 1)) := by
    apply scan_absent
    intro j inside same
    exact absent ⟨j, inside, same⟩
  refine ⟨?_, ?_, ?_⟩
  · rw [rwmMgmtStaMac2ptr, ends]
  · simp only [rwmMgmtStaMac2idx, ends, Nat.lt_irrefl, if_false]
  · simp only [rwmMgmtStaMac2port, ends]

theorem idx2ptr_ofNat {i : Nat} (inside : i < NX_REMOTE_STA_MAX) :
    rwmMgmtStaIdx2ptr (UInt8.ofNat i) = some i := by
  have small : (UInt8.ofNat i).toNat = i := UInt8.toNat_ofNat_of_lt' (Nat.lt_trans inside (by decide))
  rw [rwmMgmtStaIdx2ptr, small, if_pos inside]

/-! ### Agreement -/

/-- What the lookups say about an address: nothing, if it is not in the table; else all the same entry. -/
def Agree (staInfoTab : Nat → StaInfoTag) (mac : MacAddr) : Prop :=
  (¬ Known staInfoTab mac → rwmMgmtStaMac2ptr staInfoTab mac = none ∧
    rwmMgmtStaMac2port staInfoTab mac = 0 ∧ rwmMgmtStaMac2idx staInfoTab mac = 0xff) ∧
  ∀ i, First staInfoTab mac i →
    rwmMgmtStaMac2idx staInfoTab mac = UInt8.ofNat i ∧
    rwmMgmtStaMac2ptr staInfoTab mac = rwmMgmtStaIdx2ptr (rwmMgmtStaMac2idx staInfoTab mac) ∧
    rwmMgmtStaMac2ptr staInfoTab mac = some i ∧
    rwmMgmtStaMac2port staInfoTab mac = if (staInfoTab i).ctrlPortState = PORT_OPEN then 1 else 0

theorem agree_first {i : Nat} (first : First staInfoTab mac i) :
    rwmMgmtStaMac2idx staInfoTab mac = UInt8.ofNat i ∧
    rwmMgmtStaMac2ptr staInfoTab mac = rwmMgmtStaIdx2ptr (rwmMgmtStaMac2idx staInfoTab mac) ∧
    rwmMgmtStaMac2ptr staInfoTab mac = some i ∧
    rwmMgmtStaMac2port staInfoTab mac = if (staInfoTab i).ctrlPortState = PORT_OPEN then 1 else 0 := by
  obtain ⟨ptr, idx, port⟩ := lookup_first first
  refine ⟨idx, ?_, ptr, port⟩
  rw [ptr, idx, idx2ptr_ofNat first.1]

/-- The lookups agree exactly for the addresses of the table. For all others the index is right, and the port
is taken for an open one exactly when the last entry's is. The request to open a port is never made for an
address that is not there. -/
theorem sta_lookup_agrees_iff (staInfoTab : Nat → StaInfoTag) (mac : MacAddr) :
    (Agree staInfoTab mac ↔ Known staInfoTab mac) ∧
    (Known staInfoTab mac ∨
      (rwmMgmtStaMac2idx staInfoTab mac = 0xff ∧
        (rwmMgmtStaMac2port staInfoTab mac = 1 ↔
          (staInfoTab (NX_REMOTE_STA_MAX - 1)).ctrlPortState = PORT_OPEN) ∧
        ∀ flagsOr flagsAnd, wpaHostapdSetStaFlag staInfoTab mac flagsOr flagsAnd = none)) := by
  by_cases known : Known staInfoTab mac
  · refine ⟨iff_of_true ⟨absurd known, ?_⟩ known, .inl known⟩
    intro i first
    exact agree_first first
  · obtain ⟨ptr, idx, port⟩ := lookup_absent known
    refine ⟨iff_of_false (fun agree => ?_) known, .inr ⟨idx, ?_, fun flagsOr flagsAnd => ?_⟩⟩
    · -- the pointer is that of the last entry, and never null
      have null := (agree.1 known).1
      rw [ptr] at null
      cases null
    · rw [port]
      split <;> simp_all
    · simp only [wpaHostapdSetStaFlag, idx, if_true, ite_self]

/-- Two stations, the second of them authorised; a third address is taken for the second. -/
theorem unknown_sta_has_open_port :
    let staInfoTab (i : Nat) : StaInfoTag := ⟨fun _ => UInt8.ofNat i, if i = 1 then PORT_OPEN else PORT_CLOSED⟩
    ¬ Known staInfoTab (fun _ => 7) ∧ rwmMgmtStaMac2ptr staInfoTab (fun _ => 7) = some 1 ∧
      rwmMgmtStaMac2port staInfoTab (fun _ => 7) = 1 ∧ ¬ Agree staInfoTab (fun _ => 7) := by
  refine ⟨by decide, by decide, by decide, fun agree => ?_⟩
  have port := (agree.1 (by decide)).2.1
  exact absurd port (by decide)

end

end StaLookup

end Bk7251.Hostapd
