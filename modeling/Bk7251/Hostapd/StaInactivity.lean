import Bk7251.Clock.FakeClock
import Bk7251.Lib.Elapsed

/-!
# How long a station has been silent

`hapd_get_sta_info` and `hapd_poll_callback` (`func/hostapd_intf/hostapd_intf.c`). The two look-ups of the
station table are parameters: only their declarations (`ip/lmac/src/sta/sta_mgmt.h`) are in the tree.
-/
namespace Bk7251.Hostapd

open Lib Clock

def INVALID_STA_IDX : UInt32 := 0xFF
def FRAME_SUCCESSFUL_TX_BIT : UInt32 := (1 : UInt32) <<< 23

structure StaInfoTag where
  preRxTimepoint : UInt32

/-- `struct prism2_hostapd_param`, as far as a query of a station uses it. -/
structure GetStaInfoParam where
  staAddr : List UInt8
  inactiveSec : UInt32

/-- The time in `hapd_get_sta_info`. -/
def deltaSec (tickCnt preRxTimepoint : UInt32) : UInt32 :=
  if tickCnt > preRxTimepoint then (tickCnt - preRxTimepoint) / TICK_PER_SECOND
  else (0xFFFFFFFF - preRxTimepoint + tickCnt) / TICK_PER_SECOND

section

variable (staMgmtGetSta : List UInt8 → Option Nat) (staMgmtGetStaWithId : UInt32 → Option Nat)
variable (clock : FakeClock) (staInfoTab : Nat → StaInfoTag)

/-- `hapd_get_sta_info`: the returned value and the filled-in query, none being the null pointer. -/
def hapdGetStaInfo (param : Option GetStaInfoParam) : Int × Option GetStaInfoParam :=
  match param with
  | none => (-1, none)
  | some param =>
    let param := { param with inactiveSec := 0 }
    match staMgmtGetSta param.staAddr with
    | none => (0, some param)
    | some i =>
      let entry := staInfoTab i
      if entry.preRxTimepoint ≠ 0 then
        (0, some { param with inactiveSec := deltaSec clock.fclkGetTick entry.preRxTimepoint })
      else (0, some param)

/-- `hapd_poll_callback`; none where the assertion fails. -/
def hapdPollCallback (staId status : UInt32) : Option (Nat → StaInfoTag) :=
  if staId = INVALID_STA_IDX then none
  else if status &&& FRAME_SUCCESSFUL_TX_BIT = 0 then some staInfoTab
  else
    match staMgmtGetStaWithId staId with
    | none => some staInfoTab
    | some i => some (Function.update staInfoTab i ⟨clock.fclkGetTick⟩)

end

/-- The whole seconds from one reading of the tick counter to a later one. -/
def secondsSince (before now : UInt32) : Nat :=
  (2 ^ 32 + now.toNat - before.toNat) % 2 ^ 32 / TICK_PER_SECOND.toNat

/-- Where the reported time is the time that has passed. -/
def Reported (before now : UInt32) : Prop :=
  (before ≠ 0 ∧ before < now) ∨
    (before ≠ 0 ∧ now < before ∧ ¬ TICK_PER_SECOND.toNat ∣ 2 ^ 32 - before.toNat + now.toNat) ∨
    (before = 0 ∧ now < TICK_PER_SECOND)

instance (before now : UInt32) : Decidable (Reported before now) := by
  unfold Reported
  infer_instance

theorem secondsSince_eq (before now : UInt32) :
    secondsSince before now = ((now - before) / TICK_PER_SECOND).toNat := by
  have bound := before.toNat_lt
  have same : 2 ^ 32 + now.toNat - before.toNat = 2 ^ 32 - before.toNat + now.toNat := by omega
  rw [secondsSince, UInt32.toNat_div, toNat_elapsed, same]

/-- What is reported of a station that is in the table. -/
def reportedSec (before now : UInt32) : UInt32 := if before ≠ 0 then deltaSec now before else 0

theorem hapdGetStaInfo_found {staMgmtGetSta : List UInt8 → Option Nat} {addr : List UInt8} {i : Nat}
    (clock : FakeClock) (staInfoTab : Nat → StaInfoTag) (sec : UInt32)
    (found : staMgmtGetSta addr = some i) :
    hapdGetStaInfo staMgmtGetSta clock staInfoTab (some ⟨addr, sec⟩) =
      (0, some ⟨addr, reportedSec (staInfoTab i).preRxTimepoint clock.fclkGetTick⟩) := by
  simp only [hapdGetStaInfo, found, reportedSec]
  split
  · rfl
  · rfl

/-- An acknowledged frame makes the present tick the recorded time of its station. -/
theorem hapdPollCallback_timepoint {staMgmtGetStaWithId : UInt32 → Option Nat} {staId status : UInt32}
    {i : Nat} (clock : FakeClock) (staInfoTab : Nat → StaInfoTag) (valid : staId ≠ INVALID_STA_IDX)
    (acked : status &&& FRAME_SUCCESSFUL_TX_BIT ≠ 0) (found : staMgmtGetStaWithId staId = some i) :
    ∃ tab, hapdPollCallback staMgmtGetStaWithId clock staInfoTab staId status = some tab ∧
      (tab i).preRxTimepoint = clock.fclkGetTick ∧ ∀ j, j ≠ i → tab j = staInfoTab j := by
  rw [hapdPollCallback, if_neg valid, if_neg acked, found]
  refine ⟨_, rfl, ?_, fun j other => Function.update_of_ne other _ _⟩
  rw [Function.update_self]

/-! ### The three places of the recorded time -/

section

variable {before now : UInt32}

theorem deltaSec_of_lt (later : before < now) : (deltaSec now before).toNat = secondsSince before now := by
  rw [deltaSec, if_pos later, secondsSince_eq]

/-- In the very tick of the last frame the distance is taken for a whole wrap. -/
theorem deltaSec_self (now : UInt32) : deltaSec now now = 8589934 := by
  have same : now - now = 0 := UInt32.sub_self now
  rw [deltaSec, if_neg (UInt32.lt_irrefl now), handElapsed_eq, same]
  rfl

theorem secondsSince_self (now : UInt32) : secondsSince now now = 0 := by
  have same : now - now = 0 := UInt32.sub_self now
  rw [secondsSince_eq, same]
  rfl

/-- After a wrap the distance is one tick short. -/
theorem deltaSec_of_gt (wrapped : now < before) :
    (deltaSec now before).toNat = secondsSince before now ↔
      ¬ TICK_PER_SECOND.toNat ∣ 2 ^ 32 - before.toNat + now.toNat := by
  have less := UInt32.lt_iff_toNat_lt.mp wrapped
  have passed := toNat_elapsed_of_lt before now wrapped
  have some : 0 < (now - before).toNat := by
    have bound := before.toNat_lt
    rw [passed]
    omega
  have one : (now - before - 1).toNat = (now - before).toNat - 1 :=
    toNat_pred _ ((toNat_ne_zero _).mpr (Nat.ne_of_gt some))
  rw [deltaSec, if_neg (UInt32.not_lt.mpr (UInt32.le_of_lt wrapped)), handElapsed_eq, secondsSince_eq,
    UInt32.toNat_div, UInt32.toNat_div, one, ← passed]
  exact pred_div_eq_iff some (by decide)

/-- No time recorded and the tick zero look the same. -/
theorem secondsSince_zero (now : UInt32) : secondsSince 0 now = 0 ↔ now < TICK_PER_SECOND := by
  have whole : now - 0 = now := UInt32.sub_zero now
  rw [secondsSince_eq, whole, UInt32.toNat_div, UInt32.lt_iff_toNat_lt]
  exact Nat.div_eq_zero_iff_lt (by decide)

theorem reportedSec_eq_iff (before now : UInt32) :
    (reportedSec before now).toNat = secondsSince before now ↔ Reported before now := by
  by_cases never : before = 0
  · -- 0 stands for no frame at all, so nothing is reported
    subst never
    have none : (reportedSec 0 now).toNat = 0 := rfl
    rw [none, eq_comm, secondsSince_zero]
    constructor
    · exact fun first => .inr (.inr ⟨rfl, first⟩)
    · rintro (⟨no, -⟩ | ⟨no, -⟩ | ⟨-, first⟩)
      · exact absurd rfl no
      · exact absurd rfl no
      · exact first
  · rw [reportedSec, if_pos never]
    by_cases later : before < now
    · exact iff_of_true (deltaSec_of_lt later) (.inl ⟨never, later⟩)
    by_cases same : before = now
    · -- the equal readings go the way of a wrap
      subst same
      rw [deltaSec_self, secondsSince_self]
      apply iff_of_false
      · decide
      · rintro (⟨-, less⟩ | ⟨-, less, -⟩ | ⟨no, -⟩)
        · exact later less
        · exact later less
        · exact never no
    · have wrapped : now < before := UInt32.lt_of_le_of_ne (UInt32.not_lt.mp later) (Ne.symm same)
      rw [deltaSec_of_gt wrapped]
      constructor
      · exact fun broken => .inr (.inl ⟨never, wrapped, broken⟩)
      · rintro (⟨-, less⟩ | ⟨-, -, broken⟩ | ⟨no, -⟩)
        · exact absurd less later
        · exact broken
        · exact absurd no never

end

/-- The time reported of a station that is in the table is the time since its last acknowledged frame
exactly where the clock has gone on from it without a wrap, or has wrapped and the distance is no whole number
of seconds, or nothing has been recorded yet and the first second is not over. -/
theorem inactive_sec_exact_iff (staMgmtGetSta : List UInt8 → Option Nat) (clock : FakeClock)
    (staInfoTab : Nat → StaInfoTag) (addr : List UInt8) (sec : UInt32) (i : Nat)
    (found : staMgmtGetSta addr = some i) :
    (∃ param, hapdGetStaInfo staMgmtGetSta clock staInfoTab (some ⟨addr, sec⟩) = (0, some param) ∧
        param.inactiveSec.toNat = secondsSince (staInfoTab i).preRxTimepoint clock.fclkGetTick) ↔
      Reported (staInfoTab i).preRxTimepoint clock.fclkGetTick := by
  rw [hapdGetStaInfo_found clock staInfoTab sec found, ← reportedSec_eq_iff]
  constructor
  · rintro ⟨param, result, exact⟩
    cases result
    exact exact
  · exact fun exact => ⟨_, rfl, exact⟩

/-- A thousand ticks over a wrap and one more. -/
theorem inactive_sec_exact_after_wrap :
    ∃ param,
      hapdGetStaInfo (fun _ => some 1) ⟨500, 0, 500⟩ (fun _ => ⟨0xFFFFFE0B⟩) (some ⟨[2, 0, 0, 0, 0, 7], 9⟩) =
        (0, some param) ∧
      param.inactiveSec.toNat = secondsSince 0xFFFFFE0B 500 :=
  (inactive_sec_exact_iff (fun _ => some 1) ⟨500, 0, 500⟩ (fun _ => ⟨0xFFFFFE0B⟩) [2, 0, 0, 0, 0, 7] 9 1
    rfl).mpr (by decide)

/-- A station whose frame has just been acknowledged is reported silent for fourteen weeks. -/
theorem fresh_station_inactive_for_weeks :
    ∃ tab,
      hapdPollCallback (fun _ => some 1) ⟨1000, 2, 500⟩ (fun _ => ⟨3⟩) 1 FRAME_SUCCESSFUL_TX_BIT =
        some tab ∧
      hapdGetStaInfo (fun _ => some 1) ⟨1000, 2, 500⟩ tab (some ⟨[2, 0, 0, 0, 0, 7], 0⟩) =
        (0, some ⟨[2, 0, 0, 0, 0, 7], 8589934⟩) ∧
      secondsSince (tab 1).preRxTimepoint 1000 = 0 :=
  ⟨_, rfl, rfl, by decide⟩

end Bk7251.Hostapd
