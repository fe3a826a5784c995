import Mathlib.Logic.Function.Basic
import Mathlib.Tactic.Common

/-!
# Role launch

`func/joint_up/role_launch.c`. Station and access-point launches wait in four entity
slots; a timer promotes, cancels and frees them. What `bk_wlan_start_sta`,
`bk_wlan_start_ap`, `bk_wlan_stop` and `demo_scan_app_init` do to the status words is
the parameter `wlan` of the functions that call them: they reach these words through
the setters below and never the slots.
-/
namespace Bk7251.JointUp

inductive Role
  | sta
  | ap
  deriving DecidableEq

def Role.other : Role → Role
  | .sta => .ap
  | .ap => .sta

/-- `LAUNCH_REQ_STA` and so on; `other` is any value the starts ignore. -/
inductive ReqType
  | sta
  | ap
  | pureStaScan
  | delifSta
  | delifAp
  | other

/-- `LAUNCH_REQ` with its description in `δ`. -/
structure LaunchReq (δ : Type) where
  descr : δ
  reqType : ReqType

inductive LaunchType
  | asap
  | reconn
  deriving DecidableEq

/-- `RL_ENTITY_T` at the address it was allocated at. -/
structure RlEntity (δ : Type) where
  addr : Nat
  launchType : LaunchType
  relaunchLimit : UInt32
  launchCount : UInt32
  rlaunch : LaunchReq δ

/-- `PRE_ENTITY_IDLE`, `PRE_ENTITY_STA` and `PRE_ENTITY_AP`. -/
inductive PreEntity
  | idle
  | of (role : Role)
  deriving DecidableEq

inductive LaunchStatus
  | over
  | cont

def rlStatusCancel : UInt32 := 0x8000
def rlStatusStaIniting : UInt32 := 1
def rlStatusStaScanning : UInt32 := 2
def rlStatusStaScanOver : UInt32 := 3
def rlStatusStaConnecting : UInt32 := 4
def rlStatusStaDhcping : UInt32 := 5
def rlStatusMroleChannelSwitching : UInt32 := 6
def rlStatusMroleChannelSwitched : UInt32 := 7
def rlStatusStaLaunched : UInt32 := 9
def rlStatusStaLaunchFailed : UInt32 := 10
def rlStatusApTransmittedBcn : UInt32 := 0x14
def rlStatusApLaunched : UInt32 := 0x15

/-- The cancel flags, the status words and `g_mrole_csa_flag`. -/
structure PreStatus where
  preStaCancel : Bool
  preStaStatus : UInt32
  preApCancel : Bool
  preApStatus : UInt32
  csaFlag : UInt32

namespace PreStatus

def rlPreStaInit (st : PreStatus) : PreStatus := { st with preStaCancel := false, preStaStatus := 0 }

def rlPreApInit (st : PreStatus) : PreStatus := { st with preApCancel := false, preApStatus := 0 }

def rlPreStaSetCancel (st : PreStatus) : PreStatus := { st with preStaCancel := true }

def rlPreApSetCancel (st : PreStatus) : PreStatus := { st with preApCancel := true }

def rlPreStaClearCancel (st : PreStatus) : PreStatus := { st with preStaCancel := false }

def rlPreApClearCancel (st : PreStatus) : PreStatus := { st with preApCancel := false }

def rlInitCsaStatus (st : PreStatus) : PreStatus := { st with csaFlag := 0 }

/-- The new words and whether the switch was refused. -/
def rlSetCsaSwitching (st : PreStatus) : PreStatus × Bool :=
  if st.preStaCancel || st.preApCancel then (st, true)
  else ({ st with csaFlag := rlStatusMroleChannelSwitching }, false)

def rlSetCsaSwitched (st : PreStatus) : PreStatus :=
  { st with csaFlag := rlStatusMroleChannelSwitched }

/-- The new words and the returned `cancel`. -/
def rlPreStaSetStatus (st : PreStatus) (status : UInt32) : PreStatus × UInt32 :=
  if status = rlStatusStaScanning ∧ st.preStaStatus ≠ rlStatusStaIniting ∧
      st.preStaStatus ≠ rlStatusStaScanOver then (st, 6)
  else if status = rlStatusStaScanning ∧ st.preStaCancel then (st, 8)
  else ({ st with preStaStatus := status }, if st.preStaCancel then 1 else 0)

/-- The new words and the returned `cancel`. -/
def rlPreApSetStatus (st : PreStatus) (status : UInt32) : PreStatus × UInt32 :=
  ({ st with preApStatus := if st.preApCancel then status + rlStatusCancel else status },
    if st.preApCancel then 1 else 0)

def rlStaMayNextLaunch (st : PreStatus) : UInt32 :=
  let yes : UInt32 :=
    if st.csaFlag = rlStatusMroleChannelSwitched then 1
    else if st.preStaCancel ∧ (st.preStaStatus = rlStatusStaDhcping ∨
        st.preStaStatus = rlStatusStaIniting ∨ st.preStaStatus = rlStatusStaScanOver ∨
        st.preStaStatus = rlStatusStaConnecting) then 2
    else if st.preStaStatus = rlStatusStaLaunchFailed then 3
    else if st.preStaStatus = rlStatusStaLaunched then 4
    else 0
  if st.csaFlag = rlStatusMroleChannelSwitching then 0 else yes

def rlApMayNextLaunch (st : PreStatus) (preCancel : Bool) : UInt32 :=
  if !preCancel then 1
  else
    let yes : UInt32 :=
      if st.preApStatus = rlStatusApTransmittedBcn + rlStatusCancel ∨
        st.preApStatus &&& ~~~rlStatusCancel = rlStatusApLaunched then 1 else 0
    if st.csaFlag = rlStatusMroleChannelSwitching then 0 else yes

end PreStatus

/-- `jl_previous_sta`, `jl_following_sta` and their access-point counterparts. -/
structure Slots (δ : Type) where
  previous : Option (RlEntity δ)
  following : Option (RlEntity δ)

/-- `g_role_launch`, `g_rl_socket` and `g_sta_cache`; a timer is on when it was started and
has not fired yet, and `live` are the addresses of the entities allocated and not freed. -/
structure RlT (δ : Type) where
  rlTimer : Bool
  enterTimer : Bool
  preEntityType : PreEntity
  status : PreStatus
  slots : Role → Slots δ
  socket : Role → Option (LaunchReq δ)
  staCache : Option (LaunchReq δ)
  live : List Nat

namespace RlT

variable {δ : Type} (wlan : LaunchReq δ → PreStatus → PreStatus)

def init : RlT δ where
  rlTimer := false
  enterTimer := false
  preEntityType := .idle
  status := ⟨false, 0, false, 0, 0⟩
  slots := fun _ => ⟨none, none⟩
  socket := fun _ => none
  staCache := none
  live := []

/-- `rl_alloc_entity`: `os_zalloc` clears the relaunch counters. -/
def rlAllocEntity (addr : Nat) (param : LaunchReq δ) : RlEntity δ :=
  ⟨addr, .asap, 0, 0, param⟩

def rlFreeEntity (s : RlT δ) (e : RlEntity δ) : RlT δ := { s with live := s.live.erase e.addr }

def rlStart (s : RlT δ) : RlT δ := { s with rlTimer := true }

def rlStaRequestStart (req : LaunchReq δ) (st : PreStatus) : PreStatus :=
  match req.reqType with
  | .sta => wlan req st.rlPreStaInit
  | .pureStaScan => wlan req st.rlPreStaInit
  | .delifSta => wlan req st
  | _ => st

def rlApRequestStart (req : LaunchReq δ) (st : PreStatus) : PreStatus :=
  match req.reqType with
  | .ap => wlan req st.rlPreApInit
  | .delifAp => wlan req st
  | _ => st

def setSlots (s : RlT δ) (role : Role) (slots : Slots δ) : RlT δ :=
  { s with slots := Function.update s.slots role slots }

/-- What `_sta_request_enter` and `_ap_request_enter` share: start at once, queue behind
what runs, or refuse. -/
def requestEnter (start : LaunchReq δ → PreStatus → PreStatus) (role : Role) (addr : Nat)
    (param : LaunchReq δ) (s : RlT δ) : RlT δ × UInt32 :=
  let entity := rlAllocEntity addr param
  let preEntityType := if s.preEntityType = .idle then .of role else s.preEntityType
  -- `preEntityType` is not changed by a direct start once it names a role
  if (s.slots .ap).previous.isNone ∧ (s.slots .sta).previous.isNone then
    ({ s.setSlots role { s.slots role with previous := some entity } with
      status := start param s.status
      preEntityType
      live := addr :: s.live }, 1)
  else if (s.slots role).following.isNone then
    ({ (s.setSlots role { s.slots role with following := some entity }).rlStart with
      preEntityType
      live := addr :: s.live }, 2)
  else (s.rlStart, 0)

def staRequestEnter : Nat → LaunchReq δ → RlT δ → RlT δ × UInt32 :=
  requestEnter (rlStaRequestStart wlan) .sta

def apRequestEnter : Nat → LaunchReq δ → RlT δ → RlT δ × UInt32 :=
  requestEnter (rlApRequestStart wlan) .ap

/-- The previous launch is cancelled for a following one that is to run as soon as possible,
and when it was relaunched too often. -/
def cancelPre (setCancel : PreStatus → PreStatus) (role : Role) (preEntity : RlEntity δ)
    (s : RlT δ) : PreStatus × Bool :=
  let cancel :=
    (s.slots role).following.any (fun entity => entity.launchType = .asap) ||
      (preEntity.relaunchLimit ≠ 0 && preEntity.launchCount ≥ preEntity.relaunchLimit)
  (if cancel then setCancel s.status else s.status, cancel)

/-- What `rl_launch_sta` and `rl_launch_ap` share: `setCancel` and `mayNext` are the role's
cancel flag and its check, which is told whether this round cancels. -/
def launch (setCancel : PreStatus → PreStatus) (mayNext : PreStatus → Bool → UInt32)
    (start : LaunchReq δ → PreStatus → PreStatus) (role : Role) (s : RlT δ) :
    RlT δ × LaunchStatus :=
  match (s.slots role).previous with
  | none =>
    match (s.slots role).following with
    | none => (s, .over)
    | some entity =>
      ({ s.setSlots role ⟨some entity, none⟩ with status := start entity.rlaunch s.status }, .cont)
  | some preEntity =>
    let (status, cancel) := s.cancelPre setCancel role preEntity
    -- the previous launch is over, and what follows it takes its place
    if mayNext status cancel ≠ 0 then
      let s := { s.rlFreeEntity preEntity with status }
      match (s.slots role).following with
      | none => (s.setSlots role ⟨none, none⟩, .over)
      | some entity =>
        ({ s.setSlots role ⟨some entity, none⟩ with status := start entity.rlaunch status }, .cont)
    else ({ s with status }, .cont)

def rlLaunchSta : RlT δ → RlT δ × LaunchStatus :=
  launch PreStatus.rlPreStaSetCancel (fun st _ => st.rlStaMayNextLaunch)
    (rlStaRequestStart wlan) .sta

def rlLaunchAp : RlT δ → RlT δ × LaunchStatus :=
  launch PreStatus.rlPreApSetCancel PreStatus.rlApMayNextLaunch
    (fun req st => rlApRequestStart wlan req st.rlPreApInit) .ap

def rlLaunch : Role → RlT δ → RlT δ × LaunchStatus
  | .sta => rlLaunchSta wlan
  | .ap => rlLaunchAp wlan

/-- The timer callback; `rl_relaunch_chance` starts the timer again. -/
def rlLaunchHandler (s : RlT δ) : RlT δ :=
  match s.preEntityType with
  | .idle => s
  | .of role =>
    match rlLaunch wlan role s with
    | (s, .cont) => s.rlStart
    | (s, .over) =>
      match rlLaunch wlan role.other { s with preEntityType := .of role.other } with
      | (s, .cont) => s.rlStart
      | (s, .over) => s

/-- `rl_sta_request_enter` and `rl_ap_request_enter`. -/
def requestSocket (role : Role) (param : LaunchReq δ) (s : RlT δ) : RlT δ :=
  { s with socket := Function.update s.socket role (some param), enterTimer := true }

def rlStaCacheRequestEnter (monitorMode : Bool) (s : RlT δ) : RlT δ :=
  match s.staCache, monitorMode with
  | some param, false => { requestSocket .sta param s with staCache := none }
  | _, _ => { s with staCache := none }

/-- The station part of `rl_enter_handler`. -/
def enterSta (addr : Nat) (hitSta : Option (LaunchReq δ)) (s : RlT δ) : RlT δ :=
  match hitSta with
  | none => s
  | some param =>
    match staRequestEnter wlan addr param s with
    | (s, 0) => s
    | (s, _) => { s with staCache := some param }

/-- The access-point part of `rl_enter_handler`. -/
def enterAp (addr : Nat) (hitAp : Option (LaunchReq δ)) (s : RlT δ) : RlT δ :=
  match hitAp with
  | none => s
  | some param => (apRequestEnter wlan addr param s).1

/-- The timer callback, once its buffer is allocated; the entities it allocates come to
`staAddr` and `apAddr`. -/
def rlEnterHandler (staAddr apAddr : Nat) (s : RlT δ) : RlT δ :=
  enterAp wlan apAddr (s.socket .ap)
    (enterSta wlan staAddr (s.socket .sta) { s with socket := fun _ => none })

/-- One event of the system. -/
inductive Act (δ : Type)
  | request (role : Role) (param : LaunchReq δ)
  | cachedRequest (monitorMode : Bool)
  | enterTimer (memory : Bool) (staAddr apAddr : Nat)
  | launchTimer
  | staStatus (status : UInt32)
  | apStatus (status : UInt32)
  | staCancel (on : Bool)
  | apCancel (on : Bool)
  | csaInit
  | csaSwitching
  | csaSwitched

/-- A timer that is off does not fire; one that fires is off until it is started again. -/
def step (s : RlT δ) : Act δ → RlT δ
  | .request role param => requestSocket role param s
  | .cachedRequest monitorMode => rlStaCacheRequestEnter monitorMode s
  | .enterTimer memory staAddr apAddr =>
    if !s.enterTimer then s
    else if !memory then { s with enterTimer := false }
    else rlEnterHandler wlan staAddr apAddr { s with enterTimer := false }
  | .launchTimer => if s.rlTimer then rlLaunchHandler wlan { s with rlTimer := false } else s
  | .staStatus status => { s with status := (s.status.rlPreStaSetStatus status).1 }
  | .apStatus status => { s with status := (s.status.rlPreApSetStatus status).1 }
  | .staCancel on => { s with
      status := if on then s.status.rlPreStaSetCancel else s.status.rlPreStaClearCancel }
  | .apCancel on => { s with
      status := if on then s.status.rlPreApSetCancel else s.status.rlPreApClearCancel }
  | .csaInit => { s with status := s.status.rlInitCsaStatus }
  | .csaSwitching => { s with status := s.status.rlSetCsaSwitching.1 }
  | .csaSwitched => { s with status := s.status.rlSetCsaSwitched }

end RlT

end Bk7251.JointUp
