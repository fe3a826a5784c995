import Bk7251.JointUp.RoleLaunch
import Bk7251.Lib.Machine

/-!
# One launch at a time

While no request is queued into the role that `pre_entity_type` already names, behind a
launch of the other role, at most one of the two previous entities is there and what waits
is promoted in turn. A direct start leaves `pre_entity_type` as it was, so that type may
name the idle role; a request of that role is then queued and started beside the other.
-/
namespace Bk7251.JointUp

open Lib

@[simp] theorem Role.other_other (role : Role) : role.other.other = role := by cases role <;> rfl

theorem Role.other_ne (role : Role) : role.other ≠ role := by cases role <;> nofun

theorem forall_role {p : Role → Prop} (role : Role) : (∀ r, p r) ↔ p role ∧ p role.other := by
  constructor
  · exact fun all => ⟨all _, all _⟩
  · rintro ⟨this, that⟩ r
    cases role <;> cases r <;> assumption

/-- The addresses in the slots of one role. -/
def Slots.addrs {δ : Type} (slots : Slots δ) : List Nat :=
  (slots.previous.map RlEntity.addr).toList ++ (slots.following.map RlEntity.addr).toList

namespace RlT

variable {δ : Type} (wlan : LaunchReq δ → PreStatus → PreStatus)

/-- The addresses in the four slots. -/
def addrs (s : RlT δ) : List Nat := (s.slots .sta).addrs ++ (s.slots .ap).addrs

/-- `os_zalloc` returns memory that is not in use. -/
def Allocates (s : RlT δ) : Act δ → Prop
  | .enterTimer _ staAddr apAddr => staAddr ∉ s.live ∧ apAddr ∉ staAddr :: s.live
  | _ => True

instance (s : RlT δ) (a : Act δ) : Decidable (Allocates s a) := by
  unfold Allocates
  split <;> infer_instance

/-- A request of `role` is queued although it is the role `pre_entity_type` names and the
other role is running. -/
def Misqueued (role : Role) (s : RlT δ) : Prop :=
  (s.slots role).following.isNone ∧ s.preEntityType = .of role ∧
    (s.slots role.other).previous.isSome

instance (role : Role) (s : RlT δ) : Decidable (Misqueued role s) :=
  inferInstanceAs (Decidable (_ ∧ _ ∧ _))

/-- The enter timer misqueues the station request or, after it, the access-point request. -/
def Misqueues (s : RlT δ) : Act δ → Prop
  | .enterTimer memory staAddr _ =>
    let taken := { s with enterTimer := false, socket := fun _ => none }
    s.enterTimer ∧ memory ∧ ((s.socket .sta).isSome ∧ Misqueued .sta taken ∨
      (s.socket .ap).isSome ∧ Misqueued .ap (enterSta wlan staAddr (s.socket .sta) taken))
  | _ => False

instance (s : RlT δ) (a : Act δ) : Decidable (Misqueues wlan s a) := by
  unfold Misqueues
  split <;> infer_instance

/-- What a round of `rl_launch_sta` or `rl_launch_ap` does to the slots. -/
inductive Launched (s : RlT δ) (role : Role) (t : RlT δ) : LaunchStatus → Prop
  | empty (slots : t.slots = s.slots) (live : t.live = s.live)
    (previous : (s.slots role).previous = none) (following : (s.slots role).following = none) :
    Launched s role t .over
  | waiting (slots : t.slots = s.slots) (live : t.live = s.live)
    (previous : (s.slots role).previous.isSome) : Launched s role t .cont
  | first (entity : RlEntity δ) (slots : t.slots = Function.update s.slots role ⟨some entity, none⟩)
    (live : t.live = s.live) (previous : (s.slots role).previous = none)
    (following : (s.slots role).following = some entity) : Launched s role t .cont
  | next (preEntity entity : RlEntity δ)
    (slots : t.slots = Function.update s.slots role ⟨some entity, none⟩)
    (live : t.live = s.live.erase preEntity.addr)
    (previous : (s.slots role).previous = some preEntity)
    (following : (s.slots role).following = some entity) : Launched s role t .cont
  | last (preEntity : RlEntity δ) (slots : t.slots = Function.update s.slots role ⟨none, none⟩)
    (live : t.live = s.live.erase preEntity.addr)
    (previous : (s.slots role).previous = some preEntity)
    (following : (s.slots role).following = none) : Launched s role t .over

theorem launch_launched (setCancel : PreStatus → PreStatus) (mayNext : PreStatus → Bool → UInt32)
    (start : LaunchReq δ → PreStatus → PreStatus) (role : Role) (s : RlT δ) :
    Launched s role (launch setCancel mayNext start role s).1
        (launch setCancel mayNext start role s).2 ∧
      (launch setCancel mayNext start role s).1.preEntityType = s.preEntityType := by
  -- one case for each way through the function
  unfold launch
  split
  next previous =>
    split
    next following => exact ⟨.empty rfl rfl previous following, rfl⟩
    next entity following => exact ⟨.first entity rfl rfl previous following, rfl⟩
  next preEntity previous =>
    simp only
    split
    next =>
      split
      next following => exact ⟨.last preEntity rfl rfl previous following, rfl⟩
      next entity following => exact ⟨.next preEntity entity rfl rfl previous following, rfl⟩
    next => exact ⟨.waiting rfl rfl (by simp [previous]), rfl⟩

theorem rlLaunch_launched (role : Role) (s : RlT δ) :
    Launched s role (rlLaunch wlan role s).1 (rlLaunch wlan role s).2 ∧
      (rlLaunch wlan role s).1.preEntityType = s.preEntityType := by
  cases role <;> exact launch_launched _ _ _ _ s

/-- What `_sta_request_enter` or `_ap_request_enter` does to the slots. -/
inductive Entered (s : RlT δ) (role : Role) (entity : RlEntity δ) (t : RlT δ) : Prop
  | started (slots : t.slots =
      Function.update s.slots role { s.slots role with previous := some entity })
    (live : t.live = entity.addr :: s.live)
    (free : ∀ role, (s.slots role).previous = none)
    (type : t.preEntityType =
      if s.preEntityType = .idle then .of role else s.preEntityType) : Entered s role entity t
  | queued (slots : t.slots =
      Function.update s.slots role { s.slots role with following := some entity })
    (live : t.live = entity.addr :: s.live)
    (busy : ¬∀ role, (s.slots role).previous = none) (room : (s.slots role).following = none)
    (type : t.preEntityType = if s.preEntityType = .idle then .of role else s.preEntityType)
    (timer : t.rlTimer = true) : Entered s role entity t
  | refused (slots : t.slots = s.slots) (live : t.live = s.live)
    (full : (s.slots role).following.isSome) (type : t.preEntityType = s.preEntityType)
    (timer : t.rlTimer = true) : Entered s role entity t

theorem requestEnter_entered (start : LaunchReq δ → PreStatus → PreStatus) (role : Role)
    (addr : Nat) (param : LaunchReq δ) (s : RlT δ) :
    Entered s role (rlAllocEntity addr param) (requestEnter start role addr param s).1 := by
  have both : ((s.slots .ap).previous.isNone ∧ (s.slots .sta).previous.isNone) ↔
      ∀ role, (s.slots role).previous = none := by
    constructor
    · rintro ⟨ap, sta⟩ (_ | _)
      · simpa using sta
      · simpa using ap
    · intro free
      simp [free]
  unfold requestEnter
  simp only
  split
  next free => exact .started rfl rfl (both.mp free) rfl
  next busy =>
    split
    next room => exact .queued rfl rfl (mt both.mpr busy) (by simpa using room) rfl rfl
    next full => exact .refused rfl rfl (by simpa [← Option.isSome_iff_ne_none] using full) rfl rfl

/-! ### No slot aliases another -/

/-- The four slots hold distinct entities, none of them freed. -/
structure Distinct (s : RlT δ) : Prop where
  nodup : s.addrs.Nodup
  live : ∀ addr ∈ s.addrs, addr ∈ s.live

theorem addrs_congr {s t : RlT δ} (slots : t.slots = s.slots) : t.addrs = s.addrs := by
  simp [addrs, slots]

theorem Distinct.congr {s t : RlT δ} (distinct : Distinct s) (slots : t.slots = s.slots)
    (live : t.live = s.live) : Distinct t :=
  ⟨addrs_congr slots ▸ distinct.nodup, addrs_congr slots ▸ live ▸ distinct.live⟩

/-- The slots of `role`, and those of the other role in front of or behind them. -/
theorem addrs_perm (s : RlT δ) (role : Role) :
    s.addrs.Perm ((s.slots role).addrs ++ (s.slots role.other).addrs) := by
  cases role with
  | sta => exact List.Perm.refl _
  | ap => exact List.perm_append_comm

theorem addrs_update {s t : RlT δ} {role : Role} {slots : Slots δ}
    (changed : t.slots = Function.update s.slots role slots) :
    t.addrs.Perm (slots.addrs ++ (s.slots role.other).addrs) := by
  have perm := addrs_perm t role
  rwa [changed, Function.update_self, Function.update_of_ne role.other_ne] at perm

/-- The following entity moves up and the previous one is freed. -/
theorem Distinct.promote {s t : RlT δ} {role : Role} (distinct : Distinct s)
    (slots : t.slots = Function.update s.slots role ⟨(s.slots role).following, none⟩)
    (live : t.live = s.live ∨ ∃ preEntity, (s.slots role).previous = some preEntity ∧
      t.live = s.live.erase preEntity.addr) : Distinct t := by
  have before := addrs_perm s role
  have after := addrs_update slots
  have nodup := before.nodup_iff.mp distinct.nodup
  -- no address is new, and the one that is freed is in no slot any more
  have kept : ∀ addr ∈ t.addrs, addr ∈ s.addrs := by
    intro addr member
    have inAfter := after.mem_iff.mp member
    apply before.mem_iff.mpr
    simp only [Slots.addrs, Option.map_none, Option.toList_none, List.append_nil,
      List.mem_append] at inAfter ⊢
    tauto
  constructor
  · refine after.nodup_iff.mpr (nodup.sublist ?_)
    simp [Slots.addrs]
  · intro addr member
    have inLive := distinct.live addr (kept addr member)
    rcases live with same | ⟨preEntity, previous, erased⟩
    · rwa [same]
    · rw [erased]
      refine (List.mem_erase_of_ne ?_).mpr inLive
      rintro rfl
      have inAfter := after.mem_iff.mp member
      simp only [Slots.addrs, previous, Option.map_some, Option.toList_some,
        List.cons_append, List.nodup_cons] at nodup
      apply nodup.1
      simpa [Slots.addrs] using inAfter

theorem Launched.distinct {s t : RlT δ} {role : Role} {status : LaunchStatus}
    (launched : Launched s role t status) (distinct : Distinct s) : Distinct t := by
  cases launched with
  | empty slots live => exact distinct.congr slots live
  | waiting slots live => exact distinct.congr slots live
  | first entity slots live previous following =>
    exact distinct.promote (by rw [slots, following]) (Or.inl live)
  | next preEntity entity slots live previous following =>
    exact distinct.promote (by rw [slots, following]) (Or.inr ⟨preEntity, previous, live⟩)
  | last preEntity slots live previous following =>
    exact distinct.promote (by rw [slots, following]) (Or.inr ⟨preEntity, previous, live⟩)

/-- A fresh entity goes into an empty slot. -/
theorem Distinct.add {s t : RlT δ} {role : Role} {slots : Slots δ} {addr : Nat}
    (distinct : Distinct s) (changed : t.slots = Function.update s.slots role slots)
    (added : slots.addrs.Perm (addr :: (s.slots role).addrs)) (live : t.live = addr :: s.live)
    (fresh : addr ∉ s.live) : Distinct t := by
  have perm : t.addrs.Perm (addr :: s.addrs) :=
    ((addrs_update changed).trans (added.append_right _)).trans
      ((addrs_perm s role).symm.cons addr)
  constructor
  · refine perm.nodup_iff.mpr (List.nodup_cons.mpr ⟨fun member => ?_, distinct.nodup⟩)
    exact fresh (distinct.live addr member)
  · intro other member
    rw [live]
    rcases List.mem_cons.mp (perm.mem_iff.mp member) with rfl | old
    · exact List.mem_cons_self
    · exact List.mem_cons_of_mem _ (distinct.live other old)

theorem Entered.distinct {s t : RlT δ} {role : Role} {entity : RlEntity δ}
    (entered : Entered s role entity t) (distinct : Distinct s) (fresh : entity.addr ∉ s.live) :
    Distinct t := by
  cases entered with
  | started slots live free =>
    refine distinct.add slots ?_ live fresh
    simp [Slots.addrs, free role]
  | queued slots live busy room =>
    refine distinct.add slots ?_ live fresh
    simp only [Slots.addrs, room, Option.map_some, Option.toList_some, Option.map_none,
      Option.toList_none, List.append_nil]
    exact List.perm_append_singleton _ _
  | refused slots live => exact distinct.congr slots live

/-! ### At most one previous entity -/

/-- What keeps launches apart. -/
structure Serial (s : RlT δ) : Prop where
  one : ∀ role, (s.slots role).previous.isSome → (s.slots role.other).previous = none
  queued : ∀ role, s.preEntityType = .of role → (s.slots role.other).previous.isSome →
    (s.slots role).following = none
  drained : (∀ role, (s.slots role).previous = none) → ∀ role, (s.slots role).following = none
  idle : s.preEntityType = .idle → ∀ role, (s.slots role).previous = none

theorem Serial.congr {s t : RlT δ} (serial : Serial s) (slots : t.slots = s.slots)
    (type : t.preEntityType = s.preEntityType) : Serial t := by
  obtain ⟨one, queued, drained, idle⟩ := serial
  exact ⟨slots ▸ one, by rw [slots, type]; exact queued, slots ▸ drained, by rw [slots, type]; exact idle⟩

/-- `Serial` once `pre_entity_type` names a role, in terms of the four slots. -/
theorem serial_of {s : RlT δ} (role : Role) (type : s.preEntityType = .of role)
    (one : (s.slots role).previous.isSome → (s.slots role.other).previous = none)
    (queued : (s.slots role.other).previous.isSome → (s.slots role).following = none)
    (drained : (s.slots role).previous = none → (s.slots role.other).previous = none →
      (s.slots role).following = none ∧ (s.slots role.other).following = none) : Serial s := by
  refine ⟨(forall_role role).mpr ⟨one, ?_⟩, ?_, fun free => ?_, ?_⟩
  · rw [Role.other_other]
    intro that
    cases this : (s.slots role).previous with
    | none => rfl
    | some _ => simp [one (by simp [this])] at that
  · intro named same
    obtain rfl : role = named := by simpa [type] using same
    exact queued
  · exact (forall_role role).mpr (drained (free _) (free _))
  · intro idle
    simp [type] at idle

theorem Entered.serial {s t : RlT δ} {role : Role} {entity : RlEntity δ}
    (entered : Entered s role entity t) (serial : Serial s) (ok : ¬Misqueued role s) :
    Serial t := by
  obtain ⟨one, queued, drained, idle⟩ := serial
  cases entered with
  | started slots live free type =>
    -- a direct start finds no launch, hence no request that waits
    have empty := drained free
    obtain ⟨named, type⟩ : ∃ named, t.preEntityType = .of named := by
      rw [type]
      split
      · exact ⟨role, rfl⟩
      · next some =>
        cases kind : s.preEntityType with
        | idle => exact absurd kind some
        | of named => exact ⟨named, rfl⟩
    have following : ∀ r, (t.slots r).following = none := by
      refine (forall_role role).mpr ⟨?_, ?_⟩
      · simpa [slots] using empty role
      · simpa [slots, role.other_ne] using empty role.other
    refine ⟨(forall_role role).mpr ⟨?_, ?_⟩, fun r _ _ => following r, fun _ => following, ?_⟩
    · simp [slots, role.other_ne, free]
    · simp [slots, role.other_ne, free]
    · intro idle
      simp [type] at idle
  | queued slots live busy room type =>
    have some : s.preEntityType ≠ .idle := fun none => busy (idle none)
    rw [if_neg some] at type
    have previous : ∀ r, (t.slots r).previous = (s.slots r).previous :=
      (forall_role role).mpr ⟨by simp [slots], by simp [slots, role.other_ne]⟩
    refine ⟨?_, ?_, ?_, ?_⟩
    · simpa only [previous] using one
    · refine (forall_role role).mpr ⟨fun same that => ?_, fun same this => ?_⟩
      · exact absurd ⟨by simp [room], type ▸ same, previous _ ▸ that⟩ ok
      · rw [slots, Function.update_of_ne role.other_ne]
        exact queued role.other (type ▸ same) (previous _ ▸ this)
    · intro free
      exact absurd (fun r => previous r ▸ free r) busy
    · intro none
      exact absurd (type ▸ none) some
  | refused slots live full type =>
    exact Serial.congr ⟨one, queued, drained, idle⟩ slots type

/-- The round of the other role, with nothing left to launch in this one. -/
theorem Launched.second {s t : RlT δ} {role : Role} {status : LaunchStatus}
    (launched : Launched s role t status) (type : t.preEntityType = .of role)
    (previous : (s.slots role.other).previous = none)
    (following : (s.slots role.other).following = none) : Serial t := by
  cases launched with
  | empty slots live none none' =>
    exact serial_of role type (by simp [slots, none]) (by simp [slots, previous])
      (by simp [slots, none', following])
  | waiting slots live some =>
    refine serial_of role type (by simp [slots, previous]) (by simp [slots, previous]) ?_
    intro none
    simp [slots ▸ none] at some
  | first entity slots =>
    exact serial_of role type (by simp [slots, role.other_ne, previous])
      (by simp [slots]) (by simp [slots])
  | next preEntity entity slots =>
    exact serial_of role type (by simp [slots, role.other_ne, previous])
      (by simp [slots]) (by simp [slots])
  | last preEntity slots =>
    exact serial_of role type (by simp [slots]) (by simp [slots])
      (by simp [slots, role.other_ne, following])

theorem rlLaunchHandler_serial (s : RlT δ) (serial : Serial s) :
    Serial (rlLaunchHandler wlan s) := by
  unfold rlLaunchHandler
  split
  next => exact serial
  next role type =>
    obtain ⟨launched, kept⟩ := rlLaunch_launched wlan role s
    have rest : ∀ t : RlT δ, (t.slots role).previous = none → (t.slots role).following = none →
        Serial (rlLaunch wlan role.other { t with preEntityType := .of role.other }).1 := by
      intro t previous following
      obtain ⟨launched, kept⟩ :=
        rlLaunch_launched wlan role.other { t with preEntityType := .of role.other }
      exact launched.second kept (by simpa using previous) (by simpa using following)
    obtain ⟨one, queued, drained, idle⟩ := serial
    generalize rlLaunch wlan role s = result at launched kept
    obtain ⟨t, status⟩ := result
    simp only at launched kept
    cases launched with
    | empty slots live previous following =>
      have done := rest t (slots ▸ previous) (slots ▸ following)
      dsimp only
      split
      next result => rw [result] at done; exact done.congr rfl rfl
      next result => rw [result] at done; exact done
    | waiting slots live previous =>
      exact Serial.congr ⟨one, queued, drained, idle⟩ slots kept
    | first entity slots live previous following =>
      exfalso
      cases that : (s.slots role.other).previous with
      | none => simp [drained ((forall_role role).mpr ⟨previous, that⟩) role] at following
      | some _ => simp [queued role type (by simp [that])] at following
    | next preEntity entity slots live previous following =>
      have that := one role (by simp [previous])
      have started : Serial t := serial_of role (kept.trans type)
        (by simp [slots, role.other_ne, that]) (by simp [slots]) (by simp [slots])
      exact started.congr rfl rfl
    | last preEntity slots live previous following =>
      have done := rest t (by simp [slots]) (by simp [slots])
      dsimp only
      split
      next result => rw [result] at done; exact done.congr rfl rfl
      next result => rw [result] at done; exact done

/-! ### Runs -/

theorem init_serial : Serial (init : RlT δ) :=
  ⟨fun _ => nofun, fun _ => nofun, fun _ _ => rfl, fun _ _ => rfl⟩

theorem init_distinct : Distinct (init : RlT δ) := ⟨List.nodup_nil, nofun⟩

theorem enterSta_entered (addr : Nat) (hit : Option (LaunchReq δ)) (s : RlT δ) :
    hit = none ∧ enterSta wlan addr hit s = s ∨
      ∃ param, hit = some param ∧
        Entered s .sta (rlAllocEntity addr param) (enterSta wlan addr hit s) := by
  unfold enterSta
  split
  next => exact Or.inl ⟨rfl, rfl⟩
  next param =>
    have entered := requestEnter_entered (rlStaRequestStart wlan) .sta addr param s
    refine Or.inr ⟨param, rfl, ?_⟩
    split
    next result =>
      rw [staRequestEnter] at result
      rwa [result] at entered
    next result =>
      rw [staRequestEnter] at result
      rw [result] at entered
      cases entered with
      | started slots live free type => exact .started slots live free type
      | queued slots live busy room type timer => exact .queued slots live busy room type timer
      | refused slots live full type timer => exact .refused slots live full type timer

theorem enterAp_entered (addr : Nat) (hit : Option (LaunchReq δ)) (s : RlT δ) :
    hit = none ∧ enterAp wlan addr hit s = s ∨
      ∃ param, hit = some param ∧
        Entered s .ap (rlAllocEntity addr param) (enterAp wlan addr hit s) := by
  unfold enterAp
  split
  next => exact Or.inl ⟨rfl, rfl⟩
  next param =>
    exact Or.inr ⟨param, rfl, requestEnter_entered (rlApRequestStart wlan) .ap addr param s⟩

theorem Entered.live_subset {s t : RlT δ} {role : Role} {entity : RlEntity δ}
    (entered : Entered s role entity t) : ∀ addr ∈ t.live, addr = entity.addr ∨ addr ∈ s.live := by
  cases entered with
  | started slots live => simp [live]
  | queued slots live => simp [live]
  | refused slots live => exact fun addr member => Or.inr (live ▸ member)

theorem rlEnterHandler_distinct (staAddr apAddr : Nat) (s : RlT δ) (distinct : Distinct s)
    (staFresh : staAddr ∉ s.live) (apFresh : apAddr ∉ staAddr :: s.live) :
    Distinct (rlEnterHandler wlan staAddr apAddr s) := by
  have taken : Distinct { s with socket := fun _ => none } := distinct.congr rfl rfl
  obtain ⟨middle, apFresh⟩ : Distinct (enterSta wlan staAddr (s.socket .sta)
        { s with socket := fun _ => none }) ∧ apAddr ∉ (enterSta wlan staAddr (s.socket .sta)
        { s with socket := fun _ => none }).live := by
    rcases enterSta_entered wlan staAddr (s.socket .sta) { s with socket := fun _ => none } with
      ⟨-, same⟩ | ⟨param, -, entered⟩
    · rw [same]
      exact ⟨taken, fun member => apFresh (List.mem_cons_of_mem _ member)⟩
    · refine ⟨entered.distinct taken staFresh, fun member => apFresh ?_⟩
      rcases entered.live_subset _ member with rfl | old
      · exact List.mem_cons_self
      · exact List.mem_cons_of_mem _ old
  -- the access point's entity is fresh beside the station's
  rcases enterAp_entered wlan apAddr (s.socket .ap) _ with ⟨-, same⟩ | ⟨param, -, entered⟩
  · rw [rlEnterHandler, same]
    exact middle
  · exact entered.distinct middle apFresh

theorem rlEnterHandler_serial (staAddr apAddr : Nat) (s : RlT δ) (serial : Serial s)
    (staOk : ¬((s.socket .sta).isSome ∧ Misqueued .sta { s with socket := fun _ => none }))
    (apOk : ¬((s.socket .ap).isSome ∧ Misqueued .ap
      (enterSta wlan staAddr (s.socket .sta) { s with socket := fun _ => none }))) :
    Serial (rlEnterHandler wlan staAddr apAddr s) := by
  have taken : Serial { s with socket := fun _ => none } := serial.congr rfl rfl
  have middle : Serial (enterSta wlan staAddr (s.socket .sta)
      { s with socket := fun _ => none }) := by
    rcases enterSta_entered wlan staAddr (s.socket .sta) { s with socket := fun _ => none } with
      ⟨-, same⟩ | ⟨param, hit, entered⟩
    · rwa [same]
    · exact entered.serial taken fun mis => staOk ⟨by simp [hit], mis⟩
  rcases enterAp_entered wlan apAddr (s.socket .ap) _ with ⟨-, same⟩ | ⟨param, hit, entered⟩
  · rw [rlEnterHandler, same]
    exact middle
  · exact entered.serial middle fun mis => apOk ⟨by simp [hit], mis⟩

theorem rlLaunchHandler_distinct (s : RlT δ) (distinct : Distinct s) :
    Distinct (rlLaunchHandler wlan s) := by
  unfold rlLaunchHandler
  split
  next => exact distinct
  next role type =>
    have first := (rlLaunch_launched wlan role s).1.distinct distinct
    split
    next t result =>
      rw [result] at first
      exact first.congr rfl rfl
    next t result =>
      rw [result] at first
      have second := (rlLaunch_launched wlan role.other
        { t with preEntityType := .of role.other }).1.distinct (first.congr rfl rfl)
      split
      next result => rw [result] at second; exact second.congr rfl rfl
      next result => rw [result] at second; exact second

theorem step_distinct (s : RlT δ) (a : Act δ) (distinct : Distinct s) (fresh : Allocates s a) :
    Distinct (step wlan s a) := by
  cases a with
  | cachedRequest monitorMode =>
    simp only [step, rlStaCacheRequestEnter]
    split <;> exact distinct.congr rfl rfl
  | enterTimer memory staAddr apAddr =>
    simp only [step]
    split
    · exact distinct
    · split
      · exact distinct.congr rfl rfl
      · exact rlEnterHandler_distinct wlan staAddr apAddr _ (distinct.congr rfl rfl) fresh.1 fresh.2
  | launchTimer =>
    simp only [step]
    split
    · exact rlLaunchHandler_distinct wlan _ (distinct.congr rfl rfl)
    · exact distinct
  | _ => exact distinct.congr rfl rfl

theorem step_serial (s : RlT δ) (a : Act δ) (serial : Serial s) (ok : ¬Misqueues wlan s a) :
    Serial (step wlan s a) := by
  cases a with
  | cachedRequest monitorMode =>
    simp only [step, rlStaCacheRequestEnter]
    split <;> exact serial.congr rfl rfl
  | enterTimer memory staAddr apAddr =>
    simp only [step]
    split
    · exact serial
    · split
      · exact serial.congr rfl rfl
      · next on mem =>
        have fires : s.enterTimer ∧ memory := by simpa using And.intro on mem
        exact rlEnterHandler_serial wlan staAddr apAddr _ (serial.congr rfl rfl)
          (fun sta => ok ⟨fires.1, fires.2, Or.inl sta⟩)
          (fun ap => ok ⟨fires.1, fires.2, Or.inr ap⟩)
  | launchTimer =>
    simp only [step]
    split
    · exact rlLaunchHandler_serial wlan _ (serial.congr rfl rfl)
    · exact serial
  | _ => exact serial.congr rfl rfl

/-! ### A misqueued request is started beside the other role -/

/-- The next round of the timer starts `role` although the other role runs. -/
structure Doomed (role : Role) (s : RlT δ) : Prop where
  previous : (s.slots role).previous = none
  following : (s.slots role).following.isSome
  running : (s.slots role.other).previous.isSome
  type : s.preEntityType = .of role
  timer : s.rlTimer = true

theorem Entered.doomed {s t : RlT δ} {role : Role} {entity : RlEntity δ}
    (entered : Entered s role entity t) (serial : Serial s) (mis : Misqueued role s) :
    Doomed role t := by
  obtain ⟨room, type, running⟩ := mis
  have previous := serial.one role.other running
  rw [Role.other_other] at previous
  cases entered with
  | started slots live free => simp [free] at running
  | queued slots live busy room type' timer =>
    refine ⟨by simp [slots, previous], by simp [slots], ?_, by simp [type', type], timer⟩
    rwa [slots, Function.update_of_ne role.other_ne]
  | refused slots live full => simp [Option.isNone_iff_eq_none.mp room] at full

theorem Doomed.enter {s t : RlT δ} {role : Role} {entity : RlEntity δ} (doomed : Doomed role s)
    (entered : Entered s role.other entity t) : Doomed role t := by
  obtain ⟨previous, following, running, type, timer⟩ := doomed
  cases entered with
  | started slots live free => simp [free] at running
  | queued slots live busy room type' timer' =>
    exact ⟨by simp [slots, role.other_ne.symm, previous],
      by simpa [slots, role.other_ne.symm] using following, by simpa [slots] using running,
      by simp [type', type], timer'⟩
  | refused slots live full type' timer' =>
    exact ⟨slots ▸ previous, slots ▸ following, slots ▸ running, type'.trans type, timer'⟩

theorem Doomed.launchTimer {s : RlT δ} {role : Role} (doomed : Doomed role s) (r : Role) :
    ((step wlan s .launchTimer).slots r).previous.isSome := by
  obtain ⟨previous, following, running, type, timer⟩ := doomed
  rw [step, if_pos timer, rlLaunchHandler]
  split
  next idle => simp [type] at idle
  next named same =>
    obtain rfl : role = named := by simpa [type] using same
    obtain ⟨launched, -⟩ := rlLaunch_launched wlan role { s with rlTimer := false }
    generalize rlLaunch wlan role { s with rlTimer := false } = result at launched
    obtain ⟨t, status⟩ := result
    simp only at launched
    cases launched with
    | empty slots live _ gone => exact absurd gone (Option.isSome_iff_ne_none.mp following)
    | waiting slots live there => exact absurd previous (Option.isSome_iff_ne_none.mp there)
    | next preEntity entity slots live there => exact nomatch previous.symm.trans there
    | last preEntity slots live there => exact nomatch previous.symm.trans there
    -- the only way left: the queued request starts, and the other role goes on
    | first entity slots =>
      have both : ∀ r, (t.slots r).previous.isSome := by
        rw [forall_role role]
        refine ⟨by simp [slots], ?_⟩
        rwa [slots, Function.update_of_ne role.other_ne]
      exact both r

theorem Misqueues.doomed {s : RlT δ} {a : Act δ} (serial : Serial s) (mis : Misqueues wlan s a) :
    ∃ role, Doomed role (step wlan s a) := by
  cases a with
  | enterTimer memory staAddr apAddr =>
    obtain ⟨on, mem, mis⟩ := mis
    have taken : Serial { s with enterTimer := false, socket := fun _ => none } :=
      serial.congr rfl rfl
    have sta := enterSta_entered wlan staAddr (s.socket .sta)
      { s with enterTimer := false, socket := fun _ => none }
    have ap := enterAp_entered wlan apAddr (s.socket .ap) (enterSta wlan staAddr (s.socket .sta)
      { s with enterTimer := false, socket := fun _ => none })
    simp only [step, on, mem, rlEnterHandler, Bool.not_true, Bool.false_eq_true, if_false]
    -- the station request comes first; what it does to the slots cannot undo a misqueued one
    by_cases staMis : (s.socket .sta).isSome ∧
        Misqueued .sta { s with enterTimer := false, socket := fun _ => none }
    · refine ⟨.sta, ?_⟩
      rcases sta with ⟨none, -⟩ | ⟨param, -, staEntered⟩
      · simp [none] at staMis
      · have doomed := staEntered.doomed taken staMis.2
        rcases ap with ⟨-, same⟩ | ⟨param, -, apEntered⟩
        · rwa [same]
        · exact doomed.enter apEntered
    · obtain ⟨hit, mis⟩ := mis.resolve_left staMis
      refine ⟨.ap, ?_⟩
      rcases ap with ⟨none, -⟩ | ⟨param, -, apEntered⟩
      · simp [none] at hit
      · refine apEntered.doomed ?_ mis
        rcases sta with ⟨-, same⟩ | ⟨param, staHit, staEntered⟩
        · rwa [same]
        · exact staEntered.serial taken fun mis => staMis ⟨by simp [staHit], mis⟩
  | _ => exact mis.elim

/-- In every run the slots hold distinct entities. In a run that misqueues no request at
most one of the two previous entities is there; a step that misqueues one makes the next
round of the timer start both. -/
theorem at_most_one_previous (acts : List (Act δ))
    (fresh : Along (step wlan) Allocates init acts) :
    (acts.foldl (step wlan) init).addrs.Nodup ∧
      (Along (step wlan) (fun s a => ¬Misqueues wlan s a) init acts →
        let s := acts.foldl (step wlan) init
        ((s.slots .sta).previous = none ∨ (s.slots .ap).previous = none) ∧
          ∀ a, Misqueues wlan s a →
            ((step wlan (step wlan s a) .launchTimer).slots .sta).previous.isSome ∧
            ((step wlan (step wlan s a) .launchTimer).slots .ap).previous.isSome) := by
  constructor
  · have distinct : Distinct (acts.foldl (step wlan) init) :=
      fresh.invariant (step_distinct wlan) init_distinct
    exact distinct.nodup
  · intro ok s
    have serial : Serial s := ok.invariant (step_serial wlan) init_serial
    constructor
    · cases sta : (s.slots .sta).previous with
      | none => exact Or.inl rfl
      | some _ => exact Or.inr (serial.one .sta (by simp [sta]))
    · intro a mis
      obtain ⟨role, doomed⟩ := mis.doomed wlan serial
      exact ⟨doomed.launchTimer wlan .sta, doomed.launchTimer wlan .ap⟩

/-! ### The two launches that run together -/

/-- The calls of the setters that `bk_wlan_start_sta` and `bk_wlan_start_ap` make. -/
def startSetters (req : LaunchReq Unit) (st : PreStatus) : PreStatus :=
  match req.reqType with
  | .sta =>
    let st := (st.rlPreStaSetStatus 0).1.rlPreStaClearCancel
    ((st.rlPreStaSetStatus rlStatusStaLaunched).1.rlInitCsaStatus.rlPreStaSetStatus
      rlStatusStaIniting).1
  | .ap => (st.rlInitCsaStatus.rlPreApSetStatus 0x11).1
  | _ => st

/-- An access point and then a station are launched and both launches end; a new station
request starts at once while `pre_entity_type` still names the access point. -/
def stationThenAp : List (Act Unit) :=
  [.request .ap ⟨(), .ap⟩, .enterTimer true 100 200, .request .sta ⟨(), .sta⟩,
    .enterTimer true 300 400, .launchTimer, .staStatus rlStatusStaLaunched, .launchTimer,
    .request .sta ⟨(), .sta⟩, .enterTimer true 500 600, .request .ap ⟨(), .ap⟩,
    .enterTimer true 700 800]

/-- The next round of the timer starts the access point beside the station. -/
theorem at_most_one_previous_fails :
    ¬∀ acts : List (Act Unit), Along (step startSetters) Allocates init acts →
      ((acts.foldl (step startSetters) init).slots .sta).previous = none ∨
      ((acts.foldl (step startSetters) init).slots .ap).previous = none := by
  intro all
  have one := all (stationThenAp ++ [.launchTimer]) (by decide)
  revert one
  decide

theorem at_most_one_previous_stationThenAp :
    let acts := stationThenAp.take 8
    (Along (step startSetters) (fun s a => ¬Misqueues startSetters s a) init acts) ∧
      (((acts.foldl (step startSetters) init).slots .sta).previous = none ∨
        ((acts.foldl (step startSetters) init).slots .ap).previous = none) := by
  intro acts
  have ok : Along (step startSetters) (fun s a => ¬Misqueues startSetters s a) init acts := by
    decide
  exact ⟨ok, ((at_most_one_previous startSetters acts (by decide)).2 ok).1⟩

end RlT

end Bk7251.JointUp
