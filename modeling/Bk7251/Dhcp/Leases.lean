import Mathlib.Data.List.Nodup
import Bk7251.Dhcp.DhcpServer

/-!
# The lease cache

Entries are only ever appended, each for a client that has none and with an address that
no entry holds and that is neither the server's, nor the network's, nor the broadcast
address of the subnet.
-/
namespace Bk7251.Dhcp

open Lib

/-- `ip` may be given to a client. -/
structure Usable (d : DhcpServerData) (ip : UInt32) : Prop where
  subnet : inSubnet d ip
  not_server : ip ≠ d.myIp
  not_network : ip ≠ d.myIp &&& d.netmask
  not_broadcast : ip ≠ d.myIp ||| ~~~d.netmask

/-- No entry holds `ip`. -/
def Free (d : DhcpServerData) (ip : UInt32) : Prop := ∀ e ∈ d.ipMacMapping, e.clientIp ≠ ip

/-- No entry is for `mac`. -/
def Unknown (d : DhcpServerData) (mac : List UInt8) : Prop :=
  ∀ e ∈ d.ipMacMapping, e.clientMac ≠ mac

structure CacheOk (d : DhcpServerData) : Prop where
  room : d.ipMacMapping.length ≤ macIpCacheSize
  macs : (d.ipMacMapping.map ClientMacCache.clientMac).Nodup
  ips : (d.ipMacMapping.map ClientMacCache.clientIp).Nodup
  usable : ∀ e ∈ d.ipMacMapping, Usable d e.clientIp

variable {d : DhcpServerData}

/-- An address in the subnet that is not its network address is not zero either. -/
theorem Usable.ne_zero {ip : UInt32} (usable : Usable d ip) : ip ≠ 0 := by
  rintro rfl
  obtain ⟨subnet, -, notNetwork, -⟩ := usable
  rw [inSubnet, UInt32.zero_and] at subnet
  exact notNetwork subnet

theorem acLookupIp_isSome (ip : UInt32) : (acLookupIp d ip).isSome ↔ ¬Free d ip := by
  simp only [acLookupIp, Option.isSome_map, List.find?_isSome, Free, not_forall, decide_eq_true_eq,
    not_not, exists_prop]

theorem acValidIp_iff (ip : UInt32) :
    acValidIp d (ntohl ip) ↔ ip ≠ d.myIp ∧ ip ≠ d.myIp &&& d.netmask ∧
      ip ≠ d.myIp ||| ~~~d.netmask ∧ Free d ip := by
  have ones : (0xffffffff : UInt32) &&& ~~~d.netmask = ~~~d.netmask := UInt32.neg_one_and
  unfold acValidIp
  simp only [ntohl, htonl, swap32_swap32, swap32_inj, ones]
  by_cases own : ip = d.myIp ∨ ip = d.myIp &&& d.netmask ∨ ip = d.myIp ||| ~~~d.netmask
  · rw [if_pos own]
    tauto
  · rw [if_neg own]
    have taken : (acLookupIp d ip).isSome ↔ ¬Free d ip := acLookupIp_isSome ip
    by_cases free : Free d ip
    · rw [if_neg (taken.not.mpr (not_not.mpr free))]
      tauto
    · rw [if_pos (taken.mpr free)]
      tauto

theorem usable_of_valid {ip : UInt32} (subnet : inSubnet d ip) (valid : acValidIp d (ntohl ip)) :
    Usable d ip ∧ Free d ip := by
  obtain ⟨server, network, broadcast, free⟩ := (acValidIp_iff ip).mp valid
  exact ⟨⟨subnet, server, network, broadcast⟩, free⟩

theorem usable_free_iff (ip : UInt32) :
    Usable d ip ∧ Free d ip ↔ inSubnet d ip ∧ acValidIp d (ntohl ip) := by
  constructor
  · rintro ⟨⟨subnet, server, network, broadcast⟩, free⟩
    exact ⟨subnet, (acValidIp_iff ip).mpr ⟨server, network, broadcast, free⟩⟩
  · exact fun ⟨subnet, valid⟩ => usable_of_valid subnet valid

theorem usable_congr {d d' : DhcpServerData} (netmask : d'.netmask = d.netmask)
    (myIp : d'.myIp = d.myIp) {ip : UInt32} (usable : Usable d ip) : Usable d' ip := by
  obtain ⟨subnet, server, network, broadcast⟩ := usable
  exact ⟨by rwa [inSubnet, netmask, myIp], by rwa [myIp], by rwa [netmask, myIp],
    by rwa [netmask, myIp]⟩

theorem acLookupMac_unknown {mac : List UInt8} (unknown : Unknown d mac) :
    acLookupMac d mac = clientIpNotFound := by
  have none : (d.ipMacMapping.find? fun e => e.clientMac = mac) = none := by
    rw [List.find?_eq_none]
    intro e member
    simpa using unknown e member
  rw [acLookupMac, none]

theorem CacheOk.acLookupMac (ok : CacheOk d) {mac : List UInt8} {ip : UInt32}
    (entry : ⟨mac, ip⟩ ∈ d.ipMacMapping) : acLookupMac d mac = ip := by
  cases found : d.ipMacMapping.find? fun e => e.clientMac = mac with
  | none =>
    have missed := List.find?_eq_none.mp found _ entry
    simp at missed
  | some e =>
    have same : e = ⟨mac, ip⟩ := by
      refine List.inj_on_of_nodup_map ok.macs (List.mem_of_find?_eq_some found) entry ?_
      simpa using List.find?_some found
    rw [Dhcp.acLookupMac, found, same]

/-- A client that is not unknown has exactly the entry that the look-up finds. -/
theorem CacheOk.known (ok : CacheOk d) {mac : List UInt8} (known : ¬Unknown d mac) :
    ⟨mac, Dhcp.acLookupMac d mac⟩ ∈ d.ipMacMapping ∧ Dhcp.acLookupMac d mac ≠ clientIpNotFound := by
  simp only [Unknown, not_forall, not_not] at known
  obtain ⟨⟨_, ip⟩, member, rfl⟩ := known
  rw [ok.acLookupMac member]
  exact ⟨member, (ok.usable _ member).ne_zero⟩

theorem CacheOk.unknown_iff (ok : CacheOk d) (mac : List UInt8) :
    Unknown d mac ↔ Dhcp.acLookupMac d mac = clientIpNotFound := by
  refine ⟨acLookupMac_unknown, fun none => ?_⟩
  by_contra known
  exact (ok.known known).2 none

/-! ### Recording a lease -/

theorem acAdd_room (mac : List UInt8) (ip : UInt32) (room : acNotFull d) :
    (acAdd d mac ip).1 = { d with ipMacMapping := d.ipMacMapping ++ [⟨mac, ip⟩] } := by
  rw [acAdd, if_pos room]

theorem acAdd_full (mac : List UInt8) (ip : UInt32) (full : ¬acNotFull d) :
    (acAdd d mac ip).1 = d := by
  rw [acAdd, if_neg full]

theorem CacheOk.add (ok : CacheOk d) {mac : List UInt8} {ip : UInt32} (unknown : Unknown d mac)
    (usable : Usable d ip) (free : Free d ip) : CacheOk (acAdd d mac ip).1 := by
  by_cases room : acNotFull d
  · rw [acAdd_room mac ip room]
    have less : d.ipMacMapping.length < macIpCacheSize := by simpa [acNotFull] using room
    refine ⟨?_, ?_, ?_, ?_⟩
    · rw [List.length_append]
      exact less
    · -- an unknown client adds a new hardware address
      rw [List.map_append, List.nodup_append_comm]
      refine List.nodup_cons.mpr ⟨?_, ok.macs⟩
      rintro member
      obtain ⟨e, entry, same⟩ := List.mem_map.mp member
      exact unknown e entry same
    · rw [List.map_append, List.nodup_append_comm]
      refine List.nodup_cons.mpr ⟨?_, ok.ips⟩
      rintro member
      obtain ⟨e, entry, same⟩ := List.mem_map.mp member
      exact free e entry same
    · intro e member
      have usable' : Usable d e.clientIp := by
        rcases List.mem_append.mp member with old | new
        · exact ok.usable e old
        · rw [List.mem_singleton.mp new]
          exact usable
      exact ⟨usable'.1, usable'.2, usable'.3, usable'.4⟩
  · rw [acAdd_full mac ip room]
    exact ok

/-- The state only gained entries, and none if the cache was full. -/
structure Grows (d d' : DhcpServerData) : Prop where
  netmask : d'.netmask = d.netmask
  myIp : d'.myIp = d.myIp
  kept : d.ipMacMapping <+: d'.ipMacMapping
  full : ¬acNotFull d → d'.ipMacMapping = d.ipMacMapping

theorem Grows.refl (d : DhcpServerData) : Grows d d := ⟨rfl, rfl, List.prefix_refl _, fun _ => rfl⟩

theorem Grows.trans {d d' d'' : DhcpServerData} (first : Grows d d') (second : Grows d' d'') :
    Grows d d'' := by
  refine ⟨second.netmask.trans first.netmask, second.myIp.trans first.myIp,
    first.kept.trans second.kept, fun full => ?_⟩
  have same := first.full full
  have still : ¬acNotFull d' := by
    rw [acNotFull] at full ⊢
    rwa [same]
  rw [second.full still, same]

theorem Grows.acAdd (mac : List UInt8) (ip : UInt32) : Grows d (acAdd d mac ip).1 := by
  by_cases room : acNotFull d
  · rw [acAdd_room mac ip room]
    exact ⟨rfl, rfl, List.prefix_append _ _, fun full => absurd room full⟩
  · rw [acAdd_full mac ip room]
    exact Grows.refl d

/-- Fields that the cache does not depend on. -/
theorem CacheOk.congr {d d' : DhcpServerData} (ok : CacheOk d)
    (mapping : d'.ipMacMapping = d.ipMacMapping) (netmask : d'.netmask = d.netmask)
    (myIp : d'.myIp = d.myIp) : CacheOk d' := by
  refine ⟨mapping ▸ ok.room, mapping ▸ ok.macs, mapping ▸ ok.ips, fun e member => ?_⟩
  exact usable_congr netmask myIp (ok.usable e (mapping ▸ member))

/-! ### The address for an offer -/

theorem inSubnet_nextInSubnet (currentIp : UInt32) :
    inSubnet d (htonl (nextInSubnet d currentIp)) := by
  simp only [inSubnet, htonl, nextInSubnet, ntohl, swap32_or, swap32_and, swap32_swap32]
  exact or_and_not_and _ _ _

theorem seekValidIp_spec (fuel : Nat) (currentIp found : UInt32)
    (start : inSubnet d (htonl currentIp)) (seek : seekValidIp d fuel currentIp = some found) :
    inSubnet d (htonl found) ∧ acValidIp d found := by
  -- every candidate is in the subnet, so the one the loop stops at is usable
  induction fuel generalizing currentIp with
  | zero => simp [seekValidIp] at seek
  | succ fuel ih =>
    rw [seekValidIp] at seek
    split at seek
    next valid =>
      obtain rfl : currentIp = found := by simpa using seek
      exact ⟨start, valid⟩
    next => exact ih _ (inSubnet_nextInSubnet currentIp) seek

/-- The client holds its entry, or no entry and the address is in none. -/
def Holds (d : DhcpServerData) (mac : List UInt8) (ip : UInt32) : Prop :=
  ⟨mac, ip⟩ ∈ d.ipMacMapping ∨ ¬acNotFull d ∧ Unknown d mac ∧ Free d ip

theorem Holds.grows {d d' : DhcpServerData} {mac : List UInt8} {ip : UInt32}
    (holds : Holds d mac ip) (grows : Grows d d') : Holds d' mac ip := by
  rcases holds with entry | ⟨full, unknown, free⟩
  · exact Or.inl (grows.kept.subset entry)
  · have same := grows.full full
    refine Or.inr ⟨?_, ?_, ?_⟩
    · rw [acNotFull] at full ⊢
      rwa [same]
    · rwa [Unknown, same]
    · rwa [Free, same]

/-- A recorded lease is held, and so is a free address when the cache is full. -/
theorem holds_acAdd {mac : List UInt8} {ip : UInt32} (unknown : Unknown d mac) (free : Free d ip) :
    Holds (acAdd d mac ip).1 mac ip := by
  by_cases room : acNotFull d
  · rw [acAdd_room mac ip room]
    exact Or.inl (by simp)
  · rw [acAdd_full mac ip room]
    exact Or.inr ⟨room, unknown, free⟩

theorem nextYiaddr_spec (ok : CacheOk d) (mac : List UInt8) {d' : DhcpServerData} {ip : UInt32}
    (next : nextYiaddr d mac = some (d', ip)) : CacheOk d' ∧ Grows d d' ∧ Holds d' mac ip := by
  rw [nextYiaddr] at next
  split at next
  next none =>
    obtain ⟨found, seek, result⟩ := Option.map_eq_some_iff.mp next
    obtain ⟨rfl, rfl⟩ := Prod.mk.inj result
    have unknown : Unknown d mac := (ok.unknown_iff mac).mpr none
    obtain ⟨subnet, valid⟩ := seekValidIp_spec _ _ _ (inSubnet_nextInSubnet _) seek
    obtain ⟨usable, free⟩ := usable_of_valid subnet (by simpa [ntohl, htonl] using valid)
    have moved : CacheOk { d with currentIp := found } := ok.congr rfl rfl rfl
    have grows : Grows d { d with currentIp := found } :=
      ⟨rfl, rfl, List.prefix_refl _, fun _ => rfl⟩
    exact ⟨moved.add unknown ⟨usable.1, usable.2, usable.3, usable.4⟩ free,
      grows.trans (Grows.acAdd mac _), holds_acAdd unknown free⟩
  next some =>
    obtain ⟨rfl, rfl⟩ : d = d' ∧ acLookupMac d mac = ip := by simpa using next
    have known : ¬Unknown d mac := fun unknown => some ((ok.unknown_iff mac).mp unknown)
    exact ⟨ok, Grows.refl d, Or.inl (ok.known known).1⟩

theorem dhcpServerInit_ok (myIp netmask routerIp : UInt32) :
    CacheOk (dhcpServerInit myIp netmask routerIp) :=
  ⟨Nat.zero_le _, List.nodup_nil, List.nodup_nil, nofun⟩

end Bk7251.Dhcp
