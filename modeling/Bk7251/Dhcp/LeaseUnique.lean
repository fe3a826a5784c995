import Bk7251.Dhcp.AckSound

/-!
# Leases over a whole run

Every offer, and every ACK that the sticky flag has no part in, is of the address the cache
holds for the client from then on. Only when the cache is full can a client it holds nothing
for be answered with an address, and then that address is in no entry.
-/
namespace Bk7251.Dhcp

open Lib

/-- An offer, or an ACK that the sticky flag has no part in. -/
def Reply.Granted (r : Reply) : Prop :=
  r.type = dhcpMessageOffer ∨ r.type = dhcpMessageAck ∧ ¬r.sticky

theorem Processed.holds {cfg : Settings} {d d' : DhcpServerData} (ok : CacheOk d)
    {msg : Mem UInt8} {len : Nat} {response : Option (Mem UInt8 × Nat)}
    (processed : Processed cfg d msg len d' response) :
    ∀ r ∈ replyOf d msg len response, r.Granted → Holds d' r.mac r.ip := by
  cases processed with
  | silent state => nofun
  | offers r n type client calm next =>
    rintro reply member -
    obtain rfl : reply = _ := List.mem_singleton.mp member
    obtain ⟨asked, -⟩ := askAll_grows ok (chaddr msg) (requestedIps msg len)
    change Holds d' (chaddr r) (yiaddr r)
    rw [client]
    exact (nextYiaddr_spec asked (chaddr msg) next).2.2
  | refuses r n type client state flag =>
    rintro reply member (offer | ⟨ack, -⟩)
    · obtain rfl : reply = _ := List.mem_singleton.mp member
      exact absurd (type.symm.trans offer) (by decide)
    · obtain rfl : reply = _ := List.mem_singleton.mp member
      exact absurd (type.symm.trans ack) (by decide)
  | acknowledges r n type client header request state flag address =>
    rintro reply member (offer | ⟨-, free⟩)
    · obtain rfl : reply = _ := List.mem_singleton.mp member
      exact absurd (type.symm.trans offer) (by decide)
    · obtain rfl : reply = _ := List.mem_singleton.mp member
      have notSticks : ¬Sticks d (chaddr msg) (requestedIps msg len) :=
        fun sticks => free ⟨header, request, sticks⟩
      change Holds d' (chaddr r) (yiaddr r)
      rw [client, address, state]
      exact (askAll_last ok flag notSticks).1

theorem serve_holds {cfg : Settings} {d d' : DhcpServerData} (ok : CacheOk d)
    (msgs : List (Mem UInt8 × Nat)) {replies : List Reply}
    (served : serve cfg d msgs = some (d', replies)) :
    ∀ r ∈ replies, r.Granted → Holds d' r.mac r.ip := by
  -- by induction on the messages; what is held stays held while the cache grows
  induction msgs generalizing d replies with
  | nil =>
    simp only [serve, Option.some.injEq, Prod.mk.injEq] at served
    rw [← served.2]
    exact fun _ member => absurd member List.not_mem_nil
  | cons m rest ih =>
    obtain ⟨middle, ret, response, later, processed, serves, rfl⟩ := serve_cons served
    have first := processDhcpMessage_processed ok processed
    obtain ⟨ok', -⟩ := first.grows ok
    obtain ⟨-, grows⟩ := serve_ok ok' rest serves
    intro r member granted
    rcases List.mem_append.mp member with now | then_
    · exact (first.holds ok r now granted).grows grows
    · exact ih ok' serves r then_ granted

/-- A client that holds an address and is in the cache has it in its entry. -/
theorem Holds.entry {d : DhcpServerData} {mac : List UInt8} {ip : UInt32}
    (holds : Holds d mac ip) (known : ¬Unknown d mac) : ⟨mac, ip⟩ ∈ d.ipMacMapping := by
  rcases holds with entry | ⟨-, unknown, -⟩
  · exact entry
  · exact absurd unknown known

/-- Two clients hold one address only if the cache is full and knows neither. -/
theorem Holds.shared {d : DhcpServerData} (ok : CacheOk d) {mac mac' : List UInt8} {ip : UInt32}
    (holds : Holds d mac ip) (holds' : Holds d mac' ip) (differ : mac ≠ mac') :
    ¬acNotFull d ∧ Unknown d mac ∧ Unknown d mac' := by
  -- a recorded address is free for nobody else
  rcases holds with entry | ⟨full, unknown, free⟩
  · rcases holds' with entry' | ⟨-, -, free⟩
    · have same := List.inj_on_of_nodup_map ok.ips entry entry' rfl
      exact absurd (congrArg ClientMacCache.clientMac same) differ
    · exact absurd rfl (free _ entry)
  · rcases holds' with entry' | ⟨-, unknown', -⟩
    · exact absurd rfl (free _ entry')
    · exact ⟨full, unknown, unknown'⟩

/-- After every sequence of messages the cache is within its capacity and has no two entries
with one hardware address or one IP address. A client in the cache was offered and
acknowledged one address only, that of its entry; any other client only an address in no
entry, with the cache full. Two clients were acknowledged the same address only if the cache
is full and knows neither. -/
theorem leases_unique (cfg : Settings) (myIp netmask routerIp : UInt32)
    (msgs : List (Mem UInt8 × Nat)) (d : DhcpServerData) (replies : List Reply)
    (served : serve cfg (dhcpServerInit myIp netmask routerIp) msgs = some (d, replies)) :
    d.ipMacMapping.length ≤ macIpCacheSize ∧
      (d.ipMacMapping.map ClientMacCache.clientMac).Nodup ∧
      (d.ipMacMapping.map ClientMacCache.clientIp).Nodup ∧
      (∀ r ∈ replies, r.Granted → ⟨r.mac, r.ip⟩ ∈ d.ipMacMapping ∨
        ¬acNotFull d ∧ Unknown d r.mac ∧ Free d r.ip) ∧
      (∀ r ∈ replies, ∀ r' ∈ replies, r.Granted → r'.Granted → r.mac = r'.mac →
        ¬Unknown d r.mac → r.ip = r'.ip) ∧
      ∀ r ∈ replies, ∀ r' ∈ replies, r.type = dhcpMessageAck → r'.type = dhcpMessageAck →
        ¬r.sticky → ¬r'.sticky → r.mac ≠ r'.mac → r.ip = r'.ip →
        ¬acNotFull d ∧ Unknown d r.mac ∧ Unknown d r'.mac := by
  have initial := dhcpServerInit_ok myIp netmask routerIp
  obtain ⟨ok, -⟩ := serve_ok initial msgs served
  have holds := serve_holds initial msgs served
  refine ⟨ok.room, ok.macs, ok.ips, holds, ?_, ?_⟩
  · intro r member r' member' granted granted' same known
    have entry := (holds r member granted).entry known
    have entry' := (holds r' member' granted').entry (same ▸ known)
    have one := List.inj_on_of_nodup_map ok.macs entry entry' same
    exact congrArg ClientMacCache.clientIp one
  · intro r member r' member' ack ack' free free' differ same
    exact (holds r member (Or.inr ⟨ack, free⟩)).shared ok
      (same ▸ holds r' member' (Or.inr ⟨ack', free'⟩)) differ

/-! ### A cache that is full -/

/-- Eight clients ask for offers; two more ask for 192.168.0.50. -/
def tenClients : List (Mem UInt8 × Nat) :=
  ((List.range 8).map fun i => (message [2, 0, 0, 0, 0, i.toUInt8]
    (option bootpOptionDhcpMessage [dhcpMessageDiscover] ++ [bootpEndOption]), 260)) ++
  [(requestFor [2, 0, 0, 0, 0, 8] [[192, 168, 0, 50]], 260),
    (requestFor [2, 0, 0, 0, 0, 9] [[192, 168, 0, 50]], 260)]

theorem leases_unique_fails :
    ¬∀ (cfg : Settings) (myIp netmask routerIp : UInt32) (msgs : List (Mem UInt8 × Nat))
        (d : DhcpServerData) (replies : List Reply),
      serve cfg (dhcpServerInit myIp netmask routerIp) msgs = some (d, replies) →
      ∀ r ∈ replies, ∀ r' ∈ replies, r.type = dhcpMessageAck → r'.type = dhcpMessageAck →
        r.mac ≠ r'.mac → r.ip ≠ r'.ip := by
  intro all
  have run : (serve ⟨3600, false⟩ (dhcpServerInit homeIp homeMask homeIp) tenClients).map
      (fun p => p.2.map fun r => (r.mac, r.type, r.ip)) =
      some ((List.range 8).map (fun i =>
          ([2, 0, 0, 0, 0, i.toUInt8], dhcpMessageOffer, ofLe32 192 168 0 (100 + i.toUInt8))) ++
        [([2, 0, 0, 0, 0, 8], dhcpMessageAck, ofLe32 192 168 0 50),
          ([2, 0, 0, 0, 0, 9], dhcpMessageAck, ofLe32 192 168 0 50)]) := by decide
  obtain ⟨⟨d, replies⟩, served, sent⟩ := Option.map_eq_some_iff.mp run
  have find : ∀ p ∈ [([2, 0, 0, 0, 0, 8], dhcpMessageAck, ofLe32 192 168 0 50),
      ([2, 0, 0, 0, 0, 9], dhcpMessageAck, ofLe32 192 168 0 50)],
      ∃ r ∈ replies, (r.mac, r.type, r.ip) = p := by
    intro p member
    have inSent : p ∈ replies.map fun r => (r.mac, r.type, r.ip) := by
      rw [sent]
      exact List.mem_append_right _ member
    exact List.mem_map.mp inSent
  obtain ⟨r, member, reply⟩ := find _ (List.mem_cons_self)
  obtain ⟨r', member', reply'⟩ := find _ (List.mem_cons_of_mem _ List.mem_cons_self)
  simp only [Prod.mk.injEq] at reply reply'
  obtain ⟨mac, ack, ip⟩ := reply
  obtain ⟨mac', ack', ip'⟩ := reply'
  refine all _ _ _ _ _ d replies served r member r' member' ack ack' ?_ (ip.trans ip'.symm)
  rw [mac, mac']
  decide

/-- The ninth and the tenth client find the cache full. -/
theorem leases_unique_tenClients : ∃ d replies,
    serve ⟨3600, false⟩ (dhcpServerInit homeIp homeMask homeIp) tenClients = some (d, replies) ∧
      d.ipMacMapping.length ≤ macIpCacheSize ∧
      ∀ r ∈ replies, ∀ r' ∈ replies, r.type = dhcpMessageAck → r'.type = dhcpMessageAck →
        ¬r.sticky → ¬r'.sticky → r.mac ≠ r'.mac → r.ip = r'.ip → ¬acNotFull d := by
  obtain ⟨⟨d, replies⟩, served⟩ := Option.isSome_iff_exists.mp
    (show (serve ⟨3600, false⟩ (dhcpServerInit homeIp homeMask homeIp) tenClients).isSome by decide)
  obtain ⟨room, -, -, -, -, shared⟩ :=
    leases_unique ⟨3600, false⟩ homeIp homeMask homeIp tenClients d replies served
  exact ⟨d, replies, served, room, fun r member r' member' ack ack' free free' differ same =>
    (shared r member r' member' ack ack' free free' differ same).1⟩

end Bk7251.Dhcp
