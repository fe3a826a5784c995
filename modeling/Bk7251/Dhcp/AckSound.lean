import Bk7251.Dhcp.OptionLoop

/-!
# When an acknowledged address is sound

The response is an ACK of the last address the message asks for, whatever address `got_ip`
was set for. The address is sound exactly when the flag does not stick to an earlier one.
-/
namespace Bk7251.Dhcp

open Lib

section

variable {d : DhcpServerData} {mac : List UInt8} {ips : List UInt32}

/-- `ip` may be given to a client and no other client has it. -/
structure Sound (d : DhcpServerData) (mac : List UInt8) (ip : UInt32) : Prop where
  usable : Usable d ip
  own : ∀ e ∈ d.ipMacMapping, e.clientIp = ip → e.clientMac = mac

theorem CacheOk.sound (ok : CacheOk d) {ip : UInt32} (entry : ⟨mac, ip⟩ ∈ d.ipMacMapping) :
    Sound d mac ip := by
  refine ⟨ok.usable _ entry, fun e member same => ?_⟩
  rw [List.inj_on_of_nodup_map ok.ips member entry same]

/-- An accepted last address ends up held by the client, or free with the cache full. -/
theorem Accepted.holds (ok : CacheOk d) {ip : UInt32} (accepted : Accepted d mac ips ip) :
    Holds (askAll d mac (ips ++ [ip])).1 mac ip ∧ Sound (askAll d mac (ips ++ [ip])).1 mac ip := by
  obtain ⟨ok', grows⟩ := askAll_grows ok mac (ips ++ [ip])
  have leased := askAll_leased ok mac (ips ++ [ip])
  -- the address is the one the client has, or a free one
  unfold Accepted at accepted
  split at accepted
  next lease found =>
    have still := leaseFor_append_of_some found [ip]
    cases leased with
    | holds lease' found' entry =>
      obtain rfl : lease = lease' := by simpa [still] using found'
      exact ⟨Or.inl (accepted ▸ entry), ok'.sound (accepted ▸ entry)⟩
    | nothing none => exact nomatch still.symm.trans none
  next none =>
    have still := leaseFor_append_of_none none [ip]
    cases leased with
    | holds lease found entry =>
      rw [still] at found
      split at found
      next =>
        obtain rfl : ip = lease := by simpa [accepted] using found
        exact ⟨Or.inl entry, ok'.sound entry⟩
      next => exact nomatch found
    | nothing gone unknown same =>
      have full : ¬acNotFull d := by
        intro room
        rw [gone, if_pos room] at still
        simp [accepted] at still
      obtain ⟨usable, free⟩ := (usable_free_iff ip).mpr accepted
      refine ⟨Or.inr ⟨?_, ?_, ?_⟩, usable_congr grows.netmask grows.myIp usable, ?_⟩
      · simpa only [acNotFull, same] using full
      · simpa only [Unknown, same] using unknown
      · simpa only [Free, same] using free
      · intro e member taken
        exact absurd taken (free e (same ▸ member))

/-- Behind an accepted address, a last one that leaves the flag alone is not sound. -/
theorem Sticks.not_sound (ok : CacheOk d) (sticks : Sticks d mac ips) :
    ¬Sound (askAll d mac ips).1 mac (askAll d mac ips).1.clientIp := by
  obtain ⟨pre, ip, post, rfl, some, accepted, later⟩ := sticks
  obtain ⟨rest, last, rfl⟩ := (List.eq_nil_or_concat post).resolve_left some
  rw [List.concat_eq_append] at later ⊢
  have split : pre ++ ip :: (rest ++ [last]) = pre ++ [ip] ++ (rest ++ [last]) := by simp
  have last_ip : (askAll d mac (pre ++ ip :: (rest ++ [last]))).1.clientIp = last := by
    rw [show pre ++ ip :: (rest ++ [last]) = pre ++ ip :: rest ++ [last] by simp]
    exact askAll_clientIp ok mac _ last
  obtain ⟨ok', grows⟩ := askAll_grows ok mac (pre ++ ip :: (rest ++ [last]))
  rintro ⟨usable, own⟩
  rw [last_ip] at usable own
  have usable' := usable_congr grows.netmask.symm grows.myIp.symm usable
  -- the last address is outside the subnet, or taken
  rcases later last (by simp) with outside | ⟨none, invalid⟩
  · exact outside usable'.subnet
  · have gone := leaseFor_skipped later
    rw [none, ← split] at gone
    cases askAll_leased ok mac (pre ++ ip :: (rest ++ [last])) with
    | holds lease found => exact nomatch gone.symm.trans found
    | nothing _ unknown same =>
      refine invalid ((usable_free_iff last).mp ⟨usable', fun e member taken => ?_⟩).2
      exact unknown e member (own e (same ▸ member) taken)

/-- The flag was set for the last address if it does not stick to an earlier one. -/
theorem askAll_last (ok : CacheOk d) (got : (askAll d mac ips).2 = true)
    (free : ¬Sticks d mac ips) :
    Holds (askAll d mac ips).1 mac (askAll d mac ips).1.clientIp ∧
      Sound (askAll d mac ips).1 mac (askAll d mac ips).1.clientIp := by
  obtain ⟨pre, ip, post, rfl, accepted, later⟩ := (askAll_got_iff ok mac ips).mp got
  have last : post = [] := by
    by_contra some
    exact free ⟨pre, ip, post, rfl, some, accepted, later⟩
  rw [last, askAll_clientIp ok]
  exact accepted.holds ok

/-- The last address is sound exactly when the flag does not stick to an earlier one. -/
theorem askAll_sound_iff (ok : CacheOk d) (got : (askAll d mac ips).2 = true) :
    Sound (askAll d mac ips).1 mac (askAll d mac ips).1.clientIp ↔ ¬Sticks d mac ips :=
  ⟨fun sound sticks => sticks.not_sound ok sound, fun free => (askAll_last ok got free).2⟩

end

/-! ### The response -/

/-- The message type in a response. -/
def sentType (msg : Mem UInt8) : UInt8 := msg (sizeofBootpHeader + sizeofBootpOption)

theorem getElem_responseOptions (cfg : Settings) (d : DhcpServerData) (type : UInt8) :
    (responseOptions cfg d type)[sizeofBootpOption]? = some type := by
  unfold responseOptions
  split <;> rfl

/-- The header of a response carries the address, its first option the type. -/
theorem makeResponse_spec {cfg : Settings} {d d' : DhcpServerData} {msg msg' : Mem UInt8}
    {type : UInt8} {n : Nat} (made : makeResponse cfg d msg type = some (d', msg', n)) :
    responseAddress d (chaddr msg) type = some (d', yiaddr msg') ∧
      sentType msg' = type ∧ chaddr msg' = chaddr msg := by
  obtain ⟨⟨d'', ip⟩, chosen, result⟩ := Option.map_eq_some_iff.mp made
  simp only [Prod.mk.injEq] at result
  obtain ⟨rfl, rfl, -⟩ := result
  refine ⟨?_, ?_, ?_⟩
  · rw [chosen]
    congr 2
    refine (Mem.load32_of_read ?_).symm
    rw [Mem.read_write_disjoint _ _ _ _ _ (by left; decide), Mem.write_append, Mem.write_append,
      Mem.write_append]
    rw [Mem.read_write_disjoint _ _ _ _ _ (by left; simp),
      Mem.read_write_disjoint _ _ _ _ _ (by left; simp)]
    exact Mem.read_write_self _ 16 (toLe32 ip)
  · have first := getElem_responseOptions cfg d'' type
    obtain ⟨bound, value⟩ := List.getElem?_eq_some_iff.mp first
    rw [sentType, Mem.write_getElem _ _ _ _ bound, value]
  · simp only [chaddr]
    rw [Mem.read_write_disjoint _ _ _ _ _ (by left; decide),
      Mem.read_write_disjoint _ _ _ _ _ (by right; simp),
      Mem.read_write_disjoint _ _ _ _ _ (by right; simp)]

/-- The message asks for an address, and the flag set for one of them sticks. -/
def Sticky (d : DhcpServerData) (msg : Mem UInt8) (len : Nat) : Prop :=
  headerOk msg len ∧ isRequest msg len ∧ Sticks d (chaddr msg) (requestedIps msg len)

/-- What processing a message does. -/
inductive Processed (cfg : Settings) (d : DhcpServerData) (msg : Mem UInt8) (len : Nat)
    (d' : DhcpServerData) : Option (Mem UInt8 × Nat) → Prop
  | silent (state : d' = d ∨ d' = (askAll d (chaddr msg) (requestedIps msg len)).1)
    (calm : headerOk msg len → ¬isRequest msg len) : Processed cfg d msg len d' none
  | offers (r : Mem UInt8) (n : Nat) (type : sentType r = dhcpMessageOffer)
    (client : chaddr r = chaddr msg) (calm : ¬isRequest msg len)
    (next : nextYiaddr (askAll d (chaddr msg) (requestedIps msg len)).1 (chaddr msg) =
      some (d', yiaddr r)) : Processed cfg d msg len d' (some (r, n))
  | refuses (r : Mem UInt8) (n : Nat) (type : sentType r = dhcpMessageNak)
    (client : chaddr r = chaddr msg)
    (state : d' = (askAll d (chaddr msg) (requestedIps msg len)).1)
    (flag : (askAll d (chaddr msg) (requestedIps msg len)).2 = false) :
    Processed cfg d msg len d' (some (r, n))
  | acknowledges (r : Mem UInt8) (n : Nat) (type : sentType r = dhcpMessageAck)
    (client : chaddr r = chaddr msg) (header : headerOk msg len) (request : isRequest msg len)
    (state : d' = (askAll d (chaddr msg) (requestedIps msg len)).1)
    (flag : (askAll d (chaddr msg) (requestedIps msg len)).2 = true)
    (address : yiaddr r = d'.clientIp) : Processed cfg d msg len d' (some (r, n))

theorem processDhcpMessage_processed {cfg : Settings} {d d' : DhcpServerData} (ok : CacheOk d)
    {msg : Mem UInt8} {len : Nat} {ret : Int} {response : Option (Mem UInt8 × Nat)}
    (processed : processDhcpMessage cfg d msg len = some (d', ret, response)) :
    Processed cfg d msg len d' response := by
  rw [processDhcpMessage] at processed
  split at processed
  next header =>
    have looked := optionLoop_looked ok msg len
    simp only at processed
    generalize optionLoop msg (len - sizeofBootpHeader) sizeofBootpHeader
      (len - sizeofBootpHeader) ⟨d, dhcpNoResponse, false, false, false⟩ = st at looked processed
    obtain ⟨asked, -, need, answer, silent⟩ := looked
    change st.needIp = isRequest msg len at need
    have dEq : st.d = (askAll d (chaddr msg) (requestedIps msg len)).1 := congrArg Prod.fst asked
    have gotEq : st.gotIp = (askAll d (chaddr msg) (requestedIps msg len)).2 :=
      congrArg Prod.snd asked
    split at processed
    next some =>
      obtain ⟨⟨d'', r, n⟩, made, result⟩ := Option.map_eq_some_iff.mp processed
      simp only [Prod.mk.injEq] at result
      obtain ⟨rfl, rfl, rfl⟩ := result
      obtain ⟨chosen, type, client⟩ := makeResponse_spec made
      -- a message with a REQUEST option is never answered with an offer
      by_cases request : st.needIp
      · rw [answer request] at chosen type
        cases flag : st.gotIp with
        | true =>
          rw [flag, if_pos rfl] at chosen type
          obtain ⟨rfl, address⟩ : st.d = d'' ∧ st.d.clientIp = yiaddr r := by
            simpa [responseAddress, dhcpMessageOffer, dhcpMessageAck] using chosen
          exact .acknowledges r n type client header (need ▸ request) dEq (gotEq ▸ flag)
            address.symm
        | false =>
          rw [flag, if_neg Bool.false_ne_true] at chosen type
          obtain ⟨rfl, -⟩ : st.d = d'' ∧ 0 = yiaddr r := by
            simpa [responseAddress, dhcpMessageOffer, dhcpMessageAck, dhcpMessageNak] using chosen
          exact .refuses r n type client dEq (gotEq ▸ flag)
      · rw [(silent request).resolve_right some] at chosen type
        refine .offers r n type client (need ▸ request) ?_
        rw [← dEq]
        simpa [responseAddress] using chosen
    next none =>
      simp only [Option.some.injEq, Prod.mk.injEq] at processed
      obtain ⟨rfl, -, rfl⟩ := processed
      refine .silent (Or.inr dEq) fun _ request => none ?_
      rw [answer (need ▸ request)]
      split <;> decide
  next header =>
    simp only [Option.some.injEq, Prod.mk.injEq] at processed
    obtain ⟨rfl, -, rfl⟩ := processed
    exact .silent (Or.inl rfl) fun ok => absurd ok header

theorem Processed.grows {cfg : Settings} {d d' : DhcpServerData} (ok : CacheOk d)
    {msg : Mem UInt8} {len : Nat} {response : Option (Mem UInt8 × Nat)}
    (processed : Processed cfg d msg len d' response) : CacheOk d' ∧ Grows d d' := by
  have asked := askAll_grows ok (chaddr msg) (requestedIps msg len)
  cases processed with
  | silent state =>
    rcases state with same | same
    · rw [same]
      exact ⟨ok, Grows.refl d⟩
    · rw [same]
      exact asked
  | offers r n type client calm next =>
    obtain ⟨ok', grows, -⟩ := nextYiaddr_spec asked.1 (chaddr msg) next
    exact ⟨ok', asked.2.trans grows⟩
  | refuses r n type client state flag =>
    rw [state]
    exact asked
  | acknowledges r n type client header request state flag address =>
    rw [state]
    exact asked

/-! ### Runs of the server -/

/-- A response to a client; `sticky` says that its message met the sticky flag. -/
structure Reply where
  mac : List UInt8
  type : UInt8
  ip : UInt32
  sticky : Prop

def replyOf (d : DhcpServerData) (msg : Mem UInt8) (len : Nat) :
    Option (Mem UInt8 × Nat) → List Reply
  | none => []
  | some (r, _) => [⟨chaddr r, sentType r, yiaddr r, Sticky d msg len⟩]

/-- The state after a sequence of messages, and the responses in order; `none` where one of
them is never answered. -/
def serve (cfg : Settings) :
    DhcpServerData → List (Mem UInt8 × Nat) → Option (DhcpServerData × List Reply)
  | d, [] => some (d, [])
  | d, (msg, len) :: rest =>
    (processDhcpMessage cfg d msg len).bind fun (d', _, response) =>
      (serve cfg d' rest).map fun (d'', replies) => (d'', replyOf d msg len response ++ replies)

theorem serve_cons {cfg : Settings} {d d'' : DhcpServerData} {msg : Mem UInt8} {len : Nat}
    {rest : List (Mem UInt8 × Nat)} {replies : List Reply}
    (served : serve cfg d ((msg, len) :: rest) = some (d'', replies)) :
    ∃ d' ret response later, processDhcpMessage cfg d msg len = some (d', ret, response) ∧
      serve cfg d' rest = some (d'', later) ∧ replies = replyOf d msg len response ++ later := by
  obtain ⟨⟨d', ret, response⟩, processed, continued⟩ := Option.bind_eq_some_iff.mp served
  obtain ⟨⟨dEnd, later⟩, serves, result⟩ := Option.map_eq_some_iff.mp continued
  simp only [Prod.mk.injEq] at result
  obtain ⟨rfl, rfl⟩ := result
  exact ⟨d', ret, response, later, processed, serves, rfl⟩

theorem serve_ok {cfg : Settings} {d d' : DhcpServerData} (ok : CacheOk d)
    (msgs : List (Mem UInt8 × Nat)) {replies : List Reply}
    (served : serve cfg d msgs = some (d', replies)) : CacheOk d' ∧ Grows d d' := by
  induction msgs generalizing d replies with
  | nil =>
    simp only [serve, Option.some.injEq, Prod.mk.injEq] at served
    exact served.1 ▸ ⟨ok, Grows.refl d⟩
  | cons m rest ih =>
    obtain ⟨middle, ret, response, later, processed, serves, -⟩ := serve_cons served
    obtain ⟨ok', grows⟩ := (processDhcpMessage_processed ok processed).grows ok
    obtain ⟨ok'', grows'⟩ := ih ok' serves
    exact ⟨ok'', grows.trans grows'⟩

/-- In every state a server can reach, and for every message: if the response is an ACK its
address is in the subnet, is not the server's, the network's or the broadcast address, and is
not recorded for another client, exactly when no address is accepted and then followed by
others that leave the flag alone. -/
theorem ack_sound_iff (cfg : Settings) (myIp netmask routerIp : UInt32)
    (msgs : List (Mem UInt8 × Nat)) (d : DhcpServerData) (replies : List Reply)
    (reached : serve cfg (dhcpServerInit myIp netmask routerIp) msgs = some (d, replies))
    (msg : Mem UInt8) (len : Nat) (d' : DhcpServerData) (ret : Int)
    (response : Option (Mem UInt8 × Nat))
    (processed : processDhcpMessage cfg d msg len = some (d', ret, response)) :
    (∀ r n, response = some (r, n) → sentType r = dhcpMessageAck →
        Sound d' (chaddr msg) (yiaddr r)) ↔ ¬Sticky d msg len := by
  obtain ⟨ok, -⟩ := serve_ok (dhcpServerInit_ok myIp netmask routerIp) msgs reached
  cases processDhcpMessage_processed ok processed with
  | silent state calm =>
    exact ⟨fun _ sticky => calm sticky.1 sticky.2.1, fun _ _ _ none => nomatch none⟩
  -- only an ACK is spoken of
  | offers r n type client calm next =>
    refine ⟨fun _ sticky => calm sticky.2.1, fun _ r' n' same ack => ?_⟩
    obtain ⟨rfl, -⟩ : r = r' ∧ n = n' := by simpa using same
    exact absurd (type.symm.trans ack) (by decide)
  | refuses r n type client state flag =>
    constructor
    · rintro - ⟨-, -, pre, ip, post, split, -, accepted, later⟩
      have got := (askAll_got_iff ok _ _).mpr ⟨pre, ip, post, split, accepted, later⟩
      exact Bool.false_ne_true (flag.symm.trans got)
    · intro _ r' n' same ack
      obtain ⟨rfl, -⟩ : r = r' ∧ n = n' := by simpa using same
      exact absurd (type.symm.trans ack) (by decide)
  | acknowledges r n type client header request state flag address =>
    have iff := askAll_sound_iff ok flag
    rw [← state, ← address] at iff
    constructor
    · exact fun all sticky => iff.mp (all r n rfl type) sticky.2.2
    · intro free r' n' same _
      obtain ⟨rfl, -⟩ : r = r' ∧ n = n' := by simpa using same
      exact iff.mpr fun sticks => free ⟨header, request, sticks⟩

/-! ### An acknowledged address outside the subnet -/

/-- A message from `mac` with these options. -/
def message (mac options : List UInt8) : Mem UInt8 :=
  ((Mem.write (fun _ => 0) 0 [bootpOpRequest, 1, 6]).write 28 mac).write sizeofBootpHeader options

/-- A request of `mac` for these addresses. -/
def requestFor (mac : List UInt8) (ips : List (List UInt8)) : Mem UInt8 :=
  message mac (option bootpOptionDhcpMessage [dhcpMessageRequest] ++
    ips.flatMap (option bootpOptionRequestedIp) ++ [bootpEndOption])

/-- The mask 255.255.255.0. -/
def homeMask : UInt32 := 0x00FFFFFF

/-- The server's address 192.168.0.1. -/
def homeIp : UInt32 := 0x0100A8C0

/-- 192.168.0.50 is asked for and then 10.0.0.1. -/
def stickyMessage : Mem UInt8 := requestFor [2, 0, 0, 0, 0, 1] [[192, 168, 0, 50], [10, 0, 0, 1]]

theorem ack_sound_fails :
    ¬∀ (cfg : Settings) (myIp netmask routerIp : UInt32) (msgs : List (Mem UInt8 × Nat))
        (d : DhcpServerData) (replies : List Reply),
      serve cfg (dhcpServerInit myIp netmask routerIp) msgs = some (d, replies) →
      ∀ (msg : Mem UInt8) (len : Nat) (d' : DhcpServerData) (ret : Int)
        (response : Option (Mem UInt8 × Nat)),
      processDhcpMessage cfg d msg len = some (d', ret, response) →
      ∀ r n, response = some (r, n) → sentType r = dhcpMessageAck →
        Sound d' (chaddr msg) (yiaddr r) := by
  intro all
  have run : (processDhcpMessage ⟨3600, false⟩ (dhcpServerInit homeIp homeMask homeIp) stickyMessage
      260).map (fun p => (p.1.netmask, p.1.myIp, p.2.2.map fun q => (sentType q.1, yiaddr q.1))) =
      some (homeMask, homeIp, some (dhcpMessageAck, 0x0100000A)) := by decide
  obtain ⟨⟨d', ret, response⟩, processed, result⟩ := Option.map_eq_some_iff.mp run
  simp only [Prod.mk.injEq] at result
  obtain ⟨netmask, myIp, sent⟩ := result
  obtain ⟨⟨r, n⟩, rfl, reply⟩ := Option.map_eq_some_iff.mp sent
  simp only [Prod.mk.injEq] at reply
  have sound := all ⟨3600, false⟩ homeIp homeMask homeIp [] _ [] rfl stickyMessage 260 d' ret _
    processed r n rfl reply.1
  have subnet := sound.usable.subnet
  rw [inSubnet, netmask, myIp, reply.2] at subnet
  exact absurd subnet (by decide)

/-- Asked for alone, 192.168.0.50 is acknowledged. -/
theorem ack_sound_iff_single : ∃ d' ret response,
    processDhcpMessage ⟨3600, false⟩ (dhcpServerInit homeIp homeMask homeIp)
        (requestFor [2, 0, 0, 0, 0, 1] [[192, 168, 0, 50]]) 260 = some (d', ret, response) ∧
      ((∀ r n, response = some (r, n) → sentType r = dhcpMessageAck →
          Sound d' (chaddr (requestFor [2, 0, 0, 0, 0, 1] [[192, 168, 0, 50]])) (yiaddr r)) ↔
        ¬Sticky (dhcpServerInit homeIp homeMask homeIp)
          (requestFor [2, 0, 0, 0, 0, 1] [[192, 168, 0, 50]]) 260) := by
  obtain ⟨⟨d', ret, response⟩, processed⟩ := Option.isSome_iff_exists.mp
    (show (processDhcpMessage ⟨3600, false⟩ (dhcpServerInit homeIp homeMask homeIp)
      (requestFor [2, 0, 0, 0, 0, 1] [[192, 168, 0, 50]]) 260).isSome by decide)
  exact ⟨d', ret, response, processed,
    ack_sound_iff ⟨3600, false⟩ homeIp homeMask homeIp [] _ [] rfl _ 260 d' ret response processed⟩

end Bk7251.Dhcp
