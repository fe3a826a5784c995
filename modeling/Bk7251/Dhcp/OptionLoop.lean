import Mathlib.Data.List.Induction
import Bk7251.Dhcp.Leases

/-!
# The option loop

The loop looks at every address a message asks for in turn. An address outside the subnet,
or an unusable one asked for by a client that the cache holds nothing for, leaves `got_ip`
as the address before it left it.
-/
namespace Bk7251.Dhcp

open Lib

/-! ### The loop as a fold -/

/-- Where the options that the loop looks at lie. -/
def optionOffsets (msg : Mem UInt8) : Nat → Nat → Nat → List Nat
  | 0, _, _ => []
  | fuel + 1, opt, len =>
    if 0 < len ∧ msg opt ≠ bootpEndOption then
      let consumed := sizeofBootpOption + (msg (opt + 1)).toNat
      opt :: optionOffsets msg fuel (opt + consumed) (len - consumed)
    else []

theorem optionLoop_eq_foldl (msg : Mem UInt8) (fuel opt len : Nat) (st : Options) :
    optionLoop msg fuel opt len st = (optionOffsets msg fuel opt len).foldl (optionRound msg) st := by
  induction fuel generalizing opt len st with
  | zero => rfl
  | succ fuel ih =>
    rw [optionLoop, optionOffsets]
    split
    · rw [ih]
      rfl
    · rfl

/-- The options of a message of `len` bytes. -/
def optionsOf (msg : Mem UInt8) (len : Nat) : List Nat :=
  optionOffsets msg (len - sizeofBootpHeader) sizeofBootpHeader (len - sizeofBootpHeader)

/-- The address an option asks for: `ciaddr` in a request message, or a requested address. -/
def requestedIn (msg : Mem UInt8) (opt : Nat) : Option UInt32 :=
  if msg opt = bootpOptionRequestedIp ∧ msg (opt + 1) = 4 then some (msg.load32 (opt + 2))
  else if isMessage msg opt dhcpMessageRequest ∧ ciaddr msg ≠ 0 then some (ciaddr msg)
  else none

/-- The addresses a message asks for, in order. -/
def requestedIps (msg : Mem UInt8) (len : Nat) : List UInt32 :=
  (optionsOf msg len).filterMap (requestedIn msg)

/-- The message has a DHCP REQUEST option. -/
def isRequest (msg : Mem UInt8) (len : Nat) : Bool :=
  (optionsOf msg len).any fun opt => isMessage msg opt dhcpMessageRequest

/-- Ask for one more address. -/
def ask (mac : List UInt8) (p : DhcpServerData × Bool) (ip : UInt32) : DhcpServerData × Bool :=
  checkClientIp { p.1 with clientIp := ip } mac p.2

/-- Ask for all of them; the flag starts cleared. -/
def askAll (d : DhcpServerData) (mac : List UInt8) (ips : List UInt32) : DhcpServerData × Bool :=
  ips.foldl (ask mac) (d, false)

/-- What the address does to the flag and to the cache. -/
inductive Checked (d : DhcpServerData) (mac : List UInt8) (got : Bool) :
    DhcpServerData × Bool → Prop
  | keeps (entry : ⟨mac, d.clientIp⟩ ∈ d.ipMacMapping) : Checked d mac got (d, true)
  | refuses (subnet : inSubnet d d.clientIp) (known : ¬Unknown d mac)
    (other : ⟨mac, d.clientIp⟩ ∉ d.ipMacMapping) : Checked d mac got (d, false)
  | grants (usable : Usable d d.clientIp) (unknown : Unknown d mac) (free : Free d d.clientIp) :
    Checked d mac got ((acAdd d mac d.clientIp).1, true)
  | skips (skipped : ¬inSubnet d d.clientIp ∨
      Unknown d mac ∧ ¬(Usable d d.clientIp ∧ Free d d.clientIp)) : Checked d mac got (d, got)

theorem checkClientIp_checked {d : DhcpServerData} (ok : CacheOk d) (mac : List UInt8)
    (got : Bool) : Checked d mac got (checkClientIp d mac got) := by
  unfold checkClientIp
  split
  next subnet =>
    simp only
    split
    next some =>
      -- a client with an entry gets that address and no other
      have known : ¬Unknown d mac := fun unknown => some ((ok.unknown_iff mac).mp unknown)
      obtain ⟨entry, -⟩ := ok.known known
      by_cases same : acLookupMac d mac = d.clientIp
      · rw [decide_eq_true same]
        exact .keeps (same ▸ entry)
      · rw [decide_eq_false same]
        exact .refuses subnet known fun other => same (ok.acLookupMac other)
    next none =>
      -- a client without one gets the address if it is valid
      have unknown : Unknown d mac := (ok.unknown_iff mac).mpr (not_not.mp none)
      split
      next valid =>
        obtain ⟨usable, free⟩ := usable_of_valid subnet valid
        exact .grants usable unknown free
      next invalid =>
        refine .skips (Or.inr ⟨unknown, fun ⟨usable, free⟩ => invalid ?_⟩)
        exact (acValidIp_iff _).mpr ⟨usable.2, usable.3, usable.4, free⟩
  next outside => exact .skips (Or.inl outside)

theorem Checked.eq {d : DhcpServerData} (ok : CacheOk d) {mac : List UInt8} {got : Bool}
    {p : DhcpServerData × Bool} (checked : Checked d mac got p) : checkClientIp d mac got = p := by
  simp only [checkClientIp]
  cases checked with
  | keeps entry =>
    have usable : Usable d d.clientIp := ok.usable _ entry
    have some : d.clientIp ≠ clientIpNotFound := usable.ne_zero
    rw [if_pos usable.1, ok.acLookupMac entry, if_pos some]
    simp
  | refuses subnet known other =>
    obtain ⟨entry, some⟩ := ok.known known
    rw [if_pos subnet, if_pos some]
    have differ : acLookupMac d mac ≠ d.clientIp := fun same => other (same ▸ entry)
    simp [differ]
  | grants usable unknown free =>
    have valid : acValidIp d (ntohl d.clientIp) :=
      (acValidIp_iff _).mpr ⟨usable.2, usable.3, usable.4, free⟩
    rw [if_pos usable.1, if_neg (not_not.mpr (acLookupMac_unknown unknown)), if_pos valid]
  | skips skipped =>
    by_cases subnet : inSubnet d d.clientIp
    · obtain ⟨unknown, unusable⟩ := skipped.resolve_left (not_not.mpr subnet)
      have invalid : ¬acValidIp d (ntohl d.clientIp) :=
        fun valid => unusable (usable_of_valid subnet valid)
      rw [if_pos subnet, if_neg (not_not.mpr (acLookupMac_unknown unknown)), if_neg invalid]
    · rw [if_neg subnet]

theorem Checked.grows {d : DhcpServerData} {mac : List UInt8} {got : Bool}
    {p : DhcpServerData × Bool} (checked : Checked d mac got p) (ok : CacheOk d) :
    CacheOk p.1 ∧ Grows d p.1 ∧ p.1.clientIp = d.clientIp := by
  cases checked with
  | keeps | refuses | skips => exact ⟨ok, Grows.refl d, rfl⟩
  | grants usable unknown free =>
    refine ⟨ok.add unknown usable free, Grows.acAdd mac _, ?_⟩
    unfold acAdd
    split <;> rfl

/-- Looking at the same address once more changes nothing. -/
theorem checkClientIp_again {d : DhcpServerData} (ok : CacheOk d) (mac : List UInt8)
    (got : Bool) : checkClientIp (checkClientIp d mac got).1 mac (checkClientIp d mac got).2 =
      checkClientIp d mac got := by
  have checked := checkClientIp_checked ok mac got
  generalize result : checkClientIp d mac got = p at checked
  cases checked with
  | keeps entry => exact Checked.eq ok (.keeps entry)
  | refuses subnet known other => exact Checked.eq ok (.refuses subnet known other)
  | grants usable unknown free =>
    by_cases room : acNotFull d
    · refine Checked.eq (ok.add unknown usable free) ?_
      rw [acAdd_room _ _ room]
      exact .keeps (by simp)
    · -- nothing was recorded, so the address is granted once more
      have grants : Checked d mac true ((acAdd d mac d.clientIp).1, true) :=
        .grants usable unknown free
      have again := grants.eq ok
      simp only [acAdd_full _ _ room] at again ⊢
      exact again
  | skips skipped => exact Checked.eq ok (.skips skipped)

theorem readOption_eq (msg : Mem UInt8) (opt : Nat) (st : Options) :
    readOption msg opt st =
      { d := (requestedIn msg opt).elim st.d fun ip => { st.d with clientIp := ip }
        responseType :=
          if isMessage msg opt dhcpMessageDiscover then dhcpMessageOffer else st.responseType
        gotIp := st.gotIp
        needIp := isMessage msg opt dhcpMessageRequest || st.needIp
        gotClientIp := (requestedIn msg opt).isSome || st.gotClientIp } := by
  have kinds : isMessage msg opt dhcpMessageDiscover → ¬isMessage msg opt dhcpMessageRequest := by
    simp only [isMessage, decide_eq_true_eq]
    rintro ⟨-, -, discover⟩ ⟨-, -, request⟩
    exact absurd (discover.symm.trans request) (by decide)
  have types : isMessage msg opt dhcpMessageRequest → msg opt ≠ bootpOptionRequestedIp := by
    simp only [isMessage, decide_eq_true_eq]
    rintro ⟨message, -, -⟩
    rw [message]
    decide
  unfold readOption requestedIn
  split_ifs <;> simp_all

theorem askAll_concat (d : DhcpServerData) (mac : List UInt8) (ips : List UInt32) (ip : UInt32) :
    askAll d mac (ips ++ [ip]) = ask mac (askAll d mac ips) ip := by
  rw [askAll, List.foldl_append]
  rfl

theorem askAll_grows {d : DhcpServerData} (ok : CacheOk d) (mac : List UInt8) (ips : List UInt32) :
    CacheOk (askAll d mac ips).1 ∧ Grows d (askAll d mac ips).1 := by
  -- by induction from the last address; the one asked for lies outside the invariant
  induction ips using List.reverseRecOn with
  | nil => exact ⟨ok, Grows.refl d⟩
  | append_singleton ips ip ih =>
    rw [askAll_concat]
    have moved : CacheOk { (askAll d mac ips).1 with clientIp := ip } := ih.1.congr rfl rfl rfl
    have grows : Grows (askAll d mac ips).1 { (askAll d mac ips).1 with clientIp := ip } :=
      ⟨rfl, rfl, List.prefix_refl _, fun _ => rfl⟩
    obtain ⟨ok', grows', -⟩ := (checkClientIp_checked moved mac (askAll d mac ips).2).grows moved
    exact ⟨ok', (ih.2.trans grows).trans grows'⟩

/-- What the loop has done after the options `os`. -/
structure Looked (d : DhcpServerData) (msg : Mem UInt8) (os : List Nat) (st : Options) : Prop where
  asked : (st.d, st.gotIp) = askAll d (chaddr msg) (os.filterMap (requestedIn msg))
  gotClientIp : st.gotClientIp = !(os.filterMap (requestedIn msg)).isEmpty
  needIp : st.needIp = os.any fun opt => isMessage msg opt dhcpMessageRequest
  response : st.needIp → st.responseType = if st.gotIp then dhcpMessageAck else dhcpMessageNak
  silent : ¬st.needIp → st.responseType = dhcpMessageOffer ∨ st.responseType = dhcpNoResponse

/-- Once an address was asked for, looking at it again changes nothing. -/
theorem Looked.fixed {d : DhcpServerData} (ok : CacheOk d) {msg : Mem UInt8} {os : List Nat}
    {st : Options} (looked : Looked d msg os st) (got : st.gotClientIp) :
    checkClientIp st.d (chaddr msg) st.gotIp = (st.d, st.gotIp) := by
  have asked := looked.asked
  have some : os.filterMap (requestedIn msg) ≠ [] := by
    rw [looked.gotClientIp] at got
    simpa using got
  -- the address in `client_ip` is the last one that was asked for
  obtain ⟨ips, ip, split⟩ := (List.eq_nil_or_concat _).resolve_left some
  rw [split, List.concat_eq_append, askAll_concat] at asked
  have moved : CacheOk { (askAll d (chaddr msg) ips).1 with clientIp := ip } :=
    (askAll_grows ok (chaddr msg) ips).1.congr rfl rfl rfl
  have again := checkClientIp_again moved (chaddr msg) (askAll d (chaddr msg) ips).2
  rw [ask] at asked
  rwa [← asked] at again

theorem optionRound_looked {d : DhcpServerData} (ok : CacheOk d) (msg : Mem UInt8) (os : List Nat)
    (opt : Nat) (st : Options) (looked : Looked d msg os st) :
    Looked d msg (os ++ [opt]) (optionRound msg st opt) := by
  -- a round without an address of its own looks at the last one again
  have checked : checkRequested (chaddr msg) (readOption msg opt st) =
      { readOption msg opt st with
        d := (askAll d (chaddr msg) ((os ++ [opt]).filterMap (requestedIn msg))).1
        gotIp := (askAll d (chaddr msg) ((os ++ [opt]).filterMap (requestedIn msg))).2 } := by
    rw [checkRequested, readOption_eq, List.filterMap_append]
    cases requested : requestedIn msg opt with
    | none =>
      simp only [List.filterMap_cons, requested, List.filterMap_nil, List.append_nil,
        ← looked.asked, Option.elim_none, Option.isSome_none, Bool.false_or]
      split
      next got => rw [looked.fixed ok got]
      next => rfl
    | some ip =>
      simp only [List.filterMap_cons, requested, List.filterMap_nil, askAll_concat,
        ← looked.asked, Option.elim_some, Option.isSome_some, Bool.true_or, if_true, ask]
  have need : (readOption msg opt st).needIp =
      (os ++ [opt]).any fun opt => isMessage msg opt dhcpMessageRequest := by
    simp [readOption_eq, looked.needIp, Bool.or_comm]
  have client : (readOption msg opt st).gotClientIp =
      !((os ++ [opt]).filterMap (requestedIn msg)).isEmpty := by
    rw [readOption_eq, List.filterMap_append]
    cases requested : requestedIn msg opt with
    | none => simp [looked.gotClientIp, requested]
    | some ip => simp [requested]
  rw [optionRound, checked, decideResponse]
  split
  next some => exact ⟨rfl, client, need, fun _ => rfl, fun none => absurd some none⟩
  next none =>
    refine ⟨rfl, client, need, fun some => absurd some none, fun _ => ?_⟩
    have before : ¬st.needIp := by
      intro some
      exact none (by simp [readOption_eq, some])
    simp only [readOption_eq]
    split
    · exact Or.inl rfl
    · exact looked.silent before

/-- The loop has looked at every option. -/
theorem optionLoop_looked {d : DhcpServerData} (ok : CacheOk d) (msg : Mem UInt8) (len : Nat) :
    Looked d msg (optionsOf msg len) (optionLoop msg (len - sizeofBootpHeader) sizeofBootpHeader
      (len - sizeofBootpHeader) ⟨d, dhcpNoResponse, false, false, false⟩) := by
  rw [optionLoop_eq_foldl, ← optionsOf]
  generalize optionsOf msg len = os
  induction os using List.reverseRecOn with
  | nil => exact ⟨rfl, rfl, rfl, nofun, fun _ => Or.inr rfl⟩
  | append_singleton os opt ih =>
    rw [List.foldl_append]
    exact optionRound_looked ok msg os opt _ ih

/-! ### The flag after the last address -/

/-- The address the cache holds for the client after the requests `ips`: the one it has, or
the first usable one it asks for while there is room. -/
def leaseFor (d : DhcpServerData) (mac : List UInt8) (ips : List UInt32) : Option UInt32 :=
  match d.ipMacMapping.find? fun e => e.clientMac = mac with
  | some e => some e.clientIp
  | none =>
    if acNotFull d then ips.find? fun ip => inSubnet d ip ∧ acValidIp d (ntohl ip) else none

/-- `ip`, asked for after `before`, is accepted: it is the client's own address, or the
client has none and it is usable and free. -/
def Accepted (d : DhcpServerData) (mac : List UInt8) (before : List UInt32) (ip : UInt32) : Prop :=
  match leaseFor d mac before with
  | some lease => ip = lease
  | none => inSubnet d ip ∧ acValidIp d (ntohl ip)

/-- `ip`, asked for after `before`, leaves the flag alone: it lies outside the subnet, or the
client still has no address and it is unusable or taken. -/
def Skipped (d : DhcpServerData) (mac : List UInt8) (before : List UInt32) (ip : UInt32) : Prop :=
  ¬inSubnet d ip ∨ leaseFor d mac before = none ∧ ¬acValidIp d (ntohl ip)

/-- What one more address does to the flag. -/
def Flagged (d : DhcpServerData) (mac : List UInt8) (before : List UInt32) (ip : UInt32) (got got' : Bool) :
    Prop :=
  Accepted d mac before ip ∧ got' = true ∨ Skipped d mac before ip ∧ got' = got ∨
    ¬Accepted d mac before ip ∧ ¬Skipped d mac before ip ∧ got' = false

/-- An accepted address is followed by others that all leave the flag alone. -/
def Sticks (d : DhcpServerData) (mac : List UInt8) (ips : List UInt32) : Prop :=
  ∃ pre ip post, ips = pre ++ ip :: post ∧ post ≠ [] ∧ Accepted d mac pre ip ∧
    ∀ x ∈ post, Skipped d mac (pre ++ [ip]) x

/-- What the cache holds for the client. -/
inductive Leased (d : DhcpServerData) (mac : List UInt8) (ips : List UInt32)
    (d' : DhcpServerData) : Prop
  | holds (lease : UInt32) (for_client : leaseFor d mac ips = some lease)
    (entry : ⟨mac, lease⟩ ∈ d'.ipMacMapping)
  | nothing (for_client : leaseFor d mac ips = none) (unknown : Unknown d mac)
    (same : d'.ipMacMapping = d.ipMacMapping)

section

variable {d : DhcpServerData} {mac : List UInt8} {ips : List UInt32}

theorem leaseFor_append_of_some {lease : UInt32} (found : leaseFor d mac ips = some lease)
    (rest : List UInt32) : leaseFor d mac (ips ++ rest) = some lease := by
  unfold leaseFor at found ⊢
  split at found
  next => exact found
  next =>
    split at found
    next room => rw [if_pos room, List.find?_append, found, Option.some_or]
    next => exact nomatch found

theorem leaseFor_append_of_none (none : leaseFor d mac ips = none) (rest : List UInt32) :
    leaseFor d mac (ips ++ rest) =
      if acNotFull d then rest.find? fun ip => inSubnet d ip ∧ acValidIp d (ntohl ip)
      else Option.none := by
  unfold leaseFor at none ⊢
  split at none
  next => exact nomatch none
  next =>
    split at none
    next room => rw [if_pos room, if_pos room, List.find?_append, none, Option.none_or]
    next full => rw [if_neg full, if_neg full]

theorem inSubnet_of_grows {d' : DhcpServerData} (grows : Grows d d') (ip : UInt32) :
    inSubnet { d' with clientIp := ip } ip ↔ inSubnet d ip := by
  simp only [inSubnet, grows.netmask, grows.myIp]

/-- A client that has nothing after some requests had nothing before them. -/
theorem unknown_of_leaseFor (none : leaseFor d mac ips = none) : Unknown d mac := by
  unfold leaseFor at none
  split at none
  next => exact nomatch none
  next gone =>
    intro e member
    simpa using List.find?_eq_none.mp gone e member

theorem inSubnet_of_leaseFor (ok : CacheOk d) {lease : UInt32}
    (found : leaseFor d mac ips = some lease) : inSubnet d lease := by
  unfold leaseFor at found
  split at found
  next e entry =>
    obtain rfl : e.clientIp = lease := by simpa using found
    exact (ok.usable e (List.mem_of_find?_eq_some entry)).subnet
  next =>
    split at found
    next =>
      have accepted := List.find?_some found
      simp only [decide_eq_true_eq] at accepted
      exact accepted.1
    next => exact nomatch found

theorem Accepted.not_skipped (ok : CacheOk d) {ip : UInt32} (accepted : Accepted d mac ips ip) :
    ¬Skipped d mac ips ip := by
  unfold Accepted at accepted
  split at accepted
  next lease found =>
    rintro (outside | ⟨none, -⟩)
    · exact outside (accepted ▸ inSubnet_of_leaseFor ok found)
    · exact nomatch found.symm.trans none
  next =>
    rintro (outside | ⟨-, invalid⟩)
    · exact outside accepted.1
    · exact invalid accepted.2

/-- A client that holds an address keeps it, so only that address is accepted. -/
theorem Checked.of_holds {d' : DhcpServerData} {ip lease : UInt32} {got : Bool}
    {result : DhcpServerData × Bool} (ok : CacheOk { d' with clientIp := ip }) (grows : Grows d d')
    (found : leaseFor d mac ips = some lease) (entry : ⟨mac, lease⟩ ∈ d'.ipMacMapping)
    (checked : Checked { d' with clientIp := ip } mac got result) :
    Leased d mac (ips ++ [ip]) result.1 ∧ Flagged d mac ips ip got result.2 := by
  have subnet := inSubnet_of_grows grows ip
  have still := leaseFor_append_of_some found [ip]
  cases checked with
  | keeps entry' =>
    refine ⟨.holds lease still entry, Or.inl ⟨?_, rfl⟩⟩
    have same := ok.acLookupMac entry
    rw [ok.acLookupMac entry'] at same
    rw [Accepted, found]
    exact same
  | refuses subnet' known other =>
    refine ⟨.holds lease still entry, Or.inr (Or.inr ⟨?_, ?_, rfl⟩)⟩
    · rw [Accepted, found]
      rintro rfl
      exact other entry
    · rintro (outside | ⟨none, -⟩)
      · exact outside (subnet.mp subnet')
      · exact nomatch found.symm.trans none
  | grants usable unknown free => exact absurd rfl (unknown _ entry)
  | skips skipped =>
    refine ⟨.holds lease still entry, Or.inr (Or.inl ⟨Or.inl ?_, rfl⟩)⟩
    rcases skipped with outside | ⟨unknown, -⟩
    · exact subnet.not.mp outside
    · exact absurd rfl (unknown _ entry)

/-- A client that holds none is given a free address, as long as there is room to record it. -/
theorem Checked.of_nothing {d' : DhcpServerData} {ip : UInt32} {got : Bool}
    {result : DhcpServerData × Bool} (grows : Grows d d') (none : leaseFor d mac ips = none)
    (unknown : Unknown d mac) (same : d'.ipMacMapping = d.ipMacMapping)
    (checked : Checked { d' with clientIp := ip } mac got result) :
    Leased d mac (ips ++ [ip]) result.1 ∧ Flagged d mac ips ip got result.2 := by
  have subnet := inSubnet_of_grows grows ip
  -- the state has grown since the start, but the subnet and the free addresses are the same
  have valid : Usable { d' with clientIp := ip } ip ∧ Free { d' with clientIp := ip } ip ↔
      inSubnet d ip ∧ acValidIp d (ntohl ip) := by
    rw [← usable_free_iff]
    refine and_congr ⟨?_, ?_⟩ (by simp only [Free, same])
    · rintro ⟨inside, server, network, broadcast⟩
      exact usable_congr grows.netmask.symm grows.myIp.symm ⟨inside, server, network, broadcast⟩
    · intro usable
      obtain ⟨inside, server, network, broadcast⟩ := usable_congr grows.netmask grows.myIp usable
      exact ⟨inside, server, network, broadcast⟩
  have still := leaseFor_append_of_none none [ip]
  have notFull : acNotFull { d' with clientIp := ip } = acNotFull d := by
    simp only [acNotFull, same]
  cases checked with
  | keeps entry => exact absurd rfl (unknown _ (same ▸ entry))
  | refuses subnet' known other =>
    exact absurd (fun e member => unknown e (same ▸ member)) known
  | grants usable unknown' free =>
    have taken := valid.mp ⟨usable, free⟩
    refine ⟨?_, Or.inl ⟨?_, rfl⟩⟩
    · -- a full cache grants without recording
      by_cases room : acNotFull d
      · rw [if_pos room] at still
        refine .holds ip (by simpa [taken] using still) ?_
        rw [acAdd_room _ _ (notFull ▸ room)]
        simp
      · rw [if_neg room] at still
        refine .nothing still unknown ?_
        rw [acAdd_full _ _ (notFull ▸ room)]
        exact same
    · rw [Accepted, none]
      exact taken
  | skips skipped =>
    have rejected : ¬(inSubnet d ip ∧ acValidIp d (ntohl ip)) := by
      rcases skipped with outside | ⟨-, unusable⟩
      · exact fun taken => outside (subnet.mpr taken.1)
      · exact fun taken => unusable (valid.mpr taken)
    refine ⟨.nothing ?_ unknown same, Or.inr (Or.inl ⟨?_, rfl⟩)⟩
    · rw [still]
      split
      · simp [rejected]
      · rfl
    · by_cases inside : inSubnet d ip
      · exact Or.inr ⟨none, fun ok => rejected ⟨inside, ok⟩⟩
      · exact Or.inl inside

/-- One more address: what the cache holds, and the flag. -/
theorem ask_leased {p : DhcpServerData × Bool} (pOk : CacheOk p.1)
    (grows : Grows d p.1) (leased : Leased d mac ips p.1) (ip : UInt32) :
    Leased d mac (ips ++ [ip]) (ask mac p ip).1 ∧ Flagged d mac ips ip p.2 (ask mac p ip).2 := by
  have moved : CacheOk { p.1 with clientIp := ip } := pOk.congr rfl rfl rfl
  have checked := checkClientIp_checked moved mac p.2
  rw [← ask] at checked
  -- by what the client holds, and then by what the check did; most pairs exclude each other
  cases leased with
  | holds lease found entry => exact checked.of_holds moved grows found entry
  | nothing none unknown same => exact checked.of_nothing grows none unknown same

/-- What the cache holds after all the requests. -/
theorem askAll_leased (ok : CacheOk d) (mac : List UInt8) (ips : List UInt32) :
    Leased d mac ips (askAll d mac ips).1 := by
  induction ips using List.reverseRecOn with
  | nil =>
    cases found : leaseFor d mac [] with
    | none => exact .nothing found (unknown_of_leaseFor found) rfl
    | some lease =>
      refine .holds lease found ?_
      unfold leaseFor at found
      split at found
      next e entry =>
        obtain rfl : e.clientIp = lease := by simpa using found
        obtain rfl : e.clientMac = mac := by simpa using List.find?_some entry
        exact List.mem_of_find?_eq_some entry
      next => simp at found
  | append_singleton ips ip ih =>
    obtain ⟨pOk, grows⟩ := askAll_grows ok mac ips
    rw [askAll_concat]
    exact (ask_leased pOk grows ih ip).1

theorem askAll_flag (ok : CacheOk d) (mac : List UInt8) (ips : List UInt32) (ip : UInt32) :
    Flagged d mac ips ip (askAll d mac ips).2 (askAll d mac (ips ++ [ip])).2 := by
  obtain ⟨pOk, grows⟩ := askAll_grows ok mac ips
  rw [askAll_concat]
  exact (ask_leased pOk grows (askAll_leased ok mac ips) ip).2

/-- Skipped addresses do not change what the cache holds for the client. -/
theorem leaseFor_skipped {post : List UInt32} (skipped : ∀ x ∈ post, Skipped d mac ips x) :
    leaseFor d mac (ips ++ post) = leaseFor d mac ips := by
  cases found : leaseFor d mac ips with
  | some lease => exact leaseFor_append_of_some found post
  | none =>
    rw [leaseFor_append_of_none found]
    split
    · rw [List.find?_eq_none]
      intro x member
      rcases skipped x member with outside | ⟨-, invalid⟩
      · simp [outside]
      · simp [invalid]
    · rfl

/-- The flag is set by an accepted address that all later ones leave alone. -/
theorem askAll_got_iff (ok : CacheOk d) (mac : List UInt8) (ips : List UInt32) :
    (askAll d mac ips).2 = true ↔ ∃ pre ip post, ips = pre ++ ip :: post ∧
      Accepted d mac pre ip ∧ ∀ x ∈ post, Skipped d mac (pre ++ [ip]) x := by
  induction ips using List.reverseRecOn with
  | nil => simp [askAll]
  | append_singleton ips last ih =>
    constructor
    · intro got
      rcases askAll_flag ok mac ips last with ⟨accepted, -⟩ | ⟨skipped, same⟩ | ⟨-, -, cleared⟩
      · exact ⟨ips, last, [], rfl, accepted, nofun⟩
      · -- the flag is an earlier one that the last address leaves alone
        obtain ⟨pre, ip, post, rfl, accepted, later⟩ := ih.mp (same ▸ got)
        refine ⟨pre, ip, post ++ [last], by simp, accepted, fun x member => ?_⟩
        rcases List.mem_append.mp member with old | new
        · exact later x old
        · rw [List.mem_singleton.mp new]
          have before : leaseFor d mac (pre ++ ip :: post) = leaseFor d mac (pre ++ [ip]) := by
            rw [show pre ++ ip :: post = pre ++ [ip] ++ post by simp]
            exact leaseFor_skipped later
          rwa [Skipped, before] at skipped
      · rw [cleared] at got
        exact nomatch got
    · rintro ⟨pre, ip, post, split, accepted, later⟩
      -- either the accepted address is the last one, or the last one is skipped
      rcases List.eq_nil_or_concat post with rfl | ⟨rest, x, rfl⟩
      · obtain ⟨rfl, same⟩ := List.append_inj' split rfl
        obtain rfl : last = ip := by simpa using same
        rcases askAll_flag ok mac ips last with ⟨-, got⟩ | ⟨skipped, -⟩ | ⟨refused, -⟩
        · exact got
        · exact absurd skipped (accepted.not_skipped ok)
        · exact absurd accepted refused
      · rw [List.concat_eq_append] at split later
        have split' : ips ++ [last] = (pre ++ ip :: rest) ++ [x] := by simpa using split
        obtain ⟨rfl, same⟩ := List.append_inj' split' rfl
        obtain rfl : last = x := by simpa using same
        have before : leaseFor d mac (pre ++ ip :: rest) = leaseFor d mac (pre ++ [ip]) := by
          rw [show pre ++ ip :: rest = pre ++ [ip] ++ rest by simp]
          exact leaseFor_skipped fun x member => later x (by simp [member])
        have skipped : Skipped d mac (pre ++ ip :: rest) last := by
          rw [Skipped, before]
          exact later last (by simp)
        have got := ih.mpr ⟨pre, ip, rest, rfl, accepted, fun x member => later x (by simp [member])⟩
        rcases askAll_flag ok mac (pre ++ ip :: rest) last with
          ⟨accepted', -⟩ | ⟨-, same⟩ | ⟨-, notSkipped, -⟩
        · exact absurd skipped (accepted'.not_skipped ok)
        · rw [same, got]
        · exact absurd skipped notSkipped

theorem askAll_clientIp (ok : CacheOk d) (mac : List UInt8) (ips : List UInt32) (ip : UInt32) :
    (askAll d mac (ips ++ [ip])).1.clientIp = ip := by
  have moved : CacheOk { (askAll d mac ips).1 with clientIp := ip } :=
    (askAll_grows ok mac ips).1.congr rfl rfl rfl
  rw [askAll_concat]
  exact ((checkClientIp_checked moved mac (askAll d mac ips).2).grows moved).2.2

end

end Bk7251.Dhcp
