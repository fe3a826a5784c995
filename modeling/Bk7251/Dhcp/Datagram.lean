import Bk7251.Dhcp.AckSound

/-!
# What the outcome of a message depends on

The option loop asks only whether some length remains. The last option it looks at may be cut off by the end
of the datagram, and what is read of it then is whatever the receive buffer held before.
-/
namespace Bk7251.Dhcp

open Lib

/-! ### The outcome of a message -/

/-- The state when the options have been read, the response chosen then, and the state and the address that
go with it; no answer where `next_yiaddr` never returns. -/
structure Outcome where
  parsed : DhcpServerData
  responseType : UInt8
  answer : Option (DhcpServerData × UInt32)
deriving DecidableEq

def parse (d : DhcpServerData) (msg : Mem UInt8) (len : Nat) : Options :=
  optionLoop msg (len - sizeofBootpHeader) sizeofBootpHeader (len - sizeofBootpHeader)
    ⟨d, dhcpNoResponse, false, false, false⟩

/-- There is no outcome where the checks in front of the loop reject the message. -/
def outcome (d : DhcpServerData) (msg : Mem UInt8) (len : Nat) : Option Outcome :=
  if headerOk msg len then
    let st := parse d msg len
    some ⟨st.d, st.responseType,
      if st.responseType = dhcpNoResponse then some (st.d, 0)
      else responseAddress st.d (chaddr msg) st.responseType⟩
  else none

/-- What `process_dhcp_message` does, as far as its outcome says. -/
inductive Shows (d : DhcpServerData) : Option Outcome →
    Option (DhcpServerData × Int × Option (Mem UInt8 × Nat)) → Prop
  | rejected : Shows d none (some (d, -1, none))
  | silent (o : Outcome) (type : o.responseType = dhcpNoResponse) : Shows d (some o) (some (o.parsed, 0, none))
  | answered (o : Outcome) (type : o.responseType ≠ dhcpNoResponse) (d' : DhcpServerData) (r : Mem UInt8)
    (n : Nat) (answer : o.answer = some (d', yiaddr r)) (sent : sentType r = o.responseType) :
    Shows d (some o) (some (d', 0, some (r, n)))
  | hangs (o : Outcome) (answer : o.answer = none) : Shows d (some o) none

theorem processDhcpMessage_shows (cfg : Settings) (d : DhcpServerData) (msg : Mem UInt8) (len : Nat) :
    Shows d (outcome d msg len) (processDhcpMessage cfg d msg len) := by
  unfold outcome processDhcpMessage
  split
  next =>
    dsimp only
    rw [← parse]
    generalize parse d msg len = st
    by_cases type : st.responseType = dhcpNoResponse
    · rw [if_pos type, if_neg (not_not.mpr type)]
      exact .silent _ type
    · rw [if_neg type, if_pos type]
      cases made : makeResponse cfg st.d msg st.responseType with
      | none =>
        apply Shows.hangs
        exact Option.map_eq_none_iff.mp made
      | some response =>
        obtain ⟨d', r, n⟩ := response
        obtain ⟨answer, sent, -⟩ := makeResponse_spec made
        exact .answered _ type d' r n answer sent
  next => exact .rejected

/-- Whatever else the buffer holds, the outcome is that of the datagram. -/
def FromDatagram (d : DhcpServerData) (msg : Mem UInt8) (len : Nat) : Prop :=
  ∀ msg' : Mem UInt8, (∀ x < len, msg' x = msg x) → outcome d msg' len = outcome d msg len

/-! ### Options that are cut off -/

/-- A requested address of which the length or a part of the value lies behind the end. -/
def AddressCut (msg : Mem UInt8) (len opt : Nat) : Prop :=
  msg opt = bootpOptionRequestedIp ∧ (opt + 1 = len ∨ msg (opt + 1) = 4 ∧ len < opt + 6)

/-- A message type that lies behind the end. -/
def MessageCut (msg : Mem UInt8) (len opt : Nat) : Prop :=
  msg opt = bootpOptionDhcpMessage ∧ (opt + 1 = len ∨ msg (opt + 1) = 1 ∧ opt + 2 = len)

/-- After the options `before`, one more message type makes no difference: the message is a request, and
`ciaddr` adds nothing to the addresses it has asked for. -/
def Decided (msg : Mem UInt8) (before : List Nat) : Prop :=
  (before.any fun opt => isMessage msg opt dhcpMessageRequest) ∧
    (ciaddr msg = 0 ∨ (before.filterMap (requestedIn msg)).getLast? = some (ciaddr msg))

/-- The last option is not cut off where it matters. -/
def Contained (msg : Mem UInt8) (len : Nat) : Prop :=
  ∀ before opt, optionsOf msg len = before ++ [opt] →
    ¬AddressCut msg len opt ∧ (MessageCut msg len opt → Decided msg before)

section

variable {msg msg' : Mem UInt8} {len : Nat}

theorem headerOk_agree (agree : ∀ x < len, msg' x = msg x) : headerOk msg' len = headerOk msg len := by
  by_cases short : sizeofBootpHeader + sizeofBootpOption + 1 ≤ len
  · have inside : 243 ≤ len := short
    simp only [headerOk, agree 0 (by omega), agree 1 (by omega), agree 2 (by omega)]
  · simp only [headerOk, short, false_and]

theorem chaddr_agree (agree : ∀ x < len, msg' x = msg x) (header : sizeofBootpHeader ≤ len) :
    chaddr msg' = chaddr msg := by
  have inside : 240 ≤ len := header
  exact Mem.read_congr msg' msg 28 6 fun x _ below => agree x (by omega)

theorem load32_agree (agree : ∀ x < len, msg' x = msg x) {a : Nat} (inside : a + 4 ≤ len) :
    msg'.load32 a = msg.load32 a := by
  simp only [Mem.load32, agree a (by omega), agree (a + 1) (by omega), agree (a + 2) (by omega),
    agree (a + 3) (by omega)]

theorem ciaddr_agree (agree : ∀ x < len, msg' x = msg x) (header : sizeofBootpHeader ≤ len) :
    ciaddr msg' = ciaddr msg := by
  have inside : 240 ≤ len := header
  exact load32_agree agree (by omega)

/-- The datagram alone says where the options lie. -/
theorem optionOffsets_agree (agree : ∀ x < len, msg' x = msg x) (fuel opt left : Nat)
    (upTo : left = 0 ∨ opt + left = len) :
    optionOffsets msg' fuel opt left = optionOffsets msg fuel opt left := by
  induction fuel generalizing opt left with
  | zero => rfl
  | succ fuel ih =>
    rw [optionOffsets, optionOffsets]
    by_cases more : 0 < left
    · have here : opt + left = len := upTo.resolve_left (Nat.ne_of_gt more)
      rw [agree opt (by omega)]
      split
      · dsimp only
        by_cases whole : 2 ≤ left
        · rw [agree (opt + 1) (by omega), ih]
          omega
        · -- an option without a length is the last
          have none (consumed : Nat) : left - (sizeofBootpOption + consumed) = 0 := by
            rw [sizeofBootpOption]
            omega
          have last (m : Mem UInt8) (o : Nat) : optionOffsets m fuel o 0 = [] := by
            cases fuel with
            | zero => rfl
            | succ fuel => exact if_neg fun h => Nat.lt_irrefl 0 h.1
          rw [none, none, last, last]
      · rfl
    · rw [if_neg fun h => more h.1, if_neg fun h => more h.1]

/-- Every option begins in the datagram, and all but the last end there. -/
theorem optionOffsets_inside (fuel opt left : Nat) (upTo : left = 0 ∨ opt + left = len)
    {before after : List Nat} {o : Nat} (split : optionOffsets msg fuel opt left = before ++ o :: after) :
    o < len ∧ (after ≠ [] → o + sizeofBootpOption + (msg (o + 1)).toNat < len) := by
  induction fuel generalizing opt left before with
  | zero => cases before <;> cases split
  | succ fuel ih =>
    rw [optionOffsets] at split
    split at split
    next more =>
      have here : opt + left = len := upTo.resolve_left (Nat.ne_of_gt more.1)
      cases before with
      | nil =>
        obtain ⟨rfl, rest⟩ := List.cons.inj split
        refine ⟨by omega, fun some => ?_⟩
        -- there is a next option only if something is left behind this one
        rw [← rest] at some
        cases fuel with
        | zero => exact absurd rfl some
        | succ fuel =>
          rw [optionOffsets] at some
          split at some
          next next => omega
          next => exact absurd rfl some
      | cons first before =>
        apply ih _ _ _ (List.cons.inj split).2
        omega
    next => cases before <;> cases split

theorem not_cut_of_whole {opt : Nat} (whole : opt + sizeofBootpOption + (msg (opt + 1)).toNat < len) :
    ¬AddressCut msg len opt ∧ ¬MessageCut msg len opt := by
  rw [sizeofBootpOption] at whole
  constructor
  · rintro ⟨-, last | ⟨four, cut⟩⟩
    · omega
    · rw [four] at whole
      change opt + 2 + 4 < len at whole
      omega
  · rintro ⟨-, last | ⟨one, cut⟩⟩
    · omega
    · rw [one] at whole
      change opt + 2 + 1 < len at whole
      omega

theorem isMessage_agree (agree : ∀ x < len, msg' x = msg x) {opt : Nat} (inside : opt < len)
    (whole : ¬MessageCut msg len opt) (type : UInt8) : isMessage msg' opt type = isMessage msg opt type := by
  rw [isMessage, isMessage, agree opt inside]
  by_cases message : msg opt = bootpOptionDhcpMessage
  · have length : opt + 1 < len :=
      Nat.lt_of_le_of_ne inside fun last => whole ⟨message, .inl last⟩
    rw [agree (opt + 1) length]
    by_cases one : msg (opt + 1) = 1
    · have value : opt + 2 < len :=
        Nat.lt_of_le_of_ne length fun last => whole ⟨message, .inr ⟨one, last⟩⟩
      rw [agree (opt + 2) value]
    · simp only [one, false_and, and_false]
  · simp only [message, false_and]

theorem readOption_agree (agree : ∀ x < len, msg' x = msg x) (header : sizeofBootpHeader ≤ len) {opt : Nat}
    (inside : opt < len) (address : ¬AddressCut msg len opt) (message : ¬MessageCut msg len opt)
    (st : Options) : readOption msg' opt st = readOption msg opt st := by
  have same : (msg' opt = bootpOptionRequestedIp ∧ msg' (opt + 1) = 4 ↔
      msg opt = bootpOptionRequestedIp ∧ msg (opt + 1) = 4) ∧
      (msg opt = bootpOptionRequestedIp ∧ msg (opt + 1) = 4 →
        msg'.load32 (opt + 2) = msg.load32 (opt + 2)) := by
    rw [agree opt inside]
    by_cases type : msg opt = bootpOptionRequestedIp
    · have length : opt + 1 < len :=
        Nat.lt_of_le_of_ne inside fun last => address ⟨type, .inl last⟩
      rw [agree (opt + 1) length]
      refine ⟨Iff.rfl, fun four => load32_agree agree ?_⟩
      exact Nat.not_lt.mp fun cut => address ⟨type, .inr ⟨four.2, cut⟩⟩
    · exact ⟨⟨fun no => absurd no.1 type, fun no => absurd no.1 type⟩, fun no => absurd no.1 type⟩
  simp only [readOption, isMessage_agree agree inside message, ciaddr_agree agree header, same.1]
  split
  next four => rw [same.2 four]
  next => rfl

end

/-! ### The state after some options -/

/-- Looking at the same address once more changes nothing, whatever the cache holds. -/
theorem checkClientIp_settles (d : DhcpServerData) (mac : List UInt8) (got : Bool) :
    checkClientIp (checkClientIp d mac got).1 mac (checkClientIp d mac got).2 = checkClientIp d mac got := by
  by_cases subnet : inSubnet d d.clientIp
  · by_cases known : acLookupMac d mac ≠ clientIpNotFound
    · simp only [checkClientIp, if_pos subnet, if_pos known]
    · by_cases valid : acValidIp d (ntohl d.clientIp)
      · have granted (got : Bool) : checkClientIp d mac got = ((acAdd d mac d.clientIp).1, true) := by
          simp only [checkClientIp, if_pos subnet, if_neg known, if_pos valid]
        rw [granted]
        by_cases room : acNotFull d
        · -- the new entry is found by its client or, behind an empty one, keeps the address taken
          rw [acAdd_room _ _ room]
          have subnet' : inSubnet { d with ipMacMapping := d.ipMacMapping ++ [⟨mac, d.clientIp⟩] } d.clientIp :=
            subnet
          simp only [checkClientIp, if_pos subnet']
          split
          next found =>
            have own : acLookupMac { d with ipMacMapping := d.ipMacMapping ++ [⟨mac, d.clientIp⟩] } mac =
                d.clientIp := by
              rw [acLookupMac, List.find?_append] at found ⊢
              rw [acLookupMac] at known
              cases first : d.ipMacMapping.find? fun e => e.clientMac = mac with
              | none => simp
              | some e =>
                rw [first] at known found
                exact absurd found known
            rw [own, decide_eq_true rfl]
          next =>
            split
            next free =>
              rw [acValidIp_iff] at free
              exact absurd rfl (free.2.2.2 ⟨mac, d.clientIp⟩ (by simp))
            next => rfl
        · -- without room for an entry the second look finds what the first did
          rw [acAdd_full _ _ room, granted, acAdd_full _ _ room]
      · simp only [checkClientIp, if_pos subnet, if_neg known, if_neg valid]
  · simp only [checkClientIp, if_neg subnet]

theorem checkClientIp_clientIp (d : DhcpServerData) (mac : List UInt8) (got : Bool) :
    (checkClientIp d mac got).1.clientIp = d.clientIp := by
  unfold checkClientIp acAdd
  split
  · dsimp only
    split
    · rfl
    · split
      · split
        · rfl
        · rfl
      · rfl
  · rfl

/-- What is known after the options `os`. -/
structure Read (d : DhcpServerData) (msg : Mem UInt8) (os : List Nat) (st : Options) : Prop where
  clientIp : st.d.clientIp = ((os.filterMap (requestedIn msg)).getLast?).getD d.clientIp
  gotClientIp : st.gotClientIp = ((os.filterMap (requestedIn msg)).getLast?).isSome
  needIp : st.needIp = os.any fun opt => isMessage msg opt dhcpMessageRequest
  settled : st.gotClientIp → checkClientIp st.d (chaddr msg) st.gotIp = (st.d, st.gotIp)
  response : st.needIp → st.responseType = if st.gotIp then dhcpMessageAck else dhcpMessageNak
  silent : ¬st.needIp → st.responseType = dhcpMessageOffer ∨ st.responseType = dhcpNoResponse

/-- What the two blocks behind the reading of an option leave. -/
structure Rechecked (mac : List UInt8) (st st' : Options) : Prop where
  clientIp : st'.d.clientIp = st.d.clientIp
  gotClientIp : st'.gotClientIp = st.gotClientIp
  needIp : st'.needIp = st.needIp
  settled : st'.gotClientIp → checkClientIp st'.d mac st'.gotIp = (st'.d, st'.gotIp)
  response : st'.needIp → st'.responseType = if st'.gotIp then dhcpMessageAck else dhcpMessageNak
  silent : ¬st'.needIp → st'.responseType = st.responseType

theorem checkRequested_rechecked (mac : List UInt8) (st : Options) :
    Rechecked mac st (decideResponse (checkRequested mac st)) := by
  have checked : (checkRequested mac st).d.clientIp = st.d.clientIp ∧
      (checkRequested mac st).gotClientIp = st.gotClientIp ∧
      (checkRequested mac st).needIp = st.needIp ∧
      (checkRequested mac st).responseType = st.responseType ∧
      ((checkRequested mac st).gotClientIp → checkClientIp (checkRequested mac st).d mac
        (checkRequested mac st).gotIp = ((checkRequested mac st).d, (checkRequested mac st).gotIp)) := by
    rw [checkRequested]
    split
    · exact ⟨checkClientIp_clientIp .., rfl, rfl, rfl, fun _ => checkClientIp_settles ..⟩
    next none => exact ⟨rfl, rfl, rfl, rfl, fun some => absurd some none⟩
  obtain ⟨clientIp, gotClientIp, needIp, response, settled⟩ := checked
  rw [decideResponse]
  split
  next need => exact ⟨clientIp, gotClientIp, needIp, settled, fun _ => rfl, fun none => absurd need none⟩
  next none =>
    exact ⟨clientIp, gotClientIp, needIp, settled, fun need => absurd need none, fun _ => response⟩

theorem read_start (d : DhcpServerData) (msg : Mem UInt8) :
    Read d msg [] ⟨d, dhcpNoResponse, false, false, false⟩ :=
  ⟨rfl, rfl, rfl, nofun, nofun, fun _ => .inr rfl⟩

theorem Read.round {d : DhcpServerData} {msg : Mem UInt8} {os : List Nat} {st : Options}
    (read : Read d msg os st) (opt : Nat) : Read d msg (os ++ [opt]) (optionRound msg st opt) := by
  have after := checkRequested_rechecked (chaddr msg) (readOption msg opt st)
  rw [← optionRound] at after
  have need : (readOption msg opt st).needIp =
      (os ++ [opt]).any fun opt => isMessage msg opt dhcpMessageRequest := by
    simp [readOption_eq, read.needIp, Bool.or_comm]
  have asked : (readOption msg opt st).d.clientIp =
        (((os ++ [opt]).filterMap (requestedIn msg)).getLast?).getD d.clientIp ∧
      (readOption msg opt st).gotClientIp =
        (((os ++ [opt]).filterMap (requestedIn msg)).getLast?).isSome := by
    rw [readOption_eq, List.filterMap_append]
    cases requested : requestedIn msg opt with
    | none => simp [requested, read.clientIp, read.gotClientIp]
    | some ip => simp [requested]
  refine ⟨after.clientIp.trans asked.1, after.gotClientIp.trans asked.2, after.needIp.trans need,
    after.settled, after.response, fun none => ?_⟩
  rw [after.silent none, readOption_eq]
  dsimp only
  split
  · exact .inl rfl
  · apply read.silent
    rw [after.needIp, readOption_eq] at none
    exact fun some => none (by simp [some])

theorem foldl_read (d : DhcpServerData) (msg : Mem UInt8) (os : List Nat) :
    Read d msg os (os.foldl (optionRound msg) ⟨d, dhcpNoResponse, false, false, false⟩) := by
  induction os using List.reverseRecOn with
  | nil => exact read_start d msg
  | append_singleton os opt ih =>
    rw [List.foldl_append]
    exact ih.round opt

/-- A round that reads nothing new changes nothing. -/
theorem Read.round_eq {d : DhcpServerData} {msg : Mem UInt8} {os : List Nat} {st st' : Options}
    (read : Read d msg os st) (same : st' = { st with responseType := st'.responseType })
    (response : ¬st.needIp → st'.responseType = st.responseType) :
    decideResponse (checkRequested (chaddr msg) st') = st := by
  obtain ⟨d', type, got, need, client⟩ := st'
  simp only [Options.mk.injEq, true_and] at same
  obtain ⟨rfl, rfl, rfl, rfl⟩ := same
  have checked : checkRequested (chaddr msg) { st with responseType := type } =
      { st with responseType := type } := by
    rw [checkRequested]
    split
    next got => rw [read.settled got]
    next => rfl
  rw [checked, decideResponse]
  split
  next need =>
    dsimp only
    rw [← read.response need]
  next none =>
    rw [show type = st.responseType from response none]

/-! ### The last option -/

section

variable {d : DhcpServerData} {msg msg' : Mem UInt8} {len : Nat} {before : List Nat} {opt : Nat}

theorem optionsOf_inside (header : sizeofBootpHeader ≤ len) {after : List Nat} {o : Nat}
    (split : optionsOf msg len = before ++ o :: after) :
    o < len ∧ (after ≠ [] → o + sizeofBootpOption + (msg (o + 1)).toNat < len) :=
  optionOffsets_inside _ _ _ (.inr (Nat.add_sub_cancel' header)) split

/-- Up to the last option a message is read as its datagram says. -/
theorem parse_concat (agree : ∀ x < len, msg' x = msg x) (header : sizeofBootpHeader ≤ len)
    (split : optionsOf msg len = before ++ [opt]) :
    parse d msg' len = optionRound msg'
      (before.foldl (optionRound msg) ⟨d, dhcpNoResponse, false, false, false⟩) opt := by
  have offsets : optionsOf msg' len = before ++ [opt] := by
    rw [← split, optionsOf, optionsOf]
    exact optionOffsets_agree agree _ _ _ (.inr (Nat.add_sub_cancel' header))
  have front (st : Options) : before.foldl (optionRound msg') st = before.foldl (optionRound msg) st := by
    apply List.foldl_ext
    intro st o member
    obtain ⟨first, rest, rfl⟩ := List.append_of_mem member
    rw [List.append_assoc, List.cons_append] at split
    obtain ⟨inside, whole⟩ := optionsOf_inside header split
    obtain ⟨address, message⟩ := not_cut_of_whole (whole (List.append_ne_nil_of_right_ne_nil _
      (List.cons_ne_nil _ _)))
    rw [optionRound, optionRound, chaddr_agree agree header,
      readOption_agree agree header inside address message]
  rw [parse, optionLoop_eq_foldl, ← optionsOf, offsets, List.foldl_append, front, List.foldl_cons,
    List.foldl_nil]

/-- A message type that is cut off changes nothing once the message is decided. -/
theorem optionRound_decided {st : Options} (agree : ∀ x < len, msg' x = msg x)
    (header : sizeofBootpHeader ≤ len) (inside : opt < len) (read : Read d msg before st)
    (type : msg opt = bootpOptionDhcpMessage) (decided : Decided msg before) :
    optionRound msg' st opt = st := by
  obtain ⟨request, known⟩ := decided
  -- a REQUEST has been seen already, so one more settles nothing new
  have need : st.needIp = true := read.needIp.trans request
  have other : ¬(msg' opt = bootpOptionRequestedIp ∧ msg' (opt + 1) = 4) := by
    rw [agree opt inside, type]
    exact fun same => absurd same.1 (by decide)
  have nothing : (requestedIn msg' opt).elim st.d (fun ip => { st.d with clientIp := ip }) = st.d ∧
      ((requestedIn msg' opt).isSome || st.gotClientIp) = st.gotClientIp := by
    rw [requestedIn, if_neg other, ciaddr_agree agree header]
    split
    next asks =>
      have last := known.resolve_left asks.2
      have same : ciaddr msg = st.d.clientIp := by rw [read.clientIp, last, Option.getD_some]
      have some : st.gotClientIp = true := by rw [read.gotClientIp, last, Option.isSome_some]
      rw [same, some]
      exact ⟨rfl, rfl⟩
    next => exact ⟨rfl, rfl⟩
  rw [optionRound, chaddr_agree agree header]
  apply read.round_eq
  · rw [readOption_eq, nothing.1, nothing.2, need, Bool.or_true]
  · exact fun none => absurd need none

theorem optionRound_clientIp (msg : Mem UInt8) (st : Options) (opt : Nat) :
    (optionRound msg st opt).d.clientIp = (requestedIn msg opt).getD st.d.clientIp := by
  have after := (checkRequested_rechecked (chaddr msg) (readOption msg opt st)).clientIp
  rw [optionRound, after, readOption_eq]
  cases requestedIn msg opt with
  | none => rfl
  | some ip => rfl

/-- The same datagram in a buffer with these bytes behind it. -/
def behind (msg : Mem UInt8) (len opt : Nat) (length value : UInt8) : Mem UInt8 := fun x =>
  if x < len then msg x else if x = opt + 1 then length else value

theorem behind_agree (msg : Mem UInt8) (len opt : Nat) (length value : UInt8) :
    ∀ x < len, behind msg len opt length value x = msg x := fun _ below => if_pos below

theorem behind_length {length value : UInt8} (stated : opt + 1 < len → msg (opt + 1) = length) :
    behind msg len opt length value (opt + 1) = length := by
  rw [behind]
  split
  next inside => exact stated inside
  next => exact if_pos rfl

theorem behind_value {length value : UInt8} {x : Nat} (outside : len ≤ x) (other : x ≠ opt + 1) :
    behind msg len opt length value x = value := by
  rw [behind, if_neg (Nat.not_lt.mpr outside), if_neg other]

theorem FromDatagram.parse_eq (from_datagram : FromDatagram d msg len) (ok : headerOk msg len)
    (agree : ∀ x < len, msg' x = msg x) : (parse d msg' len).d = (parse d msg len).d ∧
      (parse d msg' len).responseType = (parse d msg len).responseType := by
  have equal := from_datagram msg' agree
  rw [outcome, outcome, headerOk_agree agree, if_pos ok, if_pos ok] at equal
  dsimp only at equal
  rw [Option.some.injEq, Outcome.mk.injEq] at equal
  exact ⟨equal.1, equal.2.1⟩

/-- With a requested address that is cut off, the address is what the buffer held before. -/
theorem not_addressCut (from_datagram : FromDatagram d msg len) (ok : headerOk msg len)
    (header : sizeofBootpHeader ≤ len) (split : optionsOf msg len = before ++ [opt]) :
    ¬AddressCut msg len opt := by
  rintro ⟨type, cut⟩
  have inside : opt < len := (optionsOf_inside header split).1
  have asked (value : UInt8) : (parse d (behind msg len opt 4 value) len).d.clientIp =
      (behind msg len opt 4 value).load32 (opt + 2) := by
    have length : behind msg len opt 4 value (opt + 1) = 4 := by
      apply behind_length
      intro within
      rcases cut with last | ⟨four, -⟩
      · omega
      · exact four
    rw [parse_concat (behind_agree msg len opt 4 value) header split, optionRound_clientIp, requestedIn,
      if_pos ⟨(behind_agree msg len opt 4 value opt inside).trans type, length⟩, Option.getD_some]
  have value (b : UInt8) : behind msg len opt 4 b (opt + 2 + 3) = b := by
    apply behind_value
    · omega
    · omega
  have same (b : UInt8) := (from_datagram.parse_eq ok (behind_agree msg len opt 4 b)).1
  -- two buffers that differ in the last byte of the address would have to give the same
  have bytes : toLe32 ((behind msg len opt 4 0).load32 (opt + 2)) =
      toLe32 ((behind msg len opt 4 1).load32 (opt + 2)) := by
    rw [← asked, ← asked, same, same]
  rw [Mem.load32, Mem.load32, toLe32_ofLe32, toLe32_ofLe32, value, value] at bytes
  simp at bytes

section

variable (message : MessageCut msg len opt) (inside : opt < len)

include message inside

theorem behind_type (value : UInt8) : behind msg len opt 1 value opt = bootpOptionDhcpMessage :=
  (behind_agree msg len opt 1 value opt inside).trans message.1

/-- The byte behind the end is taken for the message type. -/
theorem isMessage_behind (value type : UInt8) :
    isMessage (behind msg len opt 1 value) opt type = decide (value = type) := by
  have cut := message.2
  have length : behind msg len opt 1 value (opt + 1) = 1 := by
    apply behind_length
    intro within
    rcases cut with last | ⟨one, -⟩
    · omega
    · exact one
  have old : behind msg len opt 1 value (opt + 2) = value := by
    apply behind_value
    · omega
    · omega
  simp only [isMessage, behind_type message inside, length, old, true_and]

theorem requestedIn_behind (header : sizeofBootpHeader ≤ len) (value : UInt8) :
    requestedIn (behind msg len opt 1 value) opt =
      if value = dhcpMessageRequest ∧ ciaddr msg ≠ 0 then some (ciaddr msg) else none := by
  have other : ¬(behind msg len opt 1 value opt = bootpOptionRequestedIp ∧
      behind msg len opt 1 value (opt + 1) = 4) := by
    rw [behind_type message inside]
    exact fun same => absurd same.1 (by decide)
  rw [requestedIn, if_neg other, isMessage_behind message inside,
    ciaddr_agree (behind_agree msg len opt 1 value) header]
  simp only [decide_eq_true_eq]

end

theorem requestedIn_request {o : Nat} (request : isMessage msg o dhcpMessageRequest)
    (asks : ciaddr msg ≠ 0) : requestedIn msg o = some (ciaddr msg) := by
  have kind := request
  simp only [isMessage, decide_eq_true_eq] at kind
  have other : ¬(msg o = bootpOptionRequestedIp ∧ msg (o + 1) = 4) := by
    rw [kind.1]
    exact fun same => absurd same.1 (by decide)
  rw [requestedIn, if_neg other, if_pos ⟨request, asks⟩]

/-- With a message type that is cut off before a REQUEST, the old byte decides what is answered. -/
theorem messageCut_request (from_datagram : FromDatagram d msg len) (ok : headerOk msg len)
    (header : sizeofBootpHeader ≤ len) (split : optionsOf msg len = before ++ [opt])
    (message : MessageCut msg len opt) :
    before.any fun opt => isMessage msg opt dhcpMessageRequest := by
  have inside : opt < len := (optionsOf_inside header split).1
  have read := foldl_read d msg before
  have parsed (value : UInt8) := parse_concat (d := d) (behind_agree msg len opt 1 value) header split
  have same (value : UInt8) := (from_datagram.parse_eq ok (behind_agree msg len opt 1 value)).2
  generalize before.foldl (optionRound msg) ⟨d, dhcpNoResponse, false, false, false⟩ = st at read parsed
  by_contra none
  have fresh : st.needIp = false := read.needIp.trans (Bool.eq_false_iff.mpr none)
  -- a REQUEST is answered, and anything else is not
  have answers := checkRequested_rechecked (chaddr (behind msg len opt 1 dhcpMessageRequest))
    (readOption (behind msg len opt 1 dhcpMessageRequest) opt st)
  have silent := checkRequested_rechecked (chaddr (behind msg len opt 1 0))
    (readOption (behind msg len opt 1 0) opt st)
  rw [← optionRound, ← parsed] at answers silent
  have need : (parse d (behind msg len opt 1 dhcpMessageRequest) len).needIp = true := by
    rw [answers.needIp, readOption_eq]
    dsimp only
    rw [isMessage_behind message inside]
    rfl
  have needless : (parse d (behind msg len opt 1 0) len).needIp = false := by
    rw [silent.needIp, readOption_eq]
    dsimp only
    rw [isMessage_behind message inside, fresh]
    rfl
  have first := answers.response need
  have second := silent.silent (Bool.eq_false_iff.mp needless)
  rw [same] at first second
  rw [readOption_eq] at second
  dsimp only at second
  rw [isMessage_behind message inside, if_neg (by decide), first] at second
  rcases read.silent (Bool.eq_false_iff.mp fresh) with offer | nothing
  · rw [offer] at second
    split at second
    · exact absurd second (by decide)
    · exact absurd second (by decide)
  · rw [nothing] at second
    split at second
    · exact absurd second (by decide)
    · exact absurd second (by decide)

/-- With a message type that is cut off before the message is decided, the old byte decides. -/
theorem messageCut_decided (from_datagram : FromDatagram d msg len) (ok : headerOk msg len)
    (header : sizeofBootpHeader ≤ len) (split : optionsOf msg len = before ++ [opt])
    (message : MessageCut msg len opt) : Decided msg before := by
  have inside : opt < len := (optionsOf_inside header split).1
  have request := messageCut_request from_datagram ok header split message
  refine ⟨request, ?_⟩
  by_cases zero : ciaddr msg = 0
  · exact .inl zero
  right
  have parsed (value : UInt8) := parse_concat (d := d) (behind_agree msg len opt 1 value) header split
  have same (value : UInt8) := (from_datagram.parse_eq ok (behind_agree msg len opt 1 value)).1
  have asked := congrArg DhcpServerData.clientIp ((same dhcpMessageRequest).trans (same 0).symm)
  rw [parsed, parsed, optionRound_clientIp, optionRound_clientIp, requestedIn_behind message inside header,
    requestedIn_behind message inside header, if_pos ⟨rfl, zero⟩, if_neg fun no => absurd no.1 (by decide),
    Option.getD_some, Option.getD_none, (foldl_read d msg before).clientIp] at asked
  cases last : (before.filterMap (requestedIn msg)).getLast? with
  | some ip =>
    rw [last, Option.getD_some] at asked
    rw [asked]
  | none =>
    -- the REQUEST in front has asked for `ciaddr`
    obtain ⟨o, member, kind⟩ := List.any_eq_true.mp request
    have found : ciaddr msg ∈ before.filterMap (requestedIn msg) :=
      List.mem_filterMap.mpr ⟨o, member, requestedIn_request kind zero⟩
    rw [List.getLast?_eq_none_iff.mp last] at found
    cases found

/-- A message whose last option is not cut off where it matters is parsed as its datagram says. -/
theorem parse_agree (agree : ∀ x < len, msg' x = msg x) (header : sizeofBootpHeader ≤ len)
    (contained : Contained msg len) : parse d msg' len = parse d msg len := by
  rcases List.eq_nil_or_concat (optionsOf msg len) with none | ⟨before, opt, split⟩
  · have offsets : optionsOf msg' len = [] := by
      rw [← none, optionsOf, optionsOf]
      exact optionOffsets_agree agree _ _ _ (.inr (Nat.add_sub_cancel' header))
    rw [parse, parse, optionLoop_eq_foldl, optionLoop_eq_foldl, ← optionsOf, ← optionsOf, none, offsets]
    rfl
  · rw [List.concat_eq_append] at split
    obtain ⟨address, message⟩ := contained before opt split
    have inside : opt < len := (optionsOf_inside header split).1
    rw [parse_concat agree header split, parse_concat (fun _ _ => rfl) header split]
    by_cases cut : MessageCut msg len opt
    · have read := foldl_read d msg before
      rw [optionRound_decided agree header inside read cut.1 (message cut),
        optionRound_decided (fun _ _ => rfl) header inside read cut.1 (message cut)]
    · rw [optionRound, optionRound, chaddr_agree agree header, readOption_agree agree header inside address cut]

end

/-- The outcome of a message is that of its datagram exactly if the message is rejected, or its last option
is no requested address that is cut off, and no message type that is cut off before the message is decided. -/
theorem from_datagram_iff (d : DhcpServerData) (msg : Mem UInt8) (len : Nat) :
    FromDatagram d msg len ↔ ¬headerOk msg len ∨ Contained msg len := by
  by_cases ok : headerOk msg len
  · have header : sizeofBootpHeader ≤ len := by
      simp only [headerOk, decide_eq_true_eq] at ok
      exact Nat.le_trans (Nat.le_add_right _ _) (Nat.le_trans (Nat.le_add_right _ 1) ok.1)
    constructor
    · intro from_datagram
      refine .inr fun before opt split => ⟨?_, ?_⟩
      · exact not_addressCut from_datagram ok header split
      · exact messageCut_decided from_datagram ok header split
    · intro condition msg' agree
      have contained := condition.resolve_left (not_not.mpr ok)
      rw [outcome, outcome, headerOk_agree agree, if_pos ok, if_pos ok, parse_agree agree header contained,
        chaddr_agree agree header]
  · refine iff_of_true (fun msg' agree => ?_) (.inl ok)
    rw [outcome, outcome, headerOk_agree agree, if_neg ok, if_neg ok]

/-- More bytes behind the end leave the datagram as it is. -/
theorem message_append (mac options more : List UInt8) :
    ∀ x < sizeofBootpHeader + options.length, message mac (options ++ more) x = message mac options x := by
  intro x below
  rw [message, message, Mem.write_append]
  exact Mem.write_of_lt _ _ _ _ below

/-- A DISCOVER with a requested address of which only the head has arrived. -/
theorem from_datagram_fails :
    ¬FromDatagram (dhcpServerInit homeIp homeMask homeIp)
      (message [2, 0, 0, 0, 0, 1] [bootpOptionDhcpMessage, 1, dhcpMessageDiscover, bootpOptionRequestedIp, 4])
      245 := by
  intro from_datagram
  have same := from_datagram _ (message_append [2, 0, 0, 0, 0, 1]
    [bootpOptionDhcpMessage, 1, dhcpMessageDiscover, bootpOptionRequestedIp, 4] [192, 168, 0, 77])
  exact absurd same (by decide)

end Bk7251.Dhcp
