import Bk7251.Lib.Bytes

/-!
# The DHCP server

`func/lwip_intf/dhcpd/dhcp-server.c` and its two headers. A message is the receive
buffer and the number of bytes received; options are read where they lie in it. The
messages handed to the sockets are modelled, the sockets are not.
-/
namespace Bk7251.Dhcp

open Lib

def ntohl (x : UInt32) : UInt32 := swap32 x

def htonl (x : UInt32) : UInt32 := swap32 x

def bootpOpRequest : UInt8 := 1
def bootpOpResponse : UInt8 := 2
def bootpOptionSubnetMask : UInt8 := 1
def bootpOptionRouter : UInt8 := 3
def bootpOptionNameserver : UInt8 := 6
def bootpOptionRequestedIp : UInt8 := 50
def bootpOptionAddressTime : UInt8 := 51
def bootpOptionDhcpMessage : UInt8 := 53
def bootpOptionDhcpServerId : UInt8 := 54
def bootpEndOption : UInt8 := 0xFF

def dhcpMessageDiscover : UInt8 := 1
def dhcpMessageOffer : UInt8 := 2
def dhcpMessageRequest : UInt8 := 3
def dhcpMessageAck : UInt8 := 5
def dhcpMessageNak : UInt8 := 6
def dhcpNoResponse : UInt8 := 255

/-- `sizeof(struct bootp_header)` -/
def sizeofBootpHeader : Nat := 240

/-- `sizeof(struct bootp_option)` -/
def sizeofBootpOption : Nat := 2

/-- `MAC_IP_CACHE_SIZE` -/
def macIpCacheSize : Nat := 8

def clientIpNotFound : UInt32 := 0

/-- `hdr->chaddr` -/
def chaddr (msg : Mem UInt8) : List UInt8 := msg.read 28 6

/-- `hdr->ciaddr` -/
def ciaddr (msg : Mem UInt8) : UInt32 := msg.load32 12

/-- `hdr->yiaddr` -/
def yiaddr (msg : Mem UInt8) : UInt32 := msg.load32 16

structure ClientMacCache where
  clientMac : List UInt8
  clientIp : UInt32
  deriving DecidableEq

/-- `struct dhcp_server_data`; the list holds the first `count_clients` slots of
`ip_mac_mapping`. -/
structure DhcpServerData where
  ipMacMapping : List ClientMacCache
  netmask : UInt32
  myIp : UInt32
  clientIp : UInt32
  currentIp : UInt32
  routerIp : UInt32
  deriving DecidableEq

/-- `dhcp_server_init` -/
def dhcpServerInit (myIp netmask routerIp : UInt32) : DhcpServerData where
  ipMacMapping := []
  netmask := netmask
  myIp := myIp
  clientIp := 0
  currentIp := ntohl (myIp &&& netmask) ||| (99 &&& ntohl (~~~netmask))
  routerIp := routerIp

section

variable (d : DhcpServerData)

def acNotFull : Bool := d.ipMacMapping.length < macIpCacheSize

/-- The new state and whether the mapping was added. -/
def acAdd (chaddr : List UInt8) (clientIp : UInt32) : DhcpServerData × Bool :=
  if acNotFull d then ({ d with ipMacMapping := d.ipMacMapping ++ [⟨chaddr, clientIp⟩] }, true)
  else (d, false)

def acLookupMac (chaddr : List UInt8) : UInt32 :=
  match d.ipMacMapping.find? fun e => e.clientMac = chaddr with
  | some e => e.clientIp
  | none => clientIpNotFound

def acLookupIp (clientIp : UInt32) : Option (List UInt8) :=
  (d.ipMacMapping.find? fun e => e.clientIp = clientIp).map ClientMacCache.clientMac

def acValidIp (requestedIp : UInt32) : Bool :=
  if requestedIp = ntohl d.myIp ∨ requestedIp = ntohl (d.myIp &&& d.netmask) ∨
      requestedIp = ntohl (d.myIp ||| (0xffffffff &&& ~~~d.netmask)) then false
  else if (acLookupIp d (htonl requestedIp)).isSome then false
  else true

/-- The next address of the subnet, the first one after the last. -/
def nextInSubnet (currentIp : UInt32) : UInt32 :=
  ntohl (d.myIp &&& d.netmask) ||| ((currentIp + 1) &&& ntohl (~~~d.netmask))

/-- The `while` of `next_yiaddr`; `none` where `fuel` rounds do not end it. -/
def seekValidIp : Nat → UInt32 → Option UInt32
  | 0, _ => none
  | fuel + 1, currentIp =>
    if acValidIp d currentIp then some currentIp else seekValidIp fuel (nextInSubnet d currentIp)

/-- There are no more cursors than these, so a loop that is not over by then never is. -/
def seekFuel : Nat := 2 ^ 32

/-- The new state and the address in network order; `none` where the loop never ends. -/
def nextYiaddr (chaddr : List UInt8) : Option (DhcpServerData × UInt32) :=
  let newIp := acLookupMac d chaddr
  if newIp = clientIpNotFound then
    (seekValidIp d seekFuel (nextInSubnet d d.currentIp)).map fun currentIp =>
      ((acAdd { d with currentIp } chaddr (htonl currentIp)).1, htonl currentIp)
  else some (d, newIp)

end

/-- What the server reads besides its own data: the lease time and whether the DNS handler
is installed. -/
structure Settings where
  dhcpAddressTimeout : UInt32
  nackDnsServer : Bool

/-- An option and its value. -/
def option (type : UInt8) (value : List UInt8) : List UInt8 :=
  type :: value.length.toUInt8 :: value

/-- The options of a response, as they lie behind its header. -/
def responseOptions (cfg : Settings) (d : DhcpServerData) (type : UInt8) : List UInt8 :=
  let message := option bootpOptionDhcpMessage [type]
  if type = dhcpMessageNak then message
  else
    message ++ option bootpOptionSubnetMask (toLe32 d.netmask) ++
      option bootpOptionAddressTime (toLe32 (htonl cfg.dhcpAddressTimeout)) ++
      option bootpOptionDhcpServerId (toLe32 d.myIp) ++
      option bootpOptionRouter (toLe32 d.routerIp) ++
      option bootpOptionNameserver (toLe32 (if cfg.nackDnsServer then d.routerIp else 0)) ++
      [bootpEndOption]

/-- `hdr->yiaddr` of a response, and the state after choosing it. -/
def responseAddress (d : DhcpServerData) (chaddr : List UInt8) (type : UInt8) :
    Option (DhcpServerData × UInt32) :=
  if type = dhcpMessageOffer then nextYiaddr d chaddr
  else some (d, if type = dhcpMessageAck then d.clientIp else 0)

/-- The message with the response in it and its length; the rest of the header stays. -/
def makeResponse (cfg : Settings) (d : DhcpServerData) (msg : Mem UInt8) (type : UInt8) :
    Option (DhcpServerData × Mem UInt8 × Nat) :=
  (responseAddress d (chaddr msg) type).map fun (d, yiaddr) =>
    let options := responseOptions cfg d type
    let msg := msg.write 0 [bootpOpResponse, 1, 6, 0]
    let msg := msg.write 12 (toLe32 0 ++ toLe32 yiaddr ++ toLe32 0 ++ toLe32 0)
    (d, msg.write sizeofBootpHeader options, sizeofBootpHeader + options.length)

/-- The requested address is in the subnet. -/
def inSubnet (d : DhcpServerData) (clientIp : UInt32) : Prop :=
  clientIp &&& d.netmask = d.myIp &&& d.netmask

instance (d : DhcpServerData) (clientIp : UInt32) : Decidable (inSubnet d clientIp) :=
  inferInstanceAs (Decidable (_ = _))

/-- The `if (got_client_ip)` block: the new state and the new `got_ip`. -/
def checkClientIp (d : DhcpServerData) (chaddr : List UInt8) (gotIp : Bool) :
    DhcpServerData × Bool :=
  if inSubnet d d.clientIp then
    let newIp := acLookupMac d chaddr
    if newIp ≠ clientIpNotFound then (d, newIp = d.clientIp)
    else if acValidIp d (ntohl d.clientIp) then ((acAdd d chaddr d.clientIp).1, true)
    else (d, gotIp)
  else (d, gotIp)

/-- The variables of the option loop. -/
structure Options where
  d : DhcpServerData
  responseType : UInt8
  gotIp : Bool
  needIp : Bool
  gotClientIp : Bool

/-- `opt` is a DHCP message option with this message type. -/
def isMessage (msg : Mem UInt8) (opt : Nat) (type : UInt8) : Bool :=
  msg opt = bootpOptionDhcpMessage ∧ msg (opt + 1) = 1 ∧ msg (opt + 2) = type

/-- The message type and the requested address in one option. -/
def readOption (msg : Mem UInt8) (opt : Nat) (st : Options) : Options :=
  let st :=
    if isMessage msg opt dhcpMessageDiscover then { st with responseType := dhcpMessageOffer }
    else if isMessage msg opt dhcpMessageRequest then
      if ciaddr msg ≠ 0 then
        { st with needIp := true, d := { st.d with clientIp := ciaddr msg }, gotClientIp := true }
      else { st with needIp := true }
    else st
  if msg opt = bootpOptionRequestedIp ∧ msg (opt + 1) = 4 then
    { st with d := { st.d with clientIp := msg.load32 (opt + 2) }, gotClientIp := true }
  else st

/-- The `if (got_client_ip)` of the loop. -/
def checkRequested (chaddr : List UInt8) (st : Options) : Options :=
  if st.gotClientIp then
    let (d, gotIp) := checkClientIp st.d chaddr st.gotIp
    { st with d, gotIp }
  else st

/-- The `if (need_ip)` of the loop. -/
def decideResponse (st : Options) : Options :=
  if st.needIp then
    { st with responseType := if st.gotIp then dhcpMessageAck else dhcpMessageNak }
  else st

/-- One round of the loop. -/
def optionRound (msg : Mem UInt8) (st : Options) (opt : Nat) : Options :=
  decideResponse (checkRequested (chaddr msg) (readOption msg opt st))

/-- The loop over the options, from the one at `opt` with `len` bytes left. Every option
takes two bytes or more, so `len` rounds are enough. -/
def optionLoop (msg : Mem UInt8) : Nat → Nat → Nat → Options → Options
  | 0, _, _, st => st
  | fuel + 1, opt, len, st =>
    if 0 < len ∧ msg opt ≠ bootpEndOption then
      let consumed := sizeofBootpOption + (msg (opt + 1)).toNat
      optionLoop msg fuel (opt + consumed) (len - consumed) (optionRound msg st opt)
    else st

/-- The checks in front of the loop. -/
def headerOk (msg : Mem UInt8) (len : Nat) : Bool :=
  sizeofBootpHeader + sizeofBootpOption + 1 ≤ len ∧
    (msg 0 = bootpOpRequest ∨ msg 0 = bootpOpResponse) ∧ msg 1 = 1 ∧ msg 2 = 6

/-- The new state, the returned value and the response sent, with its length; `none` where
`next_yiaddr` never returns. -/
def processDhcpMessage (cfg : Settings) (d : DhcpServerData) (msg : Mem UInt8) (len : Nat) :
    Option (DhcpServerData × Int × Option (Mem UInt8 × Nat)) :=
  if headerOk msg len then
    let left := len - sizeofBootpHeader
    let st := optionLoop msg left sizeofBootpHeader left ⟨d, dhcpNoResponse, false, false, false⟩
    if st.responseType ≠ dhcpNoResponse then
      (makeResponse cfg st.d msg st.responseType).map fun (d, msg, sendByte) =>
        (d, 0, some (msg, sendByte))
    else some (st.d, 0, none)
  else some (d, -1, none)

end Bk7251.Dhcp
