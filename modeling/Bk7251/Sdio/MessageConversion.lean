import Bk7251.Lib.Machine
import Bk7251.Sdio.InboundFrames
import Bk7251.Sdio.ScanCommand

/-!
# Messages to and from the kernel

`sdio_h2e_msg_conversion`, the command case of `sdio_emb_rxed_evt` and `sdio_emb_kmsg_fwd` of
`func/sdio_intf/sdio_intf.c`. A command of the host becomes a message of the kernel, and a message of the
kernel becomes a response frame. Blocks of the heap go by the number of their allocation; the parameters of
the messages and the bodies of the frames are not modelled.
-/
namespace Bk7251.SdioIntf

open Lib

namespace Conversion

def SDIO_INTF_SUCCESS : UInt32 := 0
def SDIO_INTF_FAILURE : UInt32 := 0xFFFFFFFF

def SCMD_802_11_SCAN : UInt16 := 0x0006
def SCMD_802_11_AUTHENTICATE : UInt16 := 0x0011
def SCMD_802_11_ASSOCIATE : UInt16 := 0x0050
def SCMD_802_11_KEY_MATERIAL : UInt16 := 0x005e
def SCMD_RESET_REQ : UInt16 := 0x00b1
def SCMD_ME_CONFIG_REQ : UInt16 := 0x00b2
def SCMD_ME_CHAN_CONFIG_REQ : UInt16 := 0x00b3
def SCMD_START_REQ : UInt16 := 0x00b4
def SCMD_ADD_IF_REQ : UInt16 := 0x00b5
def SCMD_SET_PORT_REQ : UInt16 := 0x00b6
def SCMD_APM_START : UInt16 := 0x00b7
def SCMD_BCN_CHANGE : UInt16 := 0x00b8
def SCMD_MGMT_TX_REQ : UInt16 := 0x00b9
def SCMD_ADD_STA_REQ : UInt16 := 0x00ba
def SCMD_ADD_WEP_KEY : UInt16 := 0x00bb

/-- `CMD_RET` -/
def cmdRet (cmd : UInt16) : UInt16 := 0x8000 ||| cmd

def sizeofFrameHdr : UInt32 := 4
def sizeofCmdHdr : UInt32 := 8
def sizeofTxMgmt : UInt32 := 14
def sizeofAssocResp : UInt32 := 526
def sizeofBeaconInfo : UInt32 := 21
def sizeofScanRsp : UInt32 := 33

/-- The options `CFG_REAL_SDIO` and `CFG_WIFI_AP_MODE`. -/
structure Build where
  realSdio : Bool
  apMode : Bool

/-- The statics, and the number of the next block. -/
structure Statics where
  scanStartFlag : UInt32
  scanRespCmdSn : UInt32
  seq : UInt32
  next : Nat
  deriving DecidableEq

/-- `resp_inc_seqnum` -/
def Statics.respIncSeqnum (s : Statics) : Statics := { s with seq := s.seq + 1 }

/-! ### From the host to the kernel -/

inductive Task
  | mm | me | apm | sm | scanu | api | drv
  deriving DecidableEq

inductive ReqId
  | mmKeyAddReq | apmStartReq | meMgmtTxReq | meStaAddReq | mmResetReq | meConfigReq | meChanConfigReq
  | meSetControlPortReq | mmStartReq | smConnectReq | mmAddIfReq | scanuStartReq
  deriving DecidableEq

structure Req where
  id : ReqId
  destId : Task
  srcId : Task
  deriving DecidableEq

/-- A frame from the host: the length in its header, and the bytes behind the header. -/
structure HostFrame where
  len : UInt16
  cmd : Mem UInt8

def HostFrame.command (frame : HostFrame) : UInt16 := Mem.load16 frame.cmd 0

/-- What a conversion has done: the blocks it allocated with the messages in them, and what it stored through
`kmsg_pptr`. -/
structure Converted where
  ret : UInt32
  made : List (Nat × Req)
  stored : List Nat
  deriving DecidableEq

def failed : Converted := ⟨SDIO_INTF_FAILURE, [], []⟩

/-- The conversions allocate a message, fill it in and store its address. -/
def cmdConversion (req : Req) (s : Statics) : Statics × Converted :=
  ({ s with next := s.next + 1 }, ⟨SDIO_INTF_SUCCESS, [(s.next, req)], [s.next]⟩)

def cmdConversionAddWepKey := cmdConversion ⟨.mmKeyAddReq, .mm, .drv⟩
def cmdConversionStartApm := cmdConversion ⟨.apmStartReq, .apm, .drv⟩
def cmdConversionMgmtTxReq := cmdConversion ⟨.meMgmtTxReq, .me, .drv⟩
def cmdConversionAddStaReq := cmdConversion ⟨.meStaAddReq, .me, .drv⟩
def cmdConversionResetReq := cmdConversion ⟨.mmResetReq, .mm, .api⟩
def cmdConversionMeConfigReq := cmdConversion ⟨.meConfigReq, .me, .api⟩
def cmdConversionMeChanConfigReq := cmdConversion ⟨.meChanConfigReq, .me, .api⟩
def cmdConversionSetPortReq := cmdConversion ⟨.meSetControlPortReq, .me, .api⟩
def cmdConversionStartReq := cmdConversion ⟨.mmStartReq, .mm, .api⟩
def cmdConversionAssocReq := cmdConversion ⟨.smConnectReq, .sm, .api⟩
def cmdConversionKeyMaterialReq := cmdConversion ⟨.mmKeyAddReq, .mm, .api⟩
def cmdConversionAddIfReq := cmdConversion ⟨.mmAddIfReq, .mm, .api⟩

/-- `cmd_conversion_802_11_scan` with its message; without a result the loop over the items goes on. -/
def cmdConversionScan (b : Build) (fuel : Nat) (frame : HostFrame) (s : Statics) :
    Option (Statics × Converted) :=
  if b.realSdio ∨ (cmdConversion80211Scan fuel frame.cmd).isSome then
    let (s, converted) := cmdConversion ⟨.scanuStartReq, .scanu, .api⟩ s
    let s := s.respIncSeqnum
    some ({ s with scanRespCmdSn := s.seq }, converted)
  else none

def sdioH2eMsgConversion (b : Build) (fuel : Nat) (frame : HostFrame) (s : Statics) :
    Option (Statics × Converted) :=
  let command := frame.command
  if frame.len.toUInt32 ≤ sizeofFrameHdr then some (s, failed)
  else if command = SCMD_ADD_WEP_KEY then some (cmdConversionAddWepKey s)
  else if command = SCMD_APM_START then some (cmdConversionStartApm s)
  else if command = SCMD_BCN_CHANGE then some (s, ⟨SDIO_INTF_SUCCESS, [], []⟩)
  else if command = SCMD_MGMT_TX_REQ then some (cmdConversionMgmtTxReq s)
  else if command = SCMD_ADD_STA_REQ then some (cmdConversionAddStaReq s)
  else if command = SCMD_802_11_SCAN then
    if b.realSdio ∨ s.scanStartFlag = 0 then cmdConversionScan b fuel frame { s with scanStartFlag := 1 }
    else some (s, failed)
  else if command = SCMD_RESET_REQ then some (cmdConversionResetReq s)
  else if command = SCMD_ME_CONFIG_REQ then some (cmdConversionMeConfigReq s)
  else if command = SCMD_ME_CHAN_CONFIG_REQ then some (cmdConversionMeChanConfigReq s)
  else if command = SCMD_START_REQ then some (cmdConversionStartReq s)
  else if command = SCMD_ADD_IF_REQ then some (cmdConversionAddIfReq s)
  else if command = SCMD_802_11_KEY_MATERIAL then some (cmdConversionKeyMaterialReq s)
  else if command = SCMD_802_11_ASSOCIATE then some (cmdConversionAssocReq s)
  else if command = SCMD_SET_PORT_REQ then some (cmdConversionSetPortReq s)
  else some (s, failed)

/-! ### From the kernel to the host -/

/-- A message of the kernel by its id, with the parameters that are looked at. -/
inductive KernelMsg
  | meMgmtTxCfm (hostid : UInt32) (status rspFrmNew : UInt8) (length : UInt16)
  | mmKeyAddCfm
  | rxuMgtInd (framectrl : UInt16)
  | meStaAddCfm
  | mmBcnChangeCfm
  | apmStartCfm
  | scanuResultInd (length paramLen : UInt16)
  | scanuStartCfm
  | mmResetCfm
  | meConfigCfm
  | meChanConfigCfm
  | mmStartCfm
  | mmAddIfCfm
  | smConnectCfm
  | smConnectInd (statusCode paramLen : UInt16)
  | meSetControlPortCfm
  | mmChannelSwitchInd
  | mmPsChangeInd
  | smDisconnectInd
  | other (id : UInt16)
  deriving DecidableEq

/-- The headers of a response. Some leave the sequence number as the heap had it. -/
structure RespFrame where
  len : UInt16
  type : UInt16
  command : UInt16
  result : UInt16
  seqnum : Option UInt16
  size : UInt16
  deriving DecidableEq

/-- What `sdio_resp_conversion` has done: the length it returns, the frames it built, and the management frame
that it sent and freed. -/
structure Response where
  len : UInt32
  built : List (Nat × RespFrame)
  mgmtTx : List (UInt32 × UInt16)
  mgmtFreed : List UInt32
  deriving DecidableEq

def Response.none : Response := ⟨0, [], [], []⟩

/-- A frame of this length is allocated, and its headers are filled in. -/
def buildFrame (len : UInt32) (command result : UInt16) (seqnum : Option UInt16) (size : UInt16)
    (s : Statics) : Statics × Response :=
  ({ s with next := s.next + 1 },
    ⟨len, [(s.next, ⟨len.toUInt16, MVMS_CMD, command, result, seqnum, size⟩)], [], []⟩)

def respConversionGenericCfm (retCmd : UInt16) (s : Statics) : Statics × Response :=
  let s := s.respIncSeqnum
  buildFrame (sizeofFrameHdr + sizeofCmdHdr) (cmdRet retCmd) 0 (some s.seq.toUInt16) sizeofCmdHdr.toUInt16 s

def MAC_FCTRL_TYPESUBTYPE_MASK : UInt16 := 0x00FC
def MAC_FCTRL_ASSOCREQ : UInt16 := 0x0000
def MAC_FCTRL_AUTHENT : UInt16 := 0x00B0

def respConversionRxuMgtInd (framectrl : UInt16) (s : Statics) : Statics × Response :=
  let type := framectrl &&& MAC_FCTRL_TYPESUBTYPE_MASK
  let cmd :=
    if type = MAC_FCTRL_ASSOCREQ then SCMD_802_11_ASSOCIATE
    else if type = MAC_FCTRL_AUTHENT then SCMD_802_11_AUTHENTICATE
    else 0
  buildFrame sizeofTxMgmt cmd 0 none (sizeofTxMgmt - sizeofFrameHdr).toUInt16 s

def CO_OK : UInt8 := 0

def respConversionMgmtTxCfm (b : Build) (hostid : UInt32) (status rspFrmNew : UInt8) (length : UInt16)
    (s : Statics) : Statics × Response :=
  let (s, resp) := respConversionGenericCfm SCMD_MGMT_TX_REQ s
  if b.apMode ∧ status = CO_OK then
    (s, { resp with mgmtTx := [(hostid, length)], mgmtFreed := if rspFrmNew ≠ 0 then [hostid] else [] })
  else (s, resp)

def respConversionStartApmCfm := respConversionGenericCfm SCMD_APM_START
def respConversionBcnChangeCfm := respConversionGenericCfm SCMD_BCN_CHANGE
def respConversionAddStaCfm := respConversionGenericCfm SCMD_ADD_STA_REQ
def respConversionResetCfm := respConversionGenericCfm SCMD_RESET_REQ
def respConversionMeConfigCfm := respConversionGenericCfm SCMD_ME_CONFIG_REQ
def respConversionMeChanConfigCfm := respConversionGenericCfm SCMD_ME_CHAN_CONFIG_REQ
def respConversionStartCfm := respConversionGenericCfm SCMD_START_REQ
def respConversionAddIfCfm := respConversionGenericCfm SCMD_ADD_IF_REQ
def respConversionSetPortCfm := respConversionGenericCfm SCMD_SET_PORT_REQ
def respConversionKeyAddCfm := respConversionGenericCfm SCMD_802_11_KEY_MATERIAL

def respConversionConnectInd (b : Build) (statusCode paramLen : UInt16) (s : Statics) : Statics × Response :=
  let len := sizeofFrameHdr + if b.realSdio then sizeofCmdHdr + paramLen.toUInt32 else sizeofAssocResp
  let s := s.respIncSeqnum
  buildFrame len (cmdRet SCMD_802_11_ASSOCIATE) (if b.realSdio then statusCode else 0) (some s.seq.toUInt16)
    (len - sizeofFrameHdr).toUInt16 s

def respConversionScanuCfm (b : Build) (s : Statics) : Statics × Response :=
  let len := sizeofFrameHdr + if b.realSdio then sizeofCmdHdr else sizeofScanRsp
  buildFrame len (cmdRet SCMD_802_11_SCAN) 0 (some s.scanRespCmdSn.toUInt16)
    (if b.realSdio then 0 else (len - sizeofFrameHdr).toUInt16) s

/-- The length of the elements behind a scan result of this length: the headers in front of them take 12 and
36 bytes. -/
def viesLen (length : UInt16) : UInt32 := length.toUInt32 - 12 - 36 + 10

def respConversionScanuRet (b : Build) (length paramLen : UInt16) (s : Statics) : Statics × Response :=
  let len :=
    if b.realSdio then sizeofFrameHdr + sizeofCmdHdr + paramLen.toUInt32
    else sizeofFrameHdr + sizeofScanRsp - 1 + sizeofBeaconInfo + viesLen length
  buildFrame len (cmdRet SCMD_802_11_SCAN) 0 (some s.scanRespCmdSn.toUInt16)
    (if b.realSdio then paramLen else (len - sizeofFrameHdr).toUInt16) s

def sdioRespConversion (b : Build) (msg : KernelMsg) (s : Statics) : Statics × Response :=
  match msg with
  | .meMgmtTxCfm hostid status rspFrmNew length => respConversionMgmtTxCfm b hostid status rspFrmNew length s
  | .mmKeyAddCfm => respConversionKeyAddCfm s
  | .rxuMgtInd framectrl => respConversionRxuMgtInd framectrl s
  | .meStaAddCfm => respConversionAddStaCfm s
  | .mmBcnChangeCfm => respConversionBcnChangeCfm s
  | .apmStartCfm => respConversionStartApmCfm s
  | .scanuResultInd length paramLen => respConversionScanuRet b length paramLen s
  | .scanuStartCfm => respConversionScanuCfm b { s with scanStartFlag := 0 }
  | .mmResetCfm => respConversionResetCfm s
  | .meConfigCfm => respConversionMeConfigCfm s
  | .meChanConfigCfm => respConversionMeChanConfigCfm s
  | .mmStartCfm => respConversionStartCfm s
  | .mmAddIfCfm => respConversionAddIfCfm s
  | .smConnectCfm => (s, .none)
  | .smConnectInd statusCode paramLen => respConversionConnectInd b statusCode paramLen s
  | .meSetControlPortCfm => respConversionSetPortCfm s
  | .mmChannelSwitchInd => (s, .none)
  | .mmPsChangeInd => (s, .none)
  | .smDisconnectInd => (s, .none)
  | .other _ => (s, .none)

/-! ### The two directions -/

/-- What a call has done: messages sent to the kernel by the block they are in, or blocks freed. -/
inductive Outcome
  | host (converted : Converted) (sent : List Nat)
  | forwarded (ret : UInt32) (msgFrees : Nat) (resp : Response) (freed : List Nat)
  deriving DecidableEq

/-- The command case of `sdio_emb_rxed_evt`. Where nothing is stored in `kmsg`, it is what the stack had
there. -/
def rxedCommand (b : Build) (fuel : Nat) (frame : HostFrame) (stack : Nat) (s : Statics) :
    Option (Statics × Outcome) :=
  (sdioH2eMsgConversion b fuel frame s).map fun (s, converted) =>
    let kmsg := converted.stored.getLast?.getD stack
    (s, .host converted (if converted.ret = SDIO_INTF_SUCCESS then [kmsg] else []))

/-- `sdio_emb_kmsg_fwd`, where `ddev_open` and `ddev_write` succeed or not. -/
def sdioEmbKmsgFwd (b : Build) (msg : KernelMsg) (opened written : Bool) (s : Statics) : Statics × Outcome :=
  let (s, resp) := sdioRespConversion b msg s
  if resp.len = 0 then (s, .forwarded SDIO_INTF_SUCCESS 1 resp [])
  else if !opened then (s, .forwarded SDIO_INTF_FAILURE 1 resp [])
  else if !written then (s, .forwarded SDIO_INTF_FAILURE 1 resp [])
  else (s, .forwarded SDIO_INTF_SUCCESS 1 resp (resp.built.map Prod.fst))

inductive Call
  | host (frame : HostFrame) (stack : Nat)
  | forward (msg : KernelMsg) (opened written : Bool)

def handle (b : Build) (fuel : Nat) (s : Statics) : Call → Option (Statics × Outcome)
  | .host frame stack => rxedCommand b fuel frame stack s
  | .forward msg opened written => some (sdioEmbKmsgFwd b msg opened written s)

/-- A conversion succeeds exactly when it stored the one message it made, and only such a message is sent.
The message and the frame built for it are freed once. -/
def Outcome.Right : Outcome → Prop
  | .host converted sent =>
    (converted.ret = SDIO_INTF_SUCCESS ↔
        ∃ block req, converted.made = [(block, req)] ∧ converted.stored = [block]) ∧
      ∀ block ∈ sent, block ∈ converted.made.map Prod.fst
  | .forwarded _ msgFrees resp freed => msgFrees = 1 ∧ freed = resp.built.map Prod.fst

/-- The messages that are answered with a frame. -/
def KernelMsg.answered : KernelMsg → Bool
  | .smConnectCfm | .mmChannelSwitchInd | .mmPsChangeInd | .smDisconnectInd | .other _ => false
  | _ => true

/-- No change of the beacon, and a message that is answered finds a device that can be opened and written. -/
def Call.Fine : Call → Prop
  | .host frame _ => ¬ (sizeofFrameHdr < frame.len.toUInt32 ∧ frame.command = SCMD_BCN_CHANGE)
  | .forward msg opened written => msg.answered = true → opened = true ∧ written = true

/-! ### Commands -/

/-- The conversion has failed without a message, or made one and stored it. -/
inductive Settled : Converted → Prop
  | failed : Settled failed
  | stored (block : Nat) (req : Req) : Settled ⟨SDIO_INTF_SUCCESS, [(block, req)], [block]⟩

/-- What comes back has settled. -/
def Settles (result : Option (Statics × Converted)) : Prop := ∀ p ∈ result, Settled p.2

variable {b : Build} {fuel : Nat} {s : Statics} {frame : HostFrame}

private theorem settles_failed : Settles (some (s, failed)) := by
  rintro _ ⟨⟩
  exact .failed

private theorem settles_cmdConversion (req : Req) : Settles (some (cmdConversion req s)) := by
  rintro _ ⟨⟩
  exact .stored s.next req

private theorem settles_ite {p : Prop} [Decidable p] {x y : Option (Statics × Converted)}
    (left : p → Settles x) (right : ¬ p → Settles y) : Settles (if p then x else y) := by
  split
  next holds => exact left holds
  next fails => exact right fails

private theorem settles_scan : Settles (cmdConversionScan b fuel frame s) := by
  refine settles_ite (fun _ => ?_) fun _ => ?_
  · rintro _ ⟨⟩
    exact .stored s.next _
  · rintro _ ⟨⟩

/-- Every command but one settles. -/
theorem settles_of_fine (fine : ¬ (sizeofFrameHdr < frame.len.toUInt32 ∧ frame.command = SCMD_BCN_CHANGE)) :
    Settles (sdioH2eMsgConversion b fuel frame s) := by
  refine settles_ite (fun _ => settles_failed) fun long => ?_
  refine settles_ite (fun _ => settles_cmdConversion _) fun _ => ?_
  refine settles_ite (fun _ => settles_cmdConversion _) fun _ => ?_
  refine settles_ite (fun beacon => absurd ⟨UInt32.not_le.mp long, beacon⟩ fine) fun _ => ?_
  refine settles_ite (fun _ => settles_cmdConversion _) fun _ => ?_
  refine settles_ite (fun _ => settles_cmdConversion _) fun _ => ?_
  refine settles_ite (fun _ => settles_ite (fun _ => settles_scan) fun _ => settles_failed) fun _ => ?_
  -- from here on every case is a message like the others
  iterate 8 refine settles_ite (fun _ => settles_cmdConversion _) fun _ => ?_
  exact settles_failed

/-- A change of the beacon succeeds without a message. -/
theorem beacon_change_converted (long : sizeofFrameHdr < frame.len.toUInt32)
    (beacon : frame.command = SCMD_BCN_CHANGE) :
    sdioH2eMsgConversion b fuel frame s = some (s, ⟨SDIO_INTF_SUCCESS, [], []⟩) := by
  have key : SCMD_BCN_CHANGE ≠ SCMD_ADD_WEP_KEY := by decide
  have apm : SCMD_BCN_CHANGE ≠ SCMD_APM_START := by decide
  rw [sdioH2eMsgConversion, beacon, if_neg (UInt32.not_le.mpr long), if_neg key, if_neg apm, if_pos rfl]

private theorem right_of_settled {converted : Converted} {stack : Nat} (settled : Settled converted) :
    (Outcome.host converted
      (if converted.ret = SDIO_INTF_SUCCESS then [converted.stored.getLast?.getD stack] else [])).Right := by
  cases settled with
  | failed =>
    have differs : SDIO_INTF_FAILURE ≠ SDIO_INTF_SUCCESS := by decide
    constructor
    · simp [failed, differs]
    · simp [failed, differs]
  | stored block req =>
    constructor
    · simp
    · simp

private theorem host_right_iff (b : Build) (fuel : Nat) (s : Statics) (frame : HostFrame) (stack : Nat) :
    (∀ out ∈ (rxedCommand b fuel frame stack s).map Prod.snd, out.Right) ↔ (Call.host frame stack).Fine := by
  constructor
  · rintro right ⟨long, beacon⟩
    rw [rxedCommand, beacon_change_converted long beacon] at right
    -- what the stack had there is sent
    have wrong := (right _ rfl).2 stack List.mem_cons_self
    exact absurd wrong List.not_mem_nil
  · intro fine out member
    obtain ⟨p, result, rfl⟩ := Option.map_eq_some_iff.mp member
    obtain ⟨⟨t, converted⟩, conversion, rfl⟩ := Option.map_eq_some_iff.mp result
    exact right_of_settled (settles_of_fine fine (t, converted) conversion)

/-! ### Responses -/

/-- One frame was built, and its length is returned. -/
def Response.Full (resp : Response) : Prop := resp.len ≠ 0 ∧ ∃ block frame, resp.built = [(block, frame)]

private theorem buildFrame_full {len : UInt32} (some : len ≠ 0) (command result : UInt16)
    (seqnum : Option UInt16) (size : UInt16) : (buildFrame len command result seqnum size s).2.Full :=
  ⟨some, s.next, _, rfl⟩

private theorem generic_full (retCmd : UInt16) : (respConversionGenericCfm retCmd s).2.Full :=
  buildFrame_full (by decide) ..

/-- A length with the two headers in it does not come round to zero. -/
private theorem headers_ne_zero (paramLen : UInt16) :
    sizeofFrameHdr + sizeofCmdHdr + paramLen.toUInt32 ≠ 0 := by
  intro zero
  -- 16 bits and two headers are far from a wrap
  have short := paramLen.toNat_lt
  have total := congrArg UInt32.toNat zero
  simp only [sizeofFrameHdr, sizeofCmdHdr, UInt32.toNat_add, UInt16.toNat_toUInt32,
    UInt32.reduceToNat] at total
  omega

private theorem scan_result_ne_zero (length : UInt16) :
    sizeofFrameHdr + sizeofScanRsp - 1 + sizeofBeaconInfo + viesLen length ≠ 0 := by
  intro zero
  have short := length.toNat_lt
  have total := congrArg UInt32.toNat zero
  simp only [viesLen, sizeofFrameHdr, sizeofScanRsp, sizeofBeaconInfo, UInt32.toNat_add, UInt32.toNat_sub,
    UInt16.toNat_toUInt32, UInt32.reduceToNat] at total
  omega

private theorem scanuRet_full (length paramLen : UInt16) :
    (respConversionScanuRet b length paramLen s).2.Full := by
  apply buildFrame_full
  split
  next => exact headers_ne_zero paramLen
  next => exact scan_result_ne_zero length

private theorem connectInd_full (statusCode paramLen : UInt16) :
    (respConversionConnectInd b statusCode paramLen s).2.Full := by
  apply buildFrame_full
  split
  next =>
    rw [← UInt32.add_assoc]
    exact headers_ne_zero paramLen
  next => decide

private theorem scanuCfm_full : (respConversionScanuCfm b s).2.Full := by
  apply buildFrame_full
  split <;> decide

private theorem mgmtTxCfm_full (hostid : UInt32) (status rspFrmNew : UInt8) (length : UInt16) :
    (respConversionMgmtTxCfm b hostid status rspFrmNew length s).2.Full := by
  have generic := generic_full (s := s) SCMD_MGMT_TX_REQ
  rw [respConversionMgmtTxCfm]
  dsimp only
  split <;> exact generic

/-- A message that is answered gets one frame, whatever the message and the build are. -/
theorem answered_full {msg : KernelMsg} (answered : msg.answered = true) :
    (sdioRespConversion b msg s).2.Full := by
  -- the five that have frames of their own, the silent ones, and the rest
  cases msg with
  | meMgmtTxCfm hostid status rspFrmNew length => exact mgmtTxCfm_full hostid status rspFrmNew length
  | rxuMgtInd framectrl => exact buildFrame_full (by decide) ..
  | scanuResultInd length paramLen => exact scanuRet_full length paramLen
  | scanuStartCfm => exact scanuCfm_full
  | smConnectInd statusCode paramLen => exact connectInd_full statusCode paramLen
  | smConnectCfm | mmChannelSwitchInd | mmPsChangeInd | smDisconnectInd | other => cases answered
  | _ => exact generic_full _

/-- The others build nothing. -/
theorem silent_none {msg : KernelMsg} (silent : ¬ msg.answered = true) :
    (sdioRespConversion b msg s).2 = .none := by
  cases msg with
  | smConnectCfm | mmChannelSwitchInd | mmPsChangeInd | smDisconnectInd | other => rfl
  | _ => exact absurd rfl silent

private theorem forward_right_iff (b : Build) (s : Statics) (msg : KernelMsg) (opened written : Bool) :
    (sdioEmbKmsgFwd b msg opened written s).2.Right ↔ (Call.forward msg opened written).Fine := by
  by_cases answered : msg.answered = true
  · obtain ⟨len, block, frame, built⟩ := answered_full (b := b) (s := s) answered
    simp only [Call.Fine, answered, true_imp_iff, sdioEmbKmsgFwd, len, if_false]
    -- only the last of the four returns frees the frame
    cases opened <;> cases written <;> simp [Outcome.Right, built]
  · simp only [Call.Fine, answered, sdioEmbKmsgFwd, silent_none answered]
    simp [Response.none, Outcome.Right]

/-- Commands of the host succeed with a fresh message, and what is built for the messages of the kernel is
freed, exactly when no command that is reached is a change of the beacon and every message that is answered
finds a device that can be opened and written. -/
theorem conversions_right_iff (b : Build) (fuel : Nat) (s : Statics) (calls : List Call) :
    (∀ o ∈ (Machine.run (Machine.halting (handle b fuel)) (some s) calls).2, ∀ out ∈ o, out.Right) ↔
      Along (fun s call => (Machine.halting (handle b fuel) s call).1)
        (fun s call => s.isSome = true → call.Fine) (some s) calls := by
  apply Machine.run_outputs_iff
  intro s call
  -- behind a command whose loop does not end nothing is handled
  cases s with
  | none => simp [Machine.halting]
  | some s =>
    simp only [Machine.halting, Option.isSome_some, true_imp_iff]
    cases call with
    | host frame stack => exact host_right_iff b fuel s frame stack
    | forward msg opened written =>
      rw [← forward_right_iff b s]
      simp [handle]

/-- A change of the beacon sends whatever the stack had in place of the message. -/
theorem beacon_change_sends_stack :
    ¬ ∀ b fuel s calls, ∀ o ∈ (Machine.run (Machine.halting (handle b fuel)) (some s) calls).2,
      ∀ out ∈ o, out.Right := by
  intro always
  have right := always ⟨false, true⟩ 1 ⟨0, 0, 0, 0⟩ [.host ⟨12, Mem.ofList [0xb8, 0, 8, 0, 0, 0, 0, 0]⟩ 7]
    (some (.host ⟨SDIO_INTF_SUCCESS, [], []⟩ [7])) (by decide +kernel) _ rfl
  exact absurd (right.2 7 List.mem_cons_self) List.not_mem_nil

/-- An answer that could not be written is not freed. -/
example : (sdioEmbKmsgFwd ⟨false, true⟩ .mmResetCfm true false ⟨0, 0, 0, 0⟩).2 =
    .forwarded SDIO_INTF_FAILURE 1 ⟨12, [(0, ⟨12, 1, 0x80b1, 0, some 1, 8⟩)], [], []⟩ [] := by
  decide +kernel

end Conversion

end Bk7251.SdioIntf
