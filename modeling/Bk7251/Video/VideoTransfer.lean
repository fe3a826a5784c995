import Bk7251.Lib.Mem

/-!
# The packet pool of the video transfer

`func/video_transfer/video_transfer.c`, built for the camera with packet headers and without
`TVIDEO_DROP_DATA_NONODE`. `tvideo_rx_handler` and `tvideo_end_frame_handler` run as interrupts,
`tvideo_poll_handler` in the video thread; every list operation of either is a step of its own, as are
the filling of an element and the call of `send_func`.
-/
namespace Bk7251.Video

open Lib

def TVIDEO_RXNODE_SIZE : Nat := 1472

def TVIDEO_RXNODE_SIZE_TCP : UInt32 := 1460

/-- `TVIDEO_POOL_LEN / TVIDEO_RXNODE_SIZE` -/
def POOL_ELEMS : Nat := 25

/-- `TV_HDR_PARAM_ST` but for `ptk_ptr`. -/
structure HdrParam where
  ptklen : UInt32
  frameId : UInt32
  isEof : UInt32
  frameLen : UInt32

/-- `TVIDEO_SETUP_DESC_ST`. `addPktHeader` gives the bytes the callback stores from `ptk_ptr` on, and of
`send_func` only whether there is one: its answers come with the steps. -/
structure Setup where
  sendType : UInt32
  sendFunc : Bool
  pktHeaderSize : UInt32
  addPktHeader : Option (HdrParam → List UInt8)

/-- `TVIDEO_POOL_ST`. Element `i` has its buffer at `i * TVIDEO_RXNODE_SIZE`; the lists hold indices. -/
structure TvideoPool where
  pool : Mem UInt8
  bufLen : Nat → UInt32
  free : List Nat
  ready : List Nat
  sendType : UInt32
  sendFunc : Bool
  frameId : UInt16
  pktHeaderSize : UInt16
  addPktHeader : Option (HdrParam → List UInt8)

def bufStart (elem : Nat) : Nat := elem * TVIDEO_RXNODE_SIZE

def tvideoPoolInit (setup : Setup) : TvideoPool where
  pool _ := 0
  bufLen _ := 0
  free := List.range POOL_ELEMS
  ready := []
  sendType := setup.sendType
  sendFunc := setup.sendFunc
  frameId := 0
  -- The size loses its upper half here.
  pktHeaderSize := setup.pktHeaderSize.toUInt16
  addPktHeader := setup.addPktHeader

def TVIDEO_SND_UDP : UInt32 := 1
def TVIDEO_SND_TCP : UInt32 := 2
def TVIDEO_SND_INTF : UInt32 := 3

/-- The node length that `tvideo_config_desc` sets. -/
def tvideoConfigDesc (pool : TvideoPool) : UInt32 :=
  if pool.sendType = TVIDEO_SND_UDP then
    UInt32.ofNat TVIDEO_RXNODE_SIZE - pool.pktHeaderSize.toUInt32
  else if pool.sendType = TVIDEO_SND_TCP then TVIDEO_RXNODE_SIZE_TCP
  else if pool.sendType = TVIDEO_SND_INTF then
    UInt32.ofNat TVIDEO_RXNODE_SIZE - pool.pktHeaderSize.toUInt32
  else TVIDEO_RXNODE_SIZE_TCP

/-- The arguments of `tvideo_rx_handler`; `curptr` is memory as seen from there. -/
structure NodeFull where
  curptr : Mem UInt8
  newlen : UInt32
  isEof : UInt32
  frameLen : UInt32

/-- Where `tvideo_rx_handler` is. -/
inductive Rx
  | idle
  | pick (node : NodeFull)
  | fill (node : NodeFull) (elem : Nat)
  | popFree (elem : Nat) (param : HdrParam)
  | pushReady (elem : Nat) (param : HdrParam)

/-- Where `tvideo_poll_handler` is. -/
inductive Poll
  | idle
  | pick
  | send (elem : Nat)
  | popReady (elem : Nat)
  | pushFree (elem : Nat)

/-- A packet as it is queued: its element, what its header was made of, and the bytes to send. -/
structure Packet where
  elem : Nat
  param : HdrParam
  bufLen : UInt32
  bytes : List UInt8

/-- A call of `send_func` and its answer. -/
structure Offer where
  elem : Nat
  bufLen : UInt32
  bytes : List UInt8
  sendLen : UInt32

/-- Only a packet that was taken whole is done with. -/
def Offer.sent (offer : Offer) : Bool := offer.sendLen == offer.bufLen

/-- The pool and the node length, where the two handlers are, and what was queued and offered so far. -/
structure Tvideo where
  pool : TvideoPool
  nodeLen : UInt32
  rx : Rx
  poll : Poll
  received : List Packet
  offers : List Offer

def start (setup : Setup) : Tvideo :=
  ⟨tvideoPoolInit setup, tvideoConfigDesc (tvideoPoolInit setup), .idle, .idle, [], []⟩

/-- The bytes of an element that are to be sent. -/
def TvideoPool.packet (pool : TvideoPool) (elem : Nat) : List UInt8 :=
  pool.pool.read (bufStart elem) (pool.bufLen elem).toNat

/-- `frame_len` in packets, for the last packet of a frame. -/
def pktCnt (nodeLen : UInt32) (node : NodeFull) : UInt32 :=
  if node.isEof = 0 then 0
  else if node.frameLen % nodeLen = 0 then node.frameLen / nodeLen
  else node.frameLen / nodeLen + 1

/-- `newlen`, cut to the length of a node. -/
def NodeFull.len (node : NodeFull) (nodeLen : UInt32) : UInt32 :=
  if node.newlen > nodeLen then nodeLen else node.newlen

def hdrParam (s : Tvideo) (node : NodeFull) : HdrParam :=
  ⟨node.len s.nodeLen, s.pool.frameId.toUInt32, node.isEof, pktCnt s.nodeLen node⟩

/-- Header and payload go to the element's buffer. -/
def fillElem (pool : TvideoPool) (elem : Nat) (node : NodeFull) (param : HdrParam) : TvideoPool :=
  let header := match pool.addPktHeader with
    | some addPktHeader => addPktHeader param
    | none => []
  { pool with
    pool := (pool.pool.write (bufStart elem) header).write (bufStart elem + pool.pktHeaderSize.toNat)
      (node.curptr.read 0 param.ptklen.toNat)
    bufLen := Function.update pool.bufLen elem (param.ptklen + pool.pktHeaderSize.toUInt32) }

/-- The next step of `tvideo_rx_handler`. -/
def stepRx (s : Tvideo) : Tvideo :=
  match s.rx with
  | .idle => s
  | .pick node =>
    if node.newlen = 0 then { s with rx := .idle }
    else match s.pool.free.head? with
      | some elem => { s with rx := .fill node elem }
      -- Without a free element the bytes of this node are lost.
      | none => { s with rx := .idle }
  | .fill node elem =>
    let param := hdrParam s node
    -- Still in the free list, the element is filled.
    { s with pool := fillElem s.pool elem node param, rx := .popFree elem param }
  | .popFree elem param =>
    -- The pop takes the first element, whichever that is by now.
    { s with pool := { s.pool with free := s.pool.free.tail }, rx := .pushReady elem param }
  | .pushReady elem param =>
    { s with
      pool := { s.pool with ready := s.pool.ready ++ [elem] }
      rx := .idle
      received := s.received ++ [⟨elem, param, s.pool.bufLen elem, s.pool.packet elem⟩] }

/-- The next step of `tvideo_poll_handler`; `sendLen` is what `send_func` answers if it is called. -/
def stepPoll (s : Tvideo) (sendLen : UInt32) : Tvideo :=
  match s.poll with
  | .idle => s
  | .pick =>
    match s.pool.ready.head? with
    | some elem => { s with poll := if s.pool.sendFunc then .send elem else .popReady elem }
    | none => { s with poll := .idle }
  | .send elem =>
    { s with
      poll := if sendLen ≠ s.pool.bufLen elem then .idle else .popReady elem
      offers := s.offers ++ [⟨elem, s.pool.bufLen elem, s.pool.packet elem, sendLen⟩] }
  | .popReady elem =>
    -- Not sent whole, the packet stays at the front of the ready list.
    { s with pool := { s.pool with ready := s.pool.ready.tail }, poll := .pushFree elem }
  | .pushFree elem =>
    { s with pool := { s.pool with free := s.pool.free ++ [elem] }, poll := .pick }

/-- A call of a handler, or the next step of one. -/
inductive Event
  | callRx (node : NodeFull)
  | rx
  | endFrame
  | callPoll
  | poll (sendLen : UInt32)

def tvideoEndFrameHandler (s : Tvideo) : Tvideo :=
  { s with pool := { s.pool with frameId := s.pool.frameId + 1 } }

def step (s : Tvideo) : Event → Tvideo
  | .callRx node =>
    match s.rx with
    | .idle => { s with rx := .pick node }
    | _ => s
  | .rx => stepRx s
  | .endFrame => tvideoEndFrameHandler s
  | .callPoll =>
    match s.poll with
    | .idle => { s with poll := .pick }
    | _ => s
  | .poll sendLen => stepPoll s sendLen

end Bk7251.Video
