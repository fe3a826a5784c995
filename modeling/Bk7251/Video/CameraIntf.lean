import Bk7251.Video.VideoTransfer

/-!
# Frames from the JPEG encoder

`func/camera_intf/camera_intf.c`. The encoder's bytes come through a DMA channel that loops over
`rxbuf` and interrupts after every `node_len` bytes; a timer fires once after the frame. Both handlers
run with the video thread stopped, which otherwise takes its steps at any time.
-/
namespace Bk7251.Video

open Lib

/-- One call of `node_full_handler`, and what it found at `curptr`. -/
structure Slice where
  offset : Nat
  len : UInt32
  isEof : UInt32
  frameLen : UInt32
  bytes : List UInt8

/-- A frame: the encoder's bytes, the calls for it, the packets these queued, and whether the pool had
a free element at its end. -/
structure Frame where
  bytes : List UInt8
  slices : List Slice
  queued : List Packet
  room : Bool

/-- `DJPEG_DESC_ST`, the DMA channel and the pool. The channel has moved `received` bytes of the current
node and stores the next at `dst`. The frame so far is `bytes` and `slices`, with `mark` packets
queued before it; `frames` are the frames that are over. -/
structure Camera where
  rxbuf : Mem UInt8
  rxbufLen : UInt16
  rxReadLen : UInt16
  nodeLen : UInt32
  ejpegHdl : Bool
  dst : Nat
  received : Nat
  tvideo : Tvideo
  bytes : List UInt8
  slices : List Slice
  mark : Nat
  frames : List Frame

/-- The camera as `camera_intfer_init` leaves it, with any lengths in the descriptor. -/
def cameraStart (setup : Setup) (rxbuf : Mem UInt8) (nodeLen : UInt32) (rxbufLen : UInt16) : Camera where
  rxbuf
  rxbufLen
  rxReadLen := 0
  nodeLen
  ejpegHdl := true
  dst := 0
  received := 0
  tvideo := { start setup with nodeLen }
  bytes := []
  slices := []
  mark := 0
  frames := []

/-- `tvideo_rx_handler` run to its end. -/
def tvideoRxHandler (s : Tvideo) (node : NodeFull) : Tvideo :=
  stepRx (stepRx (stepRx (stepRx (step s (.callRx node)))))

/-- `node_full_handler(rxbuf + already_len, newlen, is_eof, frame_len)` -/
def nodeFullHandler (s : Camera) (alreadyLen : UInt16) (newlen isEof frameLen : UInt32) : Camera :=
  { s with
    tvideo := tvideoRxHandler s.tvideo ⟨s.rxbuf.shift alreadyLen.toNat, newlen, isEof, frameLen⟩
    slices := s.slices ++
      [⟨alreadyLen.toNat, newlen, isEof, frameLen, s.rxbuf.read alreadyLen.toNat newlen.toNat⟩] }

def cameraIntfEjpegRxHandler (s : Camera) : Camera :=
  let alreadyLen := s.rxReadLen
  let copyLen := s.nodeLen.toUInt16
  if s.ejpegHdl then
    let s := nodeFullHandler s alreadyLen copyLen.toUInt32 0 0
    let alreadyLen := alreadyLen + copyLen
    { s with rxReadLen := if alreadyLen ≥ s.rxbufLen then 0 else alreadyLen }
  else s

/-- The channel stores one byte; at the end of a node it starts the next and interrupts. -/
def dmaByte (s : Camera) (byte : UInt8) : Camera :=
  let s :=
    { s with
      rxbuf := s.rxbuf.write s.dst [byte]
      dst := if s.dst + 1 ≥ s.rxbufLen.toNat then 0 else s.dst + 1
      received := s.received + 1
      bytes := s.bytes ++ [byte] }
  if s.received = s.nodeLen.toNat then cameraIntfEjpegRxHandler { s with received := 0 } else s

/-- What `CMD_GDMA_GET_LEFT_LEN` reads. -/
def leftLen (s : Camera) : UInt32 := s.nodeLen - UInt32.ofNat s.received

/-- `rec_len > 0`, where `rec_len` is an `int`. -/
def positive (recLen : UInt32) : Bool := recLen ≠ 0 ∧ recLen < 0x80000000

/-- `frameLen` is what `EJPEG_CMD_GET_FRAME_LEN` reads. -/
def cameraIntfDelayTimerHdl (s : Camera) (frameLen : UInt32) : Camera :=
  let alreadyLen := s.rxReadLen
  if s.ejpegHdl then
    let recLen := s.nodeLen - leftLen s
    let s := if positive recLen then nodeFullHandler s alreadyLen recLen 1 frameLen else s
    let alreadyLen := alreadyLen + recLen.toUInt16
    let s := { s with
      rxReadLen := if alreadyLen ≥ s.rxbufLen then alreadyLen - s.rxbufLen else alreadyLen }
    -- switched off and on, the channel starts from the beginning of its configuration
    { s with rxReadLen := 0, dst := 0, received := 0, tvideo := tvideoEndFrameHandler s.tvideo }
  else s

/-- A byte from the encoder, the timer at the end of a frame, or a step of the video thread. -/
inductive CameraEvent
  | byte (byte : UInt8)
  | frameEnd
  | callPoll
  | poll (sendLen : UInt32)

def cameraStep (s : Camera) : CameraEvent → Camera
  | .byte byte => dmaByte s byte
  | .frameEnd =>
    let s' := cameraIntfDelayTimerHdl s (UInt32.ofNat s.bytes.length)
    { s' with
      bytes := []
      slices := []
      mark := s'.tvideo.received.length
      frames := s.frames ++
        [⟨s.bytes, s'.slices, s'.tvideo.received.drop s.mark, !s.tvideo.pool.free.isEmpty⟩] }
  | .callPoll => { s with tvideo := step s.tvideo .callPoll }
  | .poll sendLen => { s with tvideo := stepPoll s.tvideo sendLen }

/-! ### What a frame should come to -/

/-- The slices lie in the buffer and make up the frame, and exactly the last is marked as its end, with
its length. -/
structure Delivered (rxbufLen : UInt16) (frame : Frame) : Prop where
  inside : ∀ slice ∈ frame.slices, slice.offset + slice.len.toNat ≤ rxbufLen.toNat
  whole : (frame.slices.map Slice.bytes).flatten = frame.bytes
  eof : ∃ slices last, frame.slices = slices ++ [last] ∧ (∀ slice ∈ slices, slice.isEof = 0) ∧
    last.isEof = 1 ∧ last.frameLen.toNat = frame.bytes.length

/-- Exactly the last packet queued is marked as the frame's end, with the number of its packets. -/
def Marked (frame : Frame) : Prop :=
  ∃ packets last, frame.queued = packets ++ [last] ∧ (∀ packet ∈ packets, packet.param.isEof = 0) ∧
    last.param.isEof = 1 ∧ last.param.frameLen.toNat = frame.slices.length

end Bk7251.Video
