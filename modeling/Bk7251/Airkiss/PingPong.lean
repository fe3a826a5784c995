import Bk7251.Lib.Bytes

/-!
# The ping-pong buffer of airkiss

`func/airkiss/airkiss_pingpong.c`. One writer and one reader run in different contexts. Each of their
statements outside the interrupt-disabled sections is a step of its own, each section is one step,
and `os_memcpy` takes a step for every byte.
-/
namespace Bk7251.Airkiss

open Lib

def BUF_LEN : UInt32 := 24

/-- `buf1` or `buf2`: what a `struct buff_str *` can point to. -/
inductive Buf
  | buf1 | buf2
  deriving DecidableEq

/-- `struct buff_str`; `addr` is an offset in the allocated block. -/
structure BuffStr where
  addr : Nat
  nextBufAddr : Buf
  readEnable : Bool
  writeEnable : Bool
  length : UInt32
  offset : UInt32
  actual : UInt32

/-- `struct pingpong_buffer`, with the block that holds both buffers. -/
structure PingpongBuffer where
  buf : Buf → BuffStr
  mem : Mem UInt8
  currentRead : Buf
  readSwitch : Bool
  currentWrite : Buf
  writeSwitch : Bool

/-- Change the fields of one buffer. -/
def PingpongBuffer.modify (ppBuf : PingpongBuffer) (b : Buf) (change : BuffStr → BuffStr) :
    PingpongBuffer :=
  { ppBuf with buf := Function.update ppBuf.buf b (change (ppBuf.buf b)) }

/-- `mem` is what `os_malloc` gives; the lengths kept from an earlier use stay in `actual`. -/
def pingpongInit (gPpBuf : PingpongBuffer) : Option (Mem UInt8) → Option PingpongBuffer
  | none => none
  | some mem => some
    { buf := fun
        | .buf1 => ⟨0, .buf2, false, true, BUF_LEN, 0, (gPpBuf.buf .buf1).actual⟩
        | .buf2 => ⟨BUF_LEN.toNat, .buf1, false, true, BUF_LEN, 0, (gPpBuf.buf .buf2).actual⟩
      mem
      currentRead := .buf1
      readSwitch := false
      currentWrite := .buf1
      writeSwitch := false }

/-- Where `read_from_pingpong_buf` is, with its arguments and locals; `got` are the bytes in `buf_user`
so far. -/
inductive Reader
  | idle
  | readSwitch (count : UInt32)
  | moveRead (count : UInt32)
  | clearSwitch (count : UInt32)
  | takeCurrent (count : UInt32)
  | readEnable (count : UInt32) (buf : Buf)
  | minLen (count : UInt32) (buf : Buf)
  | memcpy (buf : Buf) (len : UInt32) (got : List UInt8)
  | addOffset (buf : Buf) (ret : UInt32) (got : List UInt8)
  | setActual (buf : Buf) (ret : UInt32) (got : List UInt8)
  | finish (buf : Buf) (ret : UInt32) (got : List UInt8) (actual : UInt32)

/-- Where `write_to_pingpong_buf` is; `bytes` are the `count` bytes at `buf_user`, and `put` counts those
copied so far. -/
inductive Writer
  | idle
  | writeSwitch (bytes : List UInt8) (actual : UInt32)
  | moveWrite (bytes : List UInt8) (actual : UInt32)
  | clearSwitch (bytes : List UInt8) (actual : UInt32)
  | takeCurrent (bytes : List UInt8) (actual : UInt32)
  | writeEnable (buf : Buf) (bytes : List UInt8) (actual : UInt32)
  | minLen (buf : Buf) (bytes : List UInt8) (actual : UInt32)
  | memcpy (buf : Buf) (len put : Nat) (bytes : List UInt8) (actual : UInt32)
  | setActual (buf : Buf) (bytes : List UInt8) (actual : UInt32)
  | finish (buf : Buf) (bytes : List UInt8) (actual : UInt32)

/-- A write that was accepted, as its caller passed it. -/
structure Written where
  bytes : List UInt8
  actual : UInt32

/-- What a successful read gave its caller. -/
structure Returned where
  ret : UInt32
  bytes : List UInt8
  actual : UInt32

/-- The buffers, both parties, and what they have finished so far, in order. -/
structure State where
  ppBuf : PingpongBuffer
  reader : Reader
  writer : Writer
  writes : List Written
  reads : List Returned

def start (ppBuf : PingpongBuffer) : State := ⟨ppBuf, .idle, .idle, [], []⟩

/-- The next statement of `read_from_pingpong_buf`. -/
def stepReader (s : State) : State :=
  match s.reader with
  | .idle => s
  | .readSwitch count =>
    { s with reader := if s.ppBuf.readSwitch then .moveRead count else .takeCurrent count }
  | .moveRead count =>
    { s with
      ppBuf := { s.ppBuf with currentRead := (s.ppBuf.buf s.ppBuf.currentRead).nextBufAddr }
      reader := .clearSwitch count }
  | .clearSwitch count =>
    { s with ppBuf := { s.ppBuf with readSwitch := false }, reader := .takeCurrent count }
  | .takeCurrent count => { s with reader := .readEnable count s.ppBuf.currentRead }
  | .readEnable count buf =>
    { s with reader := if (s.ppBuf.buf buf).readEnable then .minLen count buf else .idle }
  | .minLen count buf =>
    { s with
      reader := .memcpy buf (min32 count ((s.ppBuf.buf buf).length - (s.ppBuf.buf buf).offset)) [] }
  | .memcpy buf len got =>
    if got.length < len.toNat then
      { s with reader := .memcpy buf len (got ++ [s.ppBuf.mem ((s.ppBuf.buf buf).addr + got.length)]) }
    else { s with reader := .addOffset buf len got }
  | .addOffset buf ret got =>
    { s with
      ppBuf := s.ppBuf.modify buf fun b => { b with offset := b.offset + ret }
      reader := .setActual buf ret got }
  | .setActual buf ret got => { s with reader := .finish buf ret got (s.ppBuf.buf buf).actual }
  | .finish buf ret got actual =>
    { s with
      ppBuf :=
        { s.ppBuf.modify buf fun b => { b with readEnable := false, writeEnable := true, offset := 0 } with
          readSwitch := true }
      reader := .idle
      reads := s.reads ++ [⟨ret, got, actual⟩] }

/-- The next statement of `write_to_pingpong_buf`. -/
def stepWriter (s : State) : State :=
  match s.writer with
  | .idle => s
  | .writeSwitch bytes actual =>
    { s with
      writer := if s.ppBuf.writeSwitch then .moveWrite bytes actual else .takeCurrent bytes actual }
  | .moveWrite bytes actual =>
    { s with
      ppBuf := { s.ppBuf with currentWrite := (s.ppBuf.buf s.ppBuf.currentWrite).nextBufAddr }
      writer := .clearSwitch bytes actual }
  | .clearSwitch bytes actual =>
    { s with ppBuf := { s.ppBuf with writeSwitch := false }, writer := .takeCurrent bytes actual }
  | .takeCurrent bytes actual => { s with writer := .writeEnable s.ppBuf.currentWrite bytes actual }
  | .writeEnable buf bytes actual =>
    { s with writer := if (s.ppBuf.buf buf).writeEnable then .minLen buf bytes actual else .idle }
  | .minLen buf bytes actual =>
    { s with writer := .memcpy buf (min BUF_LEN.toNat bytes.length) 0 bytes actual }
  | .memcpy buf len put bytes actual =>
    if put < len then
      { s with
        ppBuf := { s.ppBuf with
          mem := s.ppBuf.mem.write ((s.ppBuf.buf buf).addr + put) ((bytes.drop put).take 1) }
        writer := .memcpy buf len (put + 1) bytes actual }
    else { s with writer := .setActual buf bytes actual }
  | .setActual buf bytes actual =>
    { s with ppBuf := s.ppBuf.modify buf fun b => { b with actual }, writer := .finish buf bytes actual }
  | .finish buf bytes actual =>
    { s with
      ppBuf :=
        { s.ppBuf.modify buf fun b => { b with readEnable := true, writeEnable := false } with
          writeSwitch := true }
      writer := .idle
      writes := s.writes ++ [⟨bytes, actual⟩] }

/-- A call by either party, or one statement of it. -/
inductive Event
  | callRead (count : UInt32)
  | callWrite (bytes : List UInt8) (actual : UInt32)
  | reader
  | writer

/-- There is one reader and one writer: a party calls again only after its call has returned. -/
def step (s : State) : Event → State
  | .callRead count =>
    match s.reader with
    | .idle => { s with reader := .readSwitch count }
    | _ => s
  | .callWrite bytes actual =>
    match s.writer with
    | .idle => { s with writer := .writeSwitch bytes actual }
    | _ => s
  | .reader => stepReader s
  | .writer => stepWriter s

/-- What the callers promise: the reader has room for a whole buffer and the writer brings at most one. -/
def Event.Admissible : Event → Prop
  | .callRead count => BUF_LEN ≤ count
  | .callWrite bytes _ => bytes.length ≤ BUF_LEN.toNat
  | .reader | .writer => True

/-- The writer is at a statement that stores into `buf`. -/
def Writer.Fills (buf : Buf) : Writer → Prop
  | .memcpy b .. | .setActual b .. => b = buf
  | _ => False

/-- The reader is between finding `buf` readable and giving it back. -/
def Reader.Copies (buf : Buf) : Reader → Prop
  | .minLen _ b | .memcpy b .. | .addOffset b .. | .setActual b .. | .finish b .. => b = buf
  | _ => False

/-- The writer is about to return without having written. -/
def Refuses (s : State) : Prop :=
  ∃ buf bytes actual, s.writer = .writeEnable buf bytes actual ∧ (s.ppBuf.buf buf).writeEnable = false

/-- The read gave the bytes and the length of the write. -/
def Returns (w : Written) (r : Returned) : Prop :=
  r.bytes.length = r.ret.toNat ∧ w.bytes <+: r.bytes ∧ r.actual = w.actual

end Bk7251.Airkiss
