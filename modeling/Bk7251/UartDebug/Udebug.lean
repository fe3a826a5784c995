import Bk7251.Lib.Machine

/-!
# The line editor of the debug console

`udebug_handler` of `func/uart_debug/udebug.c`. A line is gathered over the calls in `udebug_buf` and given
to `run_command` at its end.
-/
namespace Bk7251.UartDebug

open Lib

def CONFIG_SYS_CBSIZE : Nat := 128
def UART_PEEK_LEN : Nat := 13
def BKREG_MIN_LEN : Nat := 3
def UP_KEY_COUNT : Nat := 3

def upKey : List UInt8 := [0x1B, 0x4F, 0x41]
def bkregMagic : List UInt8 := [0x01, 0xE0, 0xFC]

/-- `udebug_buf` -/
structure UdebugBuf where
  bytes : List UInt8
  size : bytes.length = CONFIG_SYS_CBSIZE

def UdebugBuf.cleared : UdebugBuf := ⟨List.replicate CONFIG_SYS_CBSIZE 0, List.length_replicate⟩

def UdebugBuf.store (b : UdebugBuf) (i : Nat) (val : UInt8) : UdebugBuf :=
  ⟨b.bytes.set i val, List.length_set.trans b.size⟩

/-- The statics, the buffers that `run_command` and `bkreg_run_command` were called with, and whether a byte
was ever written `outside` of `udebug_buf`. -/
structure Editor where
  buf : UdebugBuf
  cnt : Nat
  lastCnt : Nat
  ran : List UdebugBuf
  frames : List (List UInt8)
  outside : Bool

namespace Editor

variable (e : Editor)

def runCommand : Editor := { e with ran := e.ran ++ [e.buf] }

def bkregRunCommand (frame : List UInt8) : Editor := { e with frames := e.frames ++ [frame] }

/-- The test that ends the line. -/
def hit (val : UInt8) : Bool := val == 0x0A || val == 0x0D || CONFIG_SYS_CBSIZE == e.cnt

def endLine : Editor :=
  let e := if e.cnt = 0 then e else e.runCommand
  { e with lastCnt := e.cnt, cnt := 0 }

def typed (val : UInt8) : Editor :=
  if val = 0x08 then
    if 1 ≤ e.cnt then { e with cnt := e.cnt - 1 } else e
  else
    let buf := if e.cnt = 0 then .cleared else e.buf
    { e with
      buf := buf.store e.cnt val
      cnt := e.cnt + 1
      outside := e.outside || decide (CONFIG_SYS_CBSIZE ≤ e.cnt) }

/-- What becomes of a byte that was read. -/
def next (val : UInt8) : Editor := if e.hit val then e.endLine else e.typed val

end Editor

/-- The editor with the receive queue of the UART. `taken` are the bytes it has read. -/
structure Udebug where
  editor : Editor
  fifo : List UInt8
  taken : List UInt8

def Udebug.start : Udebug := ⟨⟨.cleared, 0, 0, [], [], false⟩, [], []⟩

namespace Udebug

variable (u : Udebug)

def receive (bytes : List UInt8) : Udebug := { u with fifo := u.fifo ++ bytes }

/-- `ddev_read` of at most `len` bytes -/
def ddevRead (len : Nat) : Udebug :=
  { u with fifo := u.fifo.drop len, taken := u.taken ++ u.fifo.take len }

/-- The inner `do … while(0)`: the up key repeats the last line, a register frame is carried out. -/
def peekKeys : Udebug :=
  let peek := u.fifo.take UART_PEEK_LEN
  if u.fifo.length < BKREG_MIN_LEN then u
  else if peek.length = UP_KEY_COUNT ∧ peek.take UP_KEY_COUNT = upKey then
    let u := u.ddevRead UART_PEEK_LEN
    if u.editor.cnt = 0 then { u with editor := { u.editor.runCommand with cnt := 0 } } else u
  else if peek.length > BKREG_MIN_LEN ∧ peek.take BKREG_MIN_LEN = bkregMagic then
    { u.ddevRead UART_PEEK_LEN with editor := u.editor.bkregRunCommand peek }
  else u

/-- One turn of the loop, and the value of the call if it ends there. -/
def turn : Udebug × Option UInt32 :=
  let u := u.peekKeys
  match u.fifo with
  | [] => (u, some 1)
  | val :: _ =>
    ({ u.ddevRead 1 with editor := u.editor.next val }, if u.editor.hit val then some 0 else none)

end Udebug

/-- `udebug_handler` for so many turns. The bytes of `arrivals` come in before the turns, those for which
there is no turn after the call. -/
def udebugHandler : Nat → List (List UInt8) → Udebug → Udebug × Option UInt32
  | 0, arrivals, u => (u.receive arrivals.flatten, none)
  | turns + 1, arrivals, u =>
    match (u.receive (arrivals.headD [])).turn with
    | (u, some ret) => (u.receive arrivals.tail.flatten, some ret)
    | (u, none) => udebugHandler turns arrivals.tail u

/-- A call with all the turns that it may need. -/
def Udebug.call (u : Udebug) (arrivals : List (List UInt8)) : Udebug :=
  (udebugHandler (u.fifo.length + arrivals.flatten.length + 1) arrivals u).1

/-! ### The line that is typed -/

/-- The line, what was erased behind its end and not typed over, and the lines ended so far. -/
structure Line where
  text : List UInt8
  erased : List UInt8
  ended : List (List UInt8)

namespace Line

def start : Line := ⟨[], [], []⟩

def isEnd (val : UInt8) : Prop := val = 0x0A ∨ val = 0x0D

instance (val : UInt8) : Decidable (isEnd val) := inferInstanceAs (Decidable (_ ∨ _))

def type (l : Line) (val : UInt8) : Line :=
  if isEnd val then ⟨[], [], if l.text = [] then l.ended else l.ended ++ [l.text]⟩
  else if val = 0x08 then
    { l with text := l.text.dropLast, erased := l.text.getLast?.toList ++ l.erased }
  else { l with text := l.text ++ [val], erased := if l.text = [] then [] else l.erased.tail }

/-- Nothing arrives at a line that fills the buffer, and a line ends where nothing was erased last. -/
def Fits (l : Line) (val : UInt8) : Prop :=
  l.text.length < CONFIG_SYS_CBSIZE ∧ (isEnd val → l.text ≠ [] → ∀ c ∈ l.erased.head?, c = 0)

instance (l : Line) (val : UInt8) : Decidable (l.Fits val) := inferInstanceAs (Decidable (_ ∧ _))

end Line

/-- The bytes hold no up key and no register frame, which is the magic and at least one byte. -/
def Plain (bytes : List UInt8) : Prop :=
  ¬ upKey <:+: bytes ∧ ∀ len, ¬ bkregMagic ++ [len] <:+: bytes

/-- The line that the bytes read so far make. -/
def Udebug.line (u : Udebug) : Line := u.taken.foldl Line.type .start

/-- Every byte is read once, none is written outside of the buffer, and what was run are the lines, each
followed by a zero. -/
structure EditsLines (arrived : List UInt8) (u : Udebug) : Prop where
  whole : u.taken ++ u.fifo = arrived
  inside : u.editor.outside = false
  lines : List.Forall₂ (fun run text => text ++ [0] <+: run.bytes) u.editor.ran u.line.ended

end Bk7251.UartDebug
