import Bk7251.Cli.HandleInput
import Bk7251.UartDebug.BkregCommand

/-!
# Input of the command line

`get_input` and `tab_complete` of `func/wlan_ui/wlan_cli.c`, and the loop of `cli_main` around them. One buffer
takes typed text, completed names, and the frames of register commands; `bp` is the place of the next character
in it. `cli_getchar` does not wait: it finds a character in the receive buffer of the UART, or none.
-/
namespace Bk7251.Cli

open Lib UartDebug

def RET_CHAR : UInt8 := 0x0A
def END_CHAR : UInt8 := 0x0D
def BACKSPACE : UInt8 := 0x08
def DEL : UInt8 := 0x7F
def TAB : UInt8 := 0x09

/-- `"exit"` -/
def EXIT_MSG : List UInt8 := [0x65, 0x78, 0x69, 0x74]

/-- The frame of a register command, in the loop over its payload. `announced` is the length byte and `read`
counts the bytes that came from the UART. -/
structure Frame where
  announced : UInt8
  ch : UInt8
  left : UInt32
  read : Nat

/-- `(int)ch`: a plain `char` is signed. -/
def signExtend (ch : UInt8) : UInt32 := if ch < 0x80 then ch.toUInt32 else ch.toUInt32 - 256

def Frame.len (f : Frame) : UInt32 := 4 + signExtend f.announced

/-- A frame whose loop has ended, with the responses to it. -/
structure Served where
  announced : UInt8
  read : Nat
  sent : List (List UInt8)

/-- `cli_st` from `inbuf` on, `bp`, and where `cli_main` is: in the loop over a payload, or past its end. -/
structure CliSt where
  inbuf : Mem UInt8
  bp : Nat
  frame : Option Frame
  served : List Served
  exited : Bool

def CliSt.start : CliSt := ⟨fun _ => 0, 0, none, [], false⟩

/-- One call of `cli_getchar`: the character, if there is one, and what everything else does until the next
call. `handled` is what `handle_input` and the command that it calls leave of `cli_st`. -/
structure Fetch where
  char : Option UInt8
  chip : Chip
  handled : Mem UInt8 → Mem UInt8

/-- The names of the registered commands. -/
def Commands.names (cli : Commands) : List (List UInt8) :=
  (((cli.commands.take MAX_COMMANDS).filterMap id).take cli.numCommands).map (stringAt · 0)

/-- `!os_strncmp` on the first characters of the line and a string that ends with 0. -/
def strncmpSame : List UInt8 → List UInt8 → Bool
  | [], _ => true
  | _ :: _, [] => false
  | a :: as, b :: bs => a == b && (a == 0 || strncmpSame as bs)

/-- The names that begin with the first `bp` characters. -/
def matching (cli : Commands) (inbuf : Mem UInt8) (bp : Nat) : List (List UInt8) :=
  cli.names.filter fun name => strncmpSame (inbuf.read 0 bp) (name ++ [0])

def putInbuf (inbuf : Mem UInt8) (i : Nat) (bytes : List UInt8) : Except Beyond (Mem UInt8) :=
  inbuf.storeWithin INBUF_SIZE .inbuf i bytes

/-- `tab_complete`: the buffer and `bp` after it. -/
def tabComplete (cli : Commands) (inbuf : Mem UInt8) (bp : Nat) : Except Beyond (Mem UInt8 × Nat) :=
  match matching cli inbuf bp with
  | [fm] =>
    let n : Int := fm.length - bp
    if bp + n < INBUF_SIZE then do
      -- As the size of a `memcpy`, a negative `n` is larger than any buffer.
      let inbuf ← if n < 0 then .error .inbuf else putInbuf inbuf bp (fm.drop bp)
      let inbuf ← putInbuf inbuf fm.length [SPACE]
      let inbuf ← putInbuf inbuf (fm.length + 1) [0]
      .ok (inbuf, fm.length + 1)
    else .ok (inbuf, bp)
  | _ => .ok (inbuf, bp)

namespace CliSt

variable (s : CliSt)

/-- `while(left--)`, and what follows when nothing is left. -/
def loopFrame (chip : Chip) (f : Frame) : Except Beyond CliSt :=
  if f.left = 0 then do
    let sent ← bkregRunCommand chip s.inbuf f.len
    let inbuf ← putInbuf s.inbuf 0 (List.replicate f.len.toNat 0)
    .ok { s with inbuf, bp := 0, frame := none, served := s.served ++ [⟨f.announced, f.read, sent⟩] }
  else .ok { s with frame := some f }

/-- The body of that loop. Where there is no character, `ch` is stored again. -/
def payload (chip : Chip) (f : Frame) (char : Option UInt8) : Except Beyond CliSt := do
  let ch := char.getD f.ch
  let inbuf ← putInbuf s.inbuf s.bp [ch]
  loopFrame { s with inbuf, bp := s.bp + 1 } chip
    { f with ch, left := f.left - 1, read := f.read + char.toList.length }

/-- The character goes on with the head of a frame. -/
def headNext (ch : UInt8) : Bool :=
  (ch == 0x01 && s.bp == 0) || (ch == 0xE0 && s.bp == 1) || (ch == 0xFC && s.bp == 2)

/-- The next character is the length of a frame. -/
def lengthNext : Bool := s.inbuf 0 == 0x01 && s.inbuf 1 == 0xE0 && s.inbuf 2 == 0xFC && s.bp == 3

/-- The loop of `get_input` on a character that is stored already; the return value, if there is one. -/
def character (cli : Commands) (chip : Chip) (ch : UInt8) : Except Beyond (CliSt × Option UInt32) :=
  if s.headNext ch then .ok ({ s with bp := s.bp + 1 }, none)
  else if s.lengthNext then do
    .ok (← loopFrame { s with bp := s.bp + 1 } chip ⟨ch, ch, signExtend ch, 0⟩, none)
  else if ch = RET_CHAR then .ok (s, none)
  else if ch = END_CHAR then do
    let inbuf ← putInbuf s.inbuf s.bp [0]
    .ok ({ s with inbuf, bp := 0 }, some 1)
  else if ch = BACKSPACE ∨ ch = DEL then .ok ({ s with bp := s.bp - 1 }, none)
  else if ch = TAB then do
    let inbuf ← putInbuf s.inbuf s.bp [0]
    let (inbuf, bp) ← tabComplete cli inbuf s.bp
    .ok ({ s with inbuf, bp }, none)
  else if INBUF_SIZE ≤ s.bp + 1 then .ok ({ s with bp := 0 }, some 0)
  else .ok ({ s with bp := s.bp + 1 }, none)

/-- `get_input` from one call of `cli_getchar` to the next. -/
def getInput (cli : Commands) (chip : Chip) (char : Option UInt8) : Except Beyond (CliSt × Option UInt32) :=
  match s.frame, char with
  | some f, _ => do .ok (← s.payload chip f char, none)
  | none, none => .ok (s, some 0)
  | none, some ch => do
    let inbuf ← putInbuf s.inbuf s.bp [ch]
    character { s with inbuf } cli chip ch

/-- What `cli_main` does with a line. -/
def line (handled : Mem UInt8 → Mem UInt8) : CliSt :=
  if stringAt (s.inbuf.read 0 INBUF_SIZE) 0 = EXIT_MSG then { s with exited := true }
  else { s with inbuf := handled s.inbuf }

end CliSt

/-- `cli_main` from one call of `cli_getchar` to the next. -/
def cliMain (cli : Commands) (s : CliSt) (e : Fetch) : Except Beyond CliSt :=
  if s.exited then .ok s
  else do
    let (s, ret) ← s.getInput cli e.chip e.char
    .ok (if ret = some 1 then s.line e.handled else s)

/-- Nothing is said of what comes after a store beyond a buffer. -/
def fetch (cli : Commands) (r : Except Beyond CliSt) (e : Fetch) : Except Beyond CliSt := do
  cliMain cli (← r) e

/-! ### What is expected -/

/-- All announced bytes were read, and the responses stay inside of `tx_buf`. -/
structure Served.Right (v : Served) : Prop where
  read : v.read = v.announced.toNat
  responses : ∀ response ∈ v.sent, response.length ≤ BKREG_TX_FIFO_THRD

/-- The loop over a payload is over when it has read the announced bytes. Until then `bp` is behind those that
it has read, and there are as many turns left as bytes. -/
structure Frame.Reads (f : Frame) (bp : Nat) : Prop where
  goesOn : f.read < f.announced.toNat
  place : bp = 4 + f.read
  turns : f.read + f.left.toNat = f.announced.toNat

/-- The next character has a place in `inbuf`, and all frames are read as announced. -/
structure Confined (s : CliSt) : Prop where
  place : s.bp < INBUF_SIZE
  loop : ∀ f ∈ s.frame, f.Reads s.bp
  served : ∀ v ∈ s.served, v.Right

/-- A completion fits with the space and the end of the string behind it, unless it is left out for its length;
and the name is not shorter than what is typed. -/
def Completes (cli : Commands) (inbuf : Mem UInt8) (bp : Nat) : Prop :=
  ∀ fm, matching cli inbuf bp = [fm] → INBUF_SIZE ≤ fm.length ∨ (bp ≤ fm.length ∧ fm.length + 2 ≤ INBUF_SIZE)

/-- A fetch that is fine in the state that it finds. -/
def CliSt.Fine (cli : Commands) (s : CliSt) (char : Option UInt8) : Prop :=
  match s.frame, char with
  | some _, none => False
  | some f, some ch =>
    if f.left = 1 then Answers (s.inbuf.write s.bp [ch]) f.announced.toNat else s.bp + 1 < INBUF_SIZE
  | none, none => True
  | none, some ch => if s.lengthNext then ch < 0x80 else ch = TAB → Completes cli s.inbuf s.bp

def Fine (cli : Commands) (r : Except Beyond CliSt) (e : Fetch) : Prop :=
  ∀ s, r = .ok s → s.exited = false → s.Fine cli e.char

end Bk7251.Cli
