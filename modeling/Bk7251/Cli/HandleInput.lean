import Bk7251.Lib.Bytes
import Bk7251.Lib.Walk

/-!
# The words of a command line

`handle_input` of `func/wlan_ui/wlan_cli.c`. The line is cut into words where it stands: escapes move the rest
of it down, and the ends of the words are overwritten.
-/
namespace Bk7251.Cli

open Lib

def INBUF_SIZE : Nat := 128
def MAX_COMMANDS : Nat := 64

/-- The slots of `argv`. -/
def MAX_ARGS : Nat := 16

def QUOTE : UInt8 := 0x22
def SPACE : UInt8 := 0x20
def BACKSLASH : UInt8 := 0x5C
def DOT : UInt8 := 0x2E

/-- A buffer with a terminated line in it. -/
structure Inbuf where
  bytes : List UInt8
  size : bytes.length = INBUF_SIZE
  terminated : 0 ∈ bytes

/-- The string at an offset. -/
def stringAt (buf : List UInt8) (p : Nat) : List UInt8 := (buf.drop p).takeWhile (· ≠ 0)

/-- The loop over the line. `failed` is the return of 2 from inside of it, and `outside` says whether anything
beyond `inbuf` or `argv` was touched. -/
structure Input where
  inbuf : List UInt8
  inArg : Bool
  inQuote : Bool
  done : Bool
  argv : List Nat
  i : Nat
  failed : Bool
  outside : Bool

namespace Input

def start (inbuf : List UInt8) : Input := ⟨inbuf, false, false, false, [], 0, false, false⟩

variable (s : Input)

/-- The next word begins here. -/
def beginWord (p : Nat) : Input :=
  { s with inArg := true, argv := s.argv ++ [p], outside := s.outside || decide (MAX_ARGS ≤ s.argv.length) }

/-- The rest of the line is copied over the backslash. -/
def unescape : Input :=
  { s with
    inbuf := splice s.inbuf (s.i - 1) (stringAt s.inbuf s.i ++ [0])
    i := s.i - 1
    outside := s.outside || decide (0 ∉ s.inbuf.drop s.i) }

/-- The word ends here. -/
def endWord : Input := { s with inArg := false, inQuote := false, inbuf := s.inbuf.set s.i 0 }

def escaped : Bool := decide (0 < s.i) && s.inbuf.getD (s.i - 1) 0 == BACKSLASH && s.inArg

/-- The `switch`. -/
def char : Input :=
  let c := s.inbuf.getD s.i 0
  if c = 0 then
    if s.inQuote then { s with failed := true } else { s with done := true }
  else if c = QUOTE then
    if s.escaped then s.unescape
    else if !s.inQuote && s.inArg then s
    else if s.inQuote && !s.inArg then { s with failed := true }
    else if !s.inQuote && !s.inArg then { s.beginWord (s.i + 1) with inQuote := true }
    else s.endWord
  else if c = SPACE then
    if s.escaped then s.unescape
    else if !s.inQuote && s.inArg then s.endWord
    else s
  else if !s.inArg then s.beginWord s.i
  else s

/-- One turn of the loop. -/
def turn : Option Input :=
  if s.failed || s.done || decide (INBUF_SIZE ≤ s.i) then none
  else
    let s := { s with outside := s.outside || decide (s.inbuf.length ≤ s.i) }.char
    some (if s.failed || s.done then s else { s with i := s.i + 1 })

end Input

/-- The commands that are registered; a slot may be empty. -/
structure Commands where
  commands : List (Option (List UInt8))
  numCommands : Nat

/-- `lookup_command`: by the first `len` bytes, or the whole name where `len` is 0. -/
def lookupCommand (cli : Commands) (name : List UInt8) (len : Nat) : Option (List UInt8) :=
  (((cli.commands.take MAX_COMMANDS).filterMap id).take cli.numCommands).find? fun command =>
    if len ≠ 0 then command.take len == name.take len else command == name

/-- What `handle_input` returns, with the buffer and the words that it passes on, and the command called. -/
structure Handled where
  ret : UInt32
  inbuf : List UInt8
  argv : List Nat
  called : Option (List UInt8)
  outside : Bool

/-- What comes after the loop. -/
def Input.finish (cli : Commands) (s : Input) : Handled :=
  if s.failed || s.inQuote then ⟨2, s.inbuf, s.argv, none, s.outside⟩
  else
    match s.argv with
    | [] => ⟨0, s.inbuf, [], none, s.outside⟩
    | first :: _ =>
      let name := stringAt s.inbuf first
      let len := (name.idxOf? DOT).getD 0
      match lookupCommand cli name len with
      | none => ⟨1, s.inbuf, s.argv, none, s.outside⟩
      | some command => ⟨0, s.inbuf, s.argv, some command, s.outside⟩

/-- `handle_input`, if the loop ends within the fuel. -/
def handleInput (cli : Commands) (fuel : Nat) (inbuf : List UInt8) : Option Handled :=
  (walk Input.turn fuel (.start inbuf)).map (Input.finish cli)

/-! ### The grammar -/

/-- What ends a word, besides the end of the line. -/
def wordEnd (quoted : Bool) : UInt8 := if quoted then QUOTE else SPACE

/-- What is left of a word, and the line behind it; there is none where the quotes are not closed. -/
def wordFrom (quoted : Bool) : List UInt8 → List UInt8 × Option (List UInt8)
  | [] => ([], if quoted then none else some [])
  | [c] => if c = wordEnd quoted then ([], some []) else ([c], if quoted then none else some [])
  | c :: d :: cs =>
    if c = BACKSLASH ∧ (d = QUOTE ∨ d = SPACE) then (d :: (wordFrom quoted cs).1, (wordFrom quoted cs).2)
    else if c = wordEnd quoted then ([], some (d :: cs))
    else (c :: (wordFrom quoted (d :: cs)).1, (wordFrom quoted (d :: cs)).2)

theorem wordFrom_rest {quoted : Bool} {cs rest : List UInt8} (behind : (wordFrom quoted cs).2 = some rest) :
    rest.length ≤ cs.length - 1 := by
  induction cs using wordFrom.induct quoted with
  | case1 =>
    simp only [wordFrom, Option.ite_none_left_eq_some, Option.some.injEq] at behind
    rw [← behind.2]
    exact Nat.zero_le _
  | case2 =>
    rw [wordFrom, if_pos rfl] at behind
    rw [← Option.some.inj behind]
    exact Nat.zero_le _
  | case3 c inner =>
    simp only [wordFrom, if_neg inner, Option.ite_none_left_eq_some, Option.some.injEq] at behind
    rw [← behind.2]
    exact Nat.zero_le _
  | case4 c d cs escape ih =>
    rw [wordFrom, if_pos escape] at behind
    have := ih behind
    simp only [List.length_cons]
    omega
  | case5 d cs escape =>
    rw [wordFrom, if_neg escape, if_pos rfl] at behind
    rw [← Option.some.inj behind]
    exact Nat.le_refl _
  | case6 c d cs escape inner ih =>
    rw [wordFrom, if_neg escape, if_neg inner] at behind
    have := ih behind
    simp only [List.length_cons] at this ⊢
    omega

/-- The words of a line, and whether all quotes in it are closed. -/
structure Words where
  words : List (List UInt8)
  closed : Bool

def Words.cons (word : List UInt8) (ws : Words) : Words := { ws with words := word :: ws.words }

/-- The words that are begun. -/
def Words.begun (ws : Words) : Nat := ws.words.length + if ws.closed then 0 else 1

/-- Words are separated by spaces; one that begins with a quote is quoted. -/
def wordsFrom : List UInt8 → Words
  | [] => ⟨[], true⟩
  | c :: cs =>
    if c = SPACE then wordsFrom cs
    else
      let quoted := decide (c = QUOTE)
      let word := wordFrom quoted (if quoted then cs else c :: cs)
      match _behind : word.2 with
      | none => ⟨[], false⟩
      | some rest => .cons word.1 (wordsFrom rest)
termination_by line => line.length
decreasing_by
  · simp
  · have := wordFrom_rest _behind
    split at this
    · simp only [List.length_cons]
      omega
    · simp only [List.length_cons] at this ⊢
      omega

/-- The words of the line in a buffer. -/
def Inbuf.words (inbuf : Inbuf) : Words := wordsFrom (stringAt inbuf.bytes 0)

/-- The line is cut without leaving `inbuf` and `argv`; it is refused exactly where a quote is not closed, and
else what is passed on are its words. -/
structure Tokenized (inbuf : Inbuf) (r : Handled) : Prop where
  inside : r.outside = false
  refused : r.ret = 2 ↔ inbuf.words.closed = false
  words : r.ret ≠ 2 → r.argv.map (stringAt r.inbuf) = inbuf.words.words

end Bk7251.Cli
