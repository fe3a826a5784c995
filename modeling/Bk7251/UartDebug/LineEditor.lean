import Mathlib.Data.List.Forall2
import Bk7251.UartDebug.Udebug

/-!
# What the line editor runs

The buffer is the line, what was erased behind it and zeros. So a line is run as it was typed exactly when it
is shorter than the buffer and nothing that was erased stands behind it.
-/
namespace Bk7251.UartDebug

open Lib

/-! ### One byte -/

/-- The buffer of a line that is not empty is the line, what was erased behind it and zeros. -/
structure Holds (e : Editor) (l : Line) : Prop where
  cnt : e.cnt = l.text.length
  bytes : l.text ≠ [] → ∃ n, e.buf.bytes = l.text ++ (l.erased ++ List.replicate n 0)

/-- What the editor has done is what the line asks for. -/
structure Runs (e : Editor) (l : Line) : Prop where
  inside : e.outside = false
  lines : List.Forall₂ (fun run text => text ++ [0] <+: run.bytes) e.ran l.ended

variable {e : Editor} {l : Line} {val : UInt8}

private theorem Holds.short (holds : Holds e l) : l.text.length ≤ CONFIG_SYS_CBSIZE := by
  by_cases empty : l.text = []
  · rw [empty]
    exact Nat.zero_le _
  · obtain ⟨n, bytes⟩ := holds.bytes empty
    have size := e.buf.size
    rw [bytes, List.length_append] at size
    omega

private theorem Holds.cnt_eq_zero (holds : Holds e l) : e.cnt = 0 ↔ l.text = [] := by
  rw [holds.cnt, List.length_eq_zero_iff]

private theorem hit_iff (holds : Holds e l) :
    e.hit val = true ↔ Line.isEnd val ∨ CONFIG_SYS_CBSIZE = l.text.length := by
  simp only [Editor.hit, Line.isEnd, holds.cnt, Bool.or_eq_true, beq_iff_eq]

/-- Behind the line in a buffer that it does not fill stands what was erased last, or a zero. -/
private theorem terminated_iff (holds : Holds e l) (some : l.text ≠ [])
    (short : l.text.length < CONFIG_SYS_CBSIZE) :
    l.text ++ [0] <+: e.buf.bytes ↔ ∀ c ∈ l.erased.head?, c = 0 := by
  obtain ⟨n, bytes⟩ := holds.bytes some
  have size := e.buf.size
  rw [bytes, List.length_append] at size
  rw [bytes, List.prefix_append_right_inj]
  cases behind : l.erased with
  | nil =>
    rw [behind, List.nil_append, List.length_replicate] at size
    obtain ⟨m, rfl⟩ : ∃ m, n = m + 1 := ⟨n - 1, by omega⟩
    simp [List.replicate_succ]
  | cons c erased => simp [List.cons_prefix_cons, eq_comm]

private theorem forall₂_concat {α β : Type*} {R : α → β → Prop} {xs : List α} {ys : List β}
    {x : α} {y : β} : List.Forall₂ R (xs ++ [x]) (ys ++ [y]) ↔ List.Forall₂ R xs ys ∧ R x y := by
  rw [← List.forall₂_reverse_iff]
  simp [List.forall₂_reverse_iff, and_comm]

/-- A line that is ended is run as it was typed if it is terminated in the buffer. -/
private theorem endLine_runs_iff (holds : Holds e l) (runs : Runs e l) (ends : Line.isEnd val) :
    Runs e.endLine (l.type val) ↔ (l.text ≠ [] → l.text ++ [0] <+: e.buf.bytes) := by
  have text := holds.cnt_eq_zero
  by_cases empty : l.text = []
  · have ran : e.endLine.ran = e.ran := by simp [Editor.endLine, text.mpr empty]
    have outside : e.endLine.outside = e.outside := by simp [Editor.endLine, text.mpr empty]
    have ended : (l.type val).ended = l.ended := by simp [Line.type, ends, empty]
    refine iff_of_true ⟨outside.trans runs.inside, ?_⟩ (absurd empty)
    rw [ran, ended]
    exact runs.lines
  · have full : ¬ e.cnt = 0 := mt text.mp empty
    have ran : e.endLine.ran = e.ran ++ [e.buf] := by simp [Editor.endLine, Editor.runCommand, full]
    have outside : e.endLine.outside = e.outside := by simp [Editor.endLine, Editor.runCommand, full]
    have ended : (l.type val).ended = l.ended ++ [l.text] := by simp [Line.type, ends, empty]
    constructor
    · intro later _
      have lines := later.lines
      rw [ran, ended, forall₂_concat] at lines
      exact lines.2
    · intro terminated
      refine ⟨outside.trans runs.inside, ?_⟩
      rw [ran, ended, forall₂_concat]
      exact ⟨runs.lines, terminated empty⟩

/-- A line that fills the buffer is run without a terminator, whatever comes next. -/
private theorem full_fails (holds : Holds e l) (runs : Runs e l) (full : CONFIG_SYS_CBSIZE = l.text.length) :
    ¬ Runs e.endLine (l.type val) := by
  have some : l.text ≠ [] := by
    intro empty
    simp [empty, CONFIG_SYS_CBSIZE] at full
  intro later
  by_cases ends : Line.isEnd val
  · have fits := ((endLine_runs_iff holds runs ends).mp later some).length_le
    rw [e.buf.size, List.length_append, ← full] at fits
    exact absurd fits (Nat.not_succ_le_self _)
  · have ran : e.endLine.ran = e.ran ++ [e.buf] := by
      simp [Editor.endLine, Editor.runCommand, mt holds.cnt_eq_zero.mp some]
    have ended : (l.type val).ended = l.ended := by
      simp only [Line.type, ends, if_false]
      split <;> rfl
    have more := later.lines.length_eq
    rw [ran, ended, List.length_append, runs.lines.length_eq] at more
    simp at more

private theorem set_behind (val : UInt8) {text erased : List UInt8} {n : Nat}
    (short : text.length < (text ++ (erased ++ List.replicate n 0)).length) :
    ∃ m, (text ++ (erased ++ List.replicate n 0)).set text.length val
      = (text ++ [val]) ++ (erased.tail ++ List.replicate m 0) := by
  cases erased with
  | nil =>
    obtain ⟨m, rfl⟩ : ∃ m, n = m + 1 := ⟨n - 1, by simp at short; omega⟩
    exact ⟨m, by simp [List.replicate_succ]⟩
  | cons c erased => exact ⟨n, by simp⟩

private theorem type_back (inner : ¬ Line.isEnd val) (back : val = 0x08) :
    l.type val = { l with text := l.text.dropLast, erased := l.text.getLast?.toList ++ l.erased } := by
  rw [Line.type, if_neg inner, if_pos back]

private theorem type_char (inner : ¬ Line.isEnd val) (char : val ≠ 0x08) :
    l.type val = { l with text := l.text ++ [val], erased := if l.text = [] then [] else l.erased.tail } := by
  rw [Line.type, if_neg inner, if_neg char]

private theorem back_holds (holds : Holds e l) (inner : ¬ Line.isEnd val) (back : val = 0x08) :
    Holds (e.typed val) (l.type val) := by
  have bytes : (e.typed val).buf = e.buf := by
    simp only [Editor.typed, back, if_true]
    split <;> rfl
  have cnt : (e.typed val).cnt = e.cnt - 1 := by
    simp only [Editor.typed, back, if_true]
    split
    next => rfl
    next none => show e.cnt = e.cnt - 1; omega
  rw [type_back inner back]
  constructor
  · rw [cnt, holds.cnt, List.length_dropLast]
  · intro some
    have before : l.text ≠ [] := fun empty => some (by simp [empty])
    obtain ⟨n, whole⟩ := holds.bytes before
    refine ⟨n, ?_⟩
    rw [bytes, whole, List.getLast?_eq_some_getLast before, Option.toList_some]
    conv_lhs => rw [← List.dropLast_append_getLast before]
    simp only [List.append_assoc]

private theorem char_holds (holds : Holds e l) (short : l.text.length < CONFIG_SYS_CBSIZE)
    (inner : ¬ Line.isEnd val) (char : val ≠ 0x08) : Holds (e.typed val) (l.type val) := by
  rw [type_char inner char, Editor.typed, if_neg char]
  constructor
  · simp only [holds.cnt, List.length_append, List.length_singleton]
  · intro _
    by_cases empty : l.text = []
    · refine ⟨CONFIG_SYS_CBSIZE - 1, ?_⟩
      simp only [holds.cnt_eq_zero.mpr empty, empty, if_true]
      rfl
    · obtain ⟨n, whole⟩ := holds.bytes empty
      have size := e.buf.size
      rw [whole] at size
      obtain ⟨m, behind⟩ := set_behind val (size.symm ▸ short)
      refine ⟨m, ?_⟩
      simp only [UdebugBuf.store, holds.cnt, List.length_eq_zero_iff, empty, if_false, whole, behind]

/-- A byte that does not end the line leaves alone what was run, and is written inside the buffer. -/
private theorem typed_runs (holds : Holds e l) (runs : Runs e l) (short : l.text.length < CONFIG_SYS_CBSIZE)
    (inner : ¬ Line.isEnd val) : Runs (e.typed val) (l.type val) := by
  have ended : (l.type val).ended = l.ended := by
    simp only [Line.type, inner, if_false]
    split <;> rfl
  have ran : (e.typed val).ran = e.ran := by
    simp only [Editor.typed]
    split
    next => split <;> rfl
    next => rfl
  constructor
  · have inside : ¬ CONFIG_SYS_CBSIZE ≤ e.cnt := by rw [holds.cnt]; omega
    simp only [Editor.typed]
    split
    next => split <;> exact runs.inside
    next => simp [runs.inside, inside]
  · rw [ran, ended]
    exact runs.lines

/-- One byte is handled as it should be exactly when it fits the line. -/
theorem next_runs_iff (holds : Holds e l) (runs : Runs e l) :
    Runs (e.next val) (l.type val) ↔ l.Fits val := by
  have short := holds.short
  by_cases full : CONFIG_SYS_CBSIZE = l.text.length
  · -- a full buffer is run whatever the byte is, and has no terminator
    have hit : e.hit val = true := (hit_iff holds).mpr (.inr full)
    rw [Editor.next, if_pos hit]
    refine iff_of_false (full_fails holds runs full) fun fits => ?_
    have := fits.1
    omega
  · have room : l.text.length < CONFIG_SYS_CBSIZE := by omega
    -- where the line ends, its text must have the terminator right behind it
    by_cases ends : Line.isEnd val
    · have hit := (hit_iff holds).mpr (.inl ends)
      rw [Editor.next, if_pos hit, endLine_runs_iff holds runs ends]
      simp only [Line.Fits, room, ends, true_and, true_imp_iff]
      exact forall_congr' fun some => terminated_iff holds some room
    · -- any other byte is written inside the buffer
      have inner : ¬ e.hit val = true := by simp [hit_iff holds, ends, full]
      rw [Editor.next, if_neg inner]
      refine iff_of_true (typed_runs holds runs room ends) ⟨room, fun ended => absurd ended ends⟩

theorem next_holds (holds : Holds e l) (fits : l.Fits val) : Holds (e.next val) (l.type val) := by
  have short := fits.1
  by_cases ends : Line.isEnd val
  · rw [Editor.next, if_pos ((hit_iff holds).mpr (.inl ends)), Line.type, if_pos ends]
    exact ⟨rfl, fun some => absurd rfl some⟩
  · have full : CONFIG_SYS_CBSIZE ≠ l.text.length := by omega
    rw [Editor.next, if_neg (by simp [hit_iff holds, ends, full])]
    by_cases back : val = 0x08
    · exact back_holds holds ends back
    · exact char_holds holds short ends back

/-! ### Calls -/

theorem Plain.inner {part bytes : List UInt8} (plain : Plain bytes) (inside : part <:+: bytes) : Plain part :=
  ⟨fun key => plain.1 (key.trans inside), fun len frame => plain.2 len (frame.trans inside)⟩

private theorem take_three_inner {bytes key : List UInt8} (same : (bytes.take UART_PEEK_LEN).take 3 = key) :
    key <+: bytes := by
  rw [← same]
  exact (List.take_prefix _ _).trans (List.take_prefix _ _)

/-- Where no key and no frame is in sight the bytes are only looked at. -/
private theorem peekKeys_plain {u : Udebug} (plain : Plain u.fifo) : u.peekKeys = u := by
  rw [Udebug.peekKeys]
  split
  next => rfl
  next =>
    have noKey : (u.fifo.take UART_PEEK_LEN).take UP_KEY_COUNT ≠ upKey :=
      fun key => plain.1 (take_three_inner key).isInfix
    -- four bytes in sight, with the magic in front, would be a frame with its length
    have noFrame : ¬ ((u.fifo.take UART_PEEK_LEN).length > BKREG_MIN_LEN ∧
        (u.fifo.take UART_PEEK_LEN).take BKREG_MIN_LEN = bkregMagic) := by
      rintro ⟨long, magic⟩
      obtain ⟨rest, whole⟩ := take_three_inner magic
      cases rest with
      | nil =>
        rw [List.append_nil] at whole
        rw [← whole] at long
        exact absurd long (by decide)
      | cons len rest =>
        refine plain.2 len (List.IsPrefix.isInfix ⟨rest, ?_⟩)
        rw [← whole, List.append_assoc, List.singleton_append]
    simp only [noKey, noFrame, and_false, if_false]

/-- The bytes that have come in so far. -/
def Udebug.arrived (u : Udebug) : List UInt8 := u.taken ++ u.fifo

/-- Bytes have gone from the queue to those that are read, and nowhere else. -/
structure Reads (u v : Udebug) : Prop where
  taken : u.taken <+: v.taken
  arrived : v.arrived = u.arrived

theorem Reads.refl (u : Udebug) : Reads u u := ⟨List.prefix_rfl, rfl⟩

theorem Reads.trans {u v w : Udebug} (first : Reads u v) (second : Reads v w) : Reads u w :=
  ⟨first.taken.trans second.taken, second.arrived.trans first.arrived⟩

theorem Reads.fifo_le {u v : Udebug} (reads : Reads u v) : v.fifo.length ≤ u.fifo.length := by
  have taken := reads.taken.length_le
  have whole := congrArg List.length reads.arrived
  simp only [Udebug.arrived, List.length_append] at whole
  omega

section

variable (u : Udebug)

@[simp] theorem Udebug.arrived_receive (bytes : List UInt8) :
    (u.receive bytes).arrived = u.arrived ++ bytes := (List.append_assoc ..).symm

theorem ddevRead_reads (len : Nat) : Reads u (u.ddevRead len) :=
  ⟨List.prefix_append _ _, by simp [Udebug.arrived, Udebug.ddevRead]⟩

private theorem peekKeys_reads : Reads u u.peekKeys := by
  obtain ⟨taken, arrived⟩ := ddevRead_reads u UART_PEEK_LEN
  rw [Udebug.peekKeys]
  split
  next => exact .refl u
  next =>
    split
    next =>
      dsimp only
      split <;> exact ⟨taken, arrived⟩
    next =>
      split
      next => exact ⟨taken, arrived⟩
      next => exact .refl u

theorem turn_reads : Reads u u.turn.1 := by
  apply (peekKeys_reads u).trans
  rw [Udebug.turn]
  dsimp only
  split
  next => exact .refl _
  next =>
    obtain ⟨taken, arrived⟩ := ddevRead_reads u.peekKeys 1
    exact ⟨taken, arrived⟩

private theorem headD_flatten (arrivals : List (List UInt8)) :
    arrivals.headD [] ++ arrivals.tail.flatten = arrivals.flatten := by
  cases arrivals <;> rfl

/-- No byte is lost in a call, whatever it is. -/
theorem udebugHandler_reads (turns : Nat) (arrivals : List (List UInt8)) :
    Reads (u.receive arrivals.flatten) (udebugHandler turns arrivals u).1 := by
  -- by induction on the turns; what has arrived is what the call was given so far
  induction turns generalizing arrivals u with
  | zero => exact .refl _
  | succ turns ih =>
    have once := turn_reads (u.receive (arrivals.headD []))
    have arrived := once.arrived
    rw [u.arrived_receive] at arrived
    rw [udebugHandler]
    split
    next v ret same =>
      rw [same] at once arrived
      constructor
      · exact once.taken
      · rw [v.arrived_receive, arrived, u.arrived_receive, List.append_assoc, headD_flatten]
    next v same =>
      rw [same] at once arrived
      have later := ih v arrivals.tail
      constructor
      · exact once.taken.trans later.taken
      · rw [later.arrived, v.arrived_receive, arrived, u.arrived_receive, List.append_assoc, headD_flatten]

/-- A turn after which the call goes on has read a byte. -/
private theorem fifo_turn_lt (more : u.turn.2 = none) : u.turn.1.fifo.length < u.fifo.length := by
  have fewer := (peekKeys_reads u).fifo_le
  rw [Udebug.turn] at more ⊢
  dsimp only at more ⊢
  split at more
  next => cases more
  next val rest queue =>
    simp only [queue, List.length_cons] at fewer
    simp only [queue, Udebug.ddevRead, List.drop_one, List.tail_cons]
    omega

/-- A call with a turn for every byte, and one more, returns. -/
theorem udebugHandler_returns (turns : Nat) (arrivals : List (List UInt8))
    (enough : u.fifo.length + arrivals.flatten.length < turns) :
    (udebugHandler turns arrivals u).2.isSome := by
  induction turns generalizing arrivals u with
  | zero => exact absurd enough (Nat.not_lt_zero _)
  | succ turns ih =>
    rw [udebugHandler]
    split
    next => rfl
    next v same =>
      -- a turn that goes on has read a byte, so the rest has a turn for each of its bytes
      have fewer := fifo_turn_lt (u.receive (arrivals.headD [])) (congrArg Prod.snd same)
      rw [same] at fewer
      apply ih
      have split := congrArg List.length (headD_flatten arrivals)
      simp only [Udebug.receive, List.length_append] at fewer split
      omega

end

/-- The bytes read so far fit their lines. -/
def Udebug.Fits (u : Udebug) : Prop := Along Line.type Line.Fits .start u.taken

/-- The editor keeps to the line that the bytes read so far make. -/
structure Sound (u : Udebug) : Prop where
  fits : u.Fits
  holds : Holds u.editor u.line
  runs : Runs u.editor u.line

variable {u : Udebug}

theorem Sound.receive (sound : Sound u) (bytes : List UInt8) : Sound (u.receive bytes) :=
  ⟨sound.fits, sound.holds, sound.runs⟩

/-- The editor after the first byte of the queue. -/
def Udebug.nextByte (u : Udebug) (val : UInt8) : Udebug :=
  { u.ddevRead 1 with editor := u.editor.next val }

private theorem nextByte_line {rest : List UInt8} (queue : u.fifo = val :: rest) :
    (u.nextByte val).line = u.line.type val := by
  simp [Udebug.nextByte, Udebug.line, Udebug.ddevRead, queue]

private theorem nextByte_fifo {rest : List UInt8} (queue : u.fifo = val :: rest) :
    (u.nextByte val).fifo = rest := by
  simp [Udebug.nextByte, Udebug.ddevRead, queue]

private theorem nextByte_fits {rest : List UInt8} (queue : u.fifo = val :: rest) :
    (u.nextByte val).Fits ↔ u.Fits ∧ u.line.Fits val := by
  simp [Udebug.nextByte, Udebug.Fits, Udebug.line, Udebug.ddevRead, queue, along_append, Along]

private theorem nextByte_sound {rest : List UInt8} (sound : Sound u) (queue : u.fifo = val :: rest)
    (fits : u.line.Fits val) : Sound (u.nextByte val) := by
  constructor
  · exact (nextByte_fits queue).mpr ⟨sound.fits, fits⟩
  · rw [nextByte_line queue]
    exact next_holds sound.holds fits
  · rw [nextByte_line queue]
    exact (next_runs_iff sound.holds sound.runs).mpr fits

/-- A byte that does not end the line fits it. -/
private theorem fits_of_not_hit (holds : Holds e l) (inner : ¬ e.hit val = true) : l.Fits val := by
  have short := holds.short
  rw [hit_iff holds, not_or] at inner
  exact ⟨by omega, fun ends => absurd ends inner.1⟩

private theorem turn_plain (plain : Plain u.fifo) :
    u.turn = match u.fifo with
      | [] => (u, some 1)
      | val :: _ => (u.nextByte val, if u.editor.hit val then some 0 else none) := by
  rw [Udebug.turn, peekKeys_plain plain]
  rfl

/-- A call from a sound state ends in one if what it ran is right, or what it read fits. -/
private theorem udebugHandler_sound (turns : Nat) (arrivals : List (List UInt8))
    (plain : Plain (u.fifo ++ arrivals.flatten)) (sound : Sound u)
    (right : Runs (udebugHandler turns arrivals u).1.editor (udebugHandler turns arrivals u).1.line ∨
      (udebugHandler turns arrivals u).1.Fits) : Sound (udebugHandler turns arrivals u).1 := by
  -- by induction on the turns; the state stays sound until the byte that ends the call
  induction turns generalizing arrivals u with
  | zero => exact sound.receive _
  | succ turns ih =>
    have start := sound.receive (arrivals.headD [])
    rw [← headD_flatten, ← List.append_assoc] at plain
    have now := turn_plain (plain.inner (List.prefix_append _ _).isInfix :
      Plain (u.receive (arrivals.headD [])).fifo)
    cases queue : (u.receive (arrivals.headD [])).fifo with
    | nil =>
      simp only [udebugHandler, now, queue]
      exact start.receive _
    | cons val rest =>
      simp only [queue] at now
      by_cases hit : (u.receive (arrivals.headD [])).editor.hit val = true
      · simp only [udebugHandler, now, hit, if_true] at right ⊢
        -- the call ends with this byte, and it fits if what was run is right
        refine (nextByte_sound start queue ?_).receive _
        rcases right with runs | fits
        · apply (next_runs_iff start.holds start.runs).mp
          rw [← nextByte_line queue]
          exact runs
        · exact ((nextByte_fits queue).mp fits).2
      · simp only [udebugHandler, now, hit] at right ⊢
        -- a byte in the middle fits anyway
        refine ih arrivals.tail ?_ (nextByte_sound start queue (fits_of_not_hit start.holds hit)) right
        have whole : u.fifo ++ arrivals.headD [] = val :: rest := queue
        rw [whole] at plain
        rw [nextByte_fifo queue]
        exact plain.inner (List.suffix_cons val _).isInfix

/-- What has come in with the calls. -/
def arrivedWith (calls : List (List (List UInt8))) : List UInt8 := (calls.map List.flatten).flatten

private theorem calls_reads (calls : List (List (List UInt8))) (u : Udebug) :
    Reads (u.receive (arrivedWith calls)) (calls.foldl Udebug.call u) := by
  induction calls generalizing u with
  | nil => exact ⟨List.prefix_rfl, by simp [arrivedWith]⟩
  | cons arrivals calls ih =>
    have now : Reads (u.receive arrivals.flatten) (u.call arrivals) := udebugHandler_reads u _ _
    have later := ih (u.call arrivals)
    constructor
    · exact now.taken.trans later.taken
    · rw [List.foldl_cons, later.arrived, Udebug.arrived_receive, now.arrived]
      simp [arrivedWith]

/-- Bytes that are read later do not mend what did not fit. -/
private theorem Udebug.Fits.of_prefix {u v : Udebug} (fits : v.Fits) (taken : u.taken <+: v.taken) :
    u.Fits := by
  obtain ⟨more, whole⟩ := taken
  rw [Udebug.Fits, ← whole] at fits
  exact ((along_append u.taken more).mp fits).1

private theorem calls_sound_iff (calls : List (List (List UInt8))) (sound : Sound u)
    (plain : Plain (u.fifo ++ arrivedWith calls)) :
    (∀ part, part <+: calls → Runs (part.foldl Udebug.call u).editor (part.foldl Udebug.call u).line) ↔
      (calls.foldl Udebug.call u).Fits := by
  -- by induction on the calls; both sides speak of the first call and then of the rest
  induction calls generalizing u with
  | nil =>
    refine iff_of_true (fun part inside => ?_) sound.fits
    rw [List.prefix_nil.mp inside]
    exact sound.runs
  | cons arrivals calls ih =>
    have reads : Reads (u.receive arrivals.flatten) (u.call arrivals) := udebugHandler_reads u _ _
    have whole : arrivedWith (arrivals :: calls) = arrivals.flatten ++ arrivedWith calls := rfl
    rw [whole, ← List.append_assoc] at plain
    have now : Plain (u.fifo ++ arrivals.flatten) := plain.inner (List.prefix_append _ _).isInfix
    -- what is left in the queue is the end of what had come in
    have left : (u.call arrivals).fifo <:+ u.fifo ++ arrivals.flatten := by
      obtain ⟨read, more⟩ := reads.taken
      refine ⟨read, ?_⟩
      have arrived := reads.arrived
      rw [Udebug.arrived, Udebug.arrived, ← more, List.append_assoc] at arrived
      exact List.append_cancel_left arrived
    have later : Plain ((u.call arrivals).fifo ++ arrivedWith calls) := by
      obtain ⟨read, more⟩ := left
      rw [← more, List.append_assoc] at plain
      exact plain.inner (List.suffix_append _ _).isInfix
    constructor
    · intro always
      -- the first call ran right, so what it read fits
      have here := always [arrivals] (List.cons_prefix_cons.mpr ⟨rfl, List.nil_prefix⟩)
      have next := udebugHandler_sound _ arrivals now sound (.inl here)
      refine (ih next later).mp fun part inside => ?_
      exact always (arrivals :: part) (List.cons_prefix_cons.mpr ⟨rfl, inside⟩)
    · rintro fits part inside
      -- what the calls read fits, and the first one read the front of it
      have here : (u.call arrivals).Fits := fits.of_prefix (calls_reads calls (u.call arrivals)).taken
      have next := udebugHandler_sound _ arrivals now sound (.inr here)
      cases part with
      | nil => exact sound.runs
      | cons first part =>
        obtain ⟨rfl, inner⟩ := List.cons_prefix_cons.mp inside
        exact (ih next later).mpr fits part inner

private theorem start_sound : Sound .start :=
  ⟨trivial, ⟨rfl, fun some => absurd rfl some⟩, ⟨rfl, .nil⟩⟩

/-- However the bytes are cut into calls, the lines are run as they were typed exactly when every byte that is
read fits the line it comes to: the line is shorter than the buffer, and where it ends nothing that was erased
stands behind it. -/
theorem line_edited_iff (calls : List (List (List UInt8))) (plain : Plain (arrivedWith calls)) :
    (∀ part, part <+: calls → EditsLines (arrivedWith part) (part.foldl Udebug.call .start)) ↔
      (calls.foldl Udebug.call .start).Fits := by
  rw [← calls_sound_iff calls start_sound plain]
  refine forall₂_congr fun part _ => ⟨fun edits => ⟨edits.inside, edits.lines⟩, fun runs => ?_⟩
  exact ⟨(calls_reads part .start).arrived, runs.inside, runs.lines⟩

private theorem plain_of_not_mem {bytes : List UInt8} (noEscape : 0x1B ∉ bytes) (noMagic : 0x01 ∉ bytes) :
    Plain bytes := by
  constructor
  · intro key
    exact noEscape (key.subset (by decide))
  · intro len frame
    exact noMagic (frame.subset (by simp [bkregMagic]))

instance (u : Udebug) : Decidable u.Fits := inferInstanceAs (Decidable (Along ..))

/-- A correction in the middle of a call, a line end of two bytes, and a second line. -/
def corrections : List (List (List UInt8)) := [[[97], [98, 8]], [[99, 13]], [[10, 100], [10]], [], []]

theorem line_edited_corrections :
    EditsLines (arrivedWith corrections) (corrections.foldl Udebug.call .start) :=
  (line_edited_iff corrections (plain_of_not_mem (by decide) (by decide))).mpr (by decide +kernel) corrections
    (List.prefix_refl corrections)

/-- `ab`, a backspace and a line end run `ab`. -/
theorem erased_character_runs :
    ¬ ∀ calls, Plain (arrivedWith calls) →
      ∀ part, part <+: calls → EditsLines (arrivedWith part) (part.foldl Udebug.call .start) := by
  intro always
  have plain : Plain (arrivedWith [[[97, 98, 8, 10]]]) := plain_of_not_mem (by decide) (by decide)
  have fits := (calls_sound_iff [[[97, 98, 8, 10]]] start_sound plain).mp fun part inside => by
    have edits := always [[[97, 98, 8, 10]]] plain part inside
    exact ⟨edits.inside, edits.lines⟩
  exact absurd fits (by decide +kernel)

end Bk7251.UartDebug
