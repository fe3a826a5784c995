import Mathlib.Data.List.Forall2
import Bk7251.Cli.HandleInput

/-!
# The loop over a command line finds its words

The words found so far stand in front of the loop, each followed by a zero; the rest of the line is still as it
was typed. A backslash is held back until the next character is known.
-/
namespace Bk7251.Cli

open Lib

/-! ### The grammar by its first character -/

variable {quoted : Bool} {c d : UInt8} {cs : List UInt8}

theorem wordFrom_nil : wordFrom quoted [] = ([], if quoted then none else some []) := by rw [wordFrom]

theorem wordFrom_escape (special : d = QUOTE ∨ d = SPACE) :
    wordFrom quoted (BACKSLASH :: d :: cs) = (d :: (wordFrom quoted cs).1, (wordFrom quoted cs).2) := by
  rw [wordFrom, if_pos ⟨rfl, special⟩]

private theorem wordEnd_ne_backslash : wordEnd quoted ≠ BACKSLASH := by
  cases quoted <;> decide

theorem wordFrom_end : wordFrom quoted (wordEnd quoted :: cs) = ([], some cs) := by
  cases cs with
  | nil => rw [wordFrom, if_pos rfl]
  | cons d cs => rw [wordFrom, if_neg fun escape => wordEnd_ne_backslash escape.1, if_pos rfl]

theorem wordFrom_char (inner : c ≠ wordEnd quoted)
    (plain : c = BACKSLASH → ∀ d ∈ cs.head?, ¬ (d = QUOTE ∨ d = SPACE)) :
    wordFrom quoted (c :: cs) = (c :: (wordFrom quoted cs).1, (wordFrom quoted cs).2) := by
  cases cs with
  | nil => rw [wordFrom_nil, wordFrom, if_neg inner]
  | cons d cs => rw [wordFrom, if_neg fun escape => plain escape.1 d rfl escape.2, if_neg inner]

/-- These words, and the words of the rest of the line. -/
def ahead (words : List (List UInt8)) (tail : List UInt8) : Words :=
  ⟨words ++ (wordsFrom tail).words, (wordsFrom tail).closed⟩

/-- These words, a word that is under way, and what comes behind it. -/
def aheadOf (words : List (List UInt8)) (word : List UInt8) (left : List UInt8 × Option (List UInt8)) :
    Words :=
  match left.2 with
  | none => ⟨words, false⟩
  | some rest => ahead (words ++ [word ++ left.1]) rest

variable {words : List (List UInt8)} {word : List UInt8}

theorem aheadOf_cons (left : List UInt8 × Option (List UInt8)) :
    aheadOf words word (c :: left.1, left.2) = aheadOf words (word ++ [c]) left := by
  simp [aheadOf]

theorem ahead_nil : ahead words [] = ⟨words, true⟩ := by
  simp [ahead, wordsFrom]

theorem ahead_space : ahead words (SPACE :: cs) = ahead words cs := by
  rw [ahead, wordsFrom, if_pos rfl, ahead]

theorem ahead_word (begins : c ≠ SPACE) :
    ahead words (c :: cs) =
      aheadOf words [] (wordFrom (decide (c = QUOTE)) (if c = QUOTE then cs else c :: cs)) := by
  rw [ahead, wordsFrom, if_neg begins, aheadOf]
  dsimp only
  split
  next none =>
    simp only [decide_eq_true_eq] at none
    simp [none]
  next rest some =>
    simp only [decide_eq_true_eq] at some
    simp [some, ahead, Words.cons]

/-! ### Words in a buffer -/

/-- The word stands at the offset, followed by a zero. -/
def Marked (buf : List UInt8) (p : Nat) (word : List UInt8) : Prop :=
  ∃ pre post, buf = pre ++ (word ++ 0 :: post) ∧ pre.length = p ∧ 0 ∉ word

theorem Marked.append {buf : List UInt8} {p : Nat} (marked : Marked buf p word) (more : List UInt8) :
    Marked (buf ++ more) p word := by
  obtain ⟨pre, post, rfl, offset, nonzero⟩ := marked
  exact ⟨pre, post ++ more, by simp, offset, nonzero⟩

private theorem takeWhile_of_not_mem {xs ys : List UInt8} (nonzero : 0 ∉ xs) :
    (xs ++ 0 :: ys).takeWhile (· ≠ 0) = xs := by
  rw [List.takeWhile_append_of_pos]
  · simp
  · intro x member
    exact decide_eq_true fun zero => nonzero (zero ▸ member)

theorem stringAt_append {pre xs ys : List UInt8} (nonzero : 0 ∉ xs) :
    stringAt (pre ++ (xs ++ 0 :: ys)) pre.length = xs := by
  rw [stringAt, List.drop_left]
  exact takeWhile_of_not_mem nonzero

theorem Marked.stringAt {buf : List UInt8} {p : Nat} (marked : Marked buf p word) : stringAt buf p = word := by
  obtain ⟨pre, post, rfl, rfl, nonzero⟩ := marked
  exact stringAt_append nonzero

/-! ### The loop -/

/-- The loop is under way; it stands behind `pre`, and there `tail` is still to be read. -/
structure Reading (s : Input) (pre tail : List UInt8) : Prop where
  failed : s.failed = false
  done : s.done = false
  size : s.inbuf.length = INBUF_SIZE
  outside : s.outside = decide (MAX_ARGS < s.argv.length)
  i : s.i = pre.length
  bytes : ∃ junk, s.inbuf = pre ++ (tail ++ 0 :: junk)
  nonzero : 0 ∉ tail

variable {s : Input} {pre tail : List UInt8}

theorem Reading.inside (reading : Reading s pre tail) : s.i < INBUF_SIZE := by
  obtain ⟨junk, bytes⟩ := reading.bytes
  have size := reading.size
  rw [bytes, List.length_append, List.length_append, List.length_cons] at size
  have := reading.i
  omega

/-- What comes after the `switch`. -/
def Input.advance (s : Input) : Input := if s.failed || s.done then s else { s with i := s.i + 1 }

@[simp] theorem Input.inArg_advance : s.advance.inArg = s.inArg := by
  rw [Input.advance]
  split <;> rfl

@[simp] theorem Input.inQuote_advance : s.advance.inQuote = s.inQuote := by
  rw [Input.advance]
  split <;> rfl

@[simp] theorem Input.argv_advance : s.advance.argv = s.argv := by
  rw [Input.advance]
  split <;> rfl

theorem Reading.turn_eq (reading : Reading s pre tail) : s.turn = some s.char.advance := by
  have inside := reading.inside
  have within : decide (s.inbuf.length ≤ s.i) = false := decide_eq_false (by rw [reading.size]; omega)
  have same : { s with outside := s.outside || decide (s.inbuf.length ≤ s.i) } = s := by
    rw [within, Bool.or_false]
  rw [Input.turn, if_neg (by simp [reading.failed, reading.done, inside])]
  dsimp only
  rw [same]
  rfl

/-- The character at the loop. -/
theorem Reading.at_nil (reading : Reading s pre []) : s.inbuf.getD s.i 0 = 0 := by
  obtain ⟨junk, bytes⟩ := reading.bytes
  simp [bytes, reading.i]

theorem Reading.at_cons (reading : Reading s pre (c :: cs)) : s.inbuf.getD s.i 0 = c := by
  obtain ⟨junk, bytes⟩ := reading.bytes
  simp [bytes, reading.i]

theorem Reading.ne_zero (reading : Reading s pre (c :: cs)) : c ≠ 0 := by
  rintro rfl
  exact reading.nonzero List.mem_cons_self

/-- The character before the loop. -/
theorem Reading.escaped_iff (reading : Reading s pre tail) :
    s.escaped = true ↔ s.inArg = true ∧ pre.getLast? = some BACKSLASH := by
  obtain ⟨junk, bytes⟩ := reading.bytes
  have i := reading.i
  rcases List.eq_nil_or_concat pre with rfl | ⟨front, last, rfl⟩
  · simp [Input.escaped, i]
  · have before : s.inbuf.getD (s.i - 1) 0 = last := by simp [bytes, i]
    have some : 0 < s.i := by simp [i]
    simp only [Input.escaped, before, some, decide_true, Bool.true_and, Bool.and_eq_true, beq_iff_eq,
      List.concat_eq_append, List.getLast?_concat, Option.some.injEq, and_comm]

/-- The loop goes past a character that it leaves in place. -/
theorem Reading.pass {t : Input} (reading : Reading s pre (c :: cs)) (failed : t.failed = false)
    (done : t.done = false) (inbuf : t.inbuf = s.inbuf) (i : t.i = s.i)
    (outside : t.outside = decide (MAX_ARGS < t.argv.length)) : Reading t.advance (pre ++ [c]) cs := by
  obtain ⟨junk, bytes⟩ := reading.bytes
  have next : t.advance = { t with i := t.i + 1 } := by simp [Input.advance, failed, done]
  rw [next]
  constructor
  · exact failed
  · exact done
  · exact (congrArg List.length inbuf).trans reading.size
  · exact outside
  · simp [i, reading.i]
  · exact ⟨junk, by simp [inbuf, bytes]⟩
  · exact fun zero => reading.nonzero (List.mem_cons_of_mem _ zero)

theorem Reading.endWord (reading : Reading s pre (c :: cs)) : Reading s.endWord.advance (pre ++ [0]) cs := by
  obtain ⟨junk, bytes⟩ := reading.bytes
  have next : s.endWord.advance = { s.endWord with i := s.i + 1 } := by
    simp [Input.advance, Input.endWord, reading.failed, reading.done]
  rw [next]
  constructor
  · exact reading.failed
  · exact reading.done
  · simp [Input.endWord, reading.size]
  · exact reading.outside
  · simp [reading.i]
  · exact ⟨junk, by simp [Input.endWord, bytes, reading.i]⟩
  · exact fun zero => reading.nonzero (List.mem_cons_of_mem _ zero)

/-- The character moves onto the backslash before it. -/
theorem Reading.unescape (reading : Reading s (pre ++ [BACKSLASH]) (c :: cs)) :
    Reading s.unescape.advance (pre ++ [c]) cs := by
  obtain ⟨junk, bytes⟩ := reading.bytes
  have i : s.i = pre.length + 1 := by simpa using reading.i
  have next : s.unescape.advance = { s.unescape with i := s.i } := by
    simp [Input.advance, Input.unescape, reading.failed, reading.done, i]
  -- what is copied is the rest of the line, from this character to its zero
  have moved : stringAt s.inbuf s.i = c :: cs := by
    rw [bytes, reading.i]
    exact stringAt_append reading.nonzero
  have whole : s.inbuf = pre ++ ((BACKSLASH :: c :: cs) ++ (0 :: junk)) := by simp [bytes]
  -- it goes one place down, and leaves a second zero where the old one was
  have shifted : s.unescape.inbuf = pre ++ ((c :: cs) ++ 0 :: 0 :: junk) := by
    have copied := splice_append pre (BACKSLASH :: c :: cs) (0 :: junk) ((c :: cs) ++ [0]) (by simp)
    rw [← whole] at copied
    simp only [Input.unescape, moved]
    rw [i, Nat.add_sub_cancel, copied, List.append_assoc, List.singleton_append]
  rw [next]
  constructor
  · exact reading.failed
  · exact reading.done
  · have size := reading.size
    rw [whole] at size
    rw [shifted]
    simp only [List.length_append, List.length_cons] at size ⊢
    omega
  · have zero : 0 ∈ s.inbuf.drop s.i := by
      rw [bytes, reading.i, List.drop_left]
      simp
    simp [Input.unescape, zero, reading.outside]
  · simp [i]
  · exact ⟨0 :: junk, by rw [shifted]; simp⟩
  · exact fun zero => reading.nonzero (List.mem_cons_of_mem _ zero)

/-! ### The `switch` -/

private theorem char_nul (read : s.inbuf.getD s.i 0 = 0) :
    s.char = if s.inQuote then { s with failed := true } else { s with done := true } := by
  rw [Input.char]
  simp only [read, if_true]

private theorem char_quote (read : s.inbuf.getD s.i 0 = QUOTE) :
    s.char =
      if s.escaped then s.unescape
      else if !s.inQuote && s.inArg then s
      else if s.inQuote && !s.inArg then { s with failed := true }
      else if !s.inQuote && !s.inArg then { s.beginWord (s.i + 1) with inQuote := true }
      else s.endWord := by
  rw [Input.char]
  simp only [read]
  rw [if_neg (by decide), if_pos trivial]

private theorem char_space (read : s.inbuf.getD s.i 0 = SPACE) :
    s.char =
      if s.escaped then s.unescape else if !s.inQuote && s.inArg then s.endWord else s := by
  rw [Input.char]
  simp only [read]
  rw [if_neg (by decide), if_neg (by decide), if_pos trivial]

private theorem char_other (read : s.inbuf.getD s.i 0 = c) (some : c ≠ 0) (quote : c ≠ QUOTE)
    (space : c ≠ SPACE) : s.char = if !s.inArg then s.beginWord s.i else s := by
  rw [Input.char]
  simp only [read]
  rw [if_neg some, if_neg quote, if_neg space]

/-! ### Between words and inside of them -/

variable {expected : Words}

/-- The words found stand in front, and those expected are these and the ones to come. -/
structure Between (expected : Words) (s : Input) (tail : List UInt8) : Prop where
  inArg : s.inArg = false
  inQuote : s.inQuote = false
  found : ∃ pre words, Reading s pre tail ∧ List.Forall₂ (Marked pre) s.argv words ∧ expected = ahead words tail

/-- A word is under way. `held` is a backslash before the loop. -/
structure Inside (expected : Words) (s : Input) (tail : List UInt8) : Prop where
  inArg : s.inArg = true
  found : ∃ front words argv word held, Reading s (front ++ (word ++ held)) tail ∧
    s.argv = argv ++ [front.length] ∧ List.Forall₂ (Marked front) argv words ∧ 0 ∉ word ∧
    (held = [BACKSLASH] ∨ held = [] ∧ (front ++ word).getLast? ≠ some BACKSLASH) ∧
    expected = aheadOf words word (wordFrom s.inQuote (held ++ tail))

/-- The loop has ended. -/
structure Ended (expected : Words) (s : Input) : Prop where
  stopped : s.turn = none
  begun : s.argv.length = expected.begun
  outside : s.outside = decide (MAX_ARGS < s.argv.length)
  refused : (s.failed || s.inQuote) = !expected.closed
  words : expected.closed = true → List.Forall₂ (Marked s.inbuf) s.argv expected.words

private theorem stopped_of (stop : (s.failed || s.done) = true) : s.turn = none := by
  rw [Input.turn, stop, Bool.true_or, if_pos rfl]

theorem Between.end_of_line (between : Between expected s []) :
    ∃ t, s.turn = some t ∧ Ended expected t := by
  obtain ⟨inArg, inQuote, pre, words, reading, marked, rfl⟩ := between
  have char : s.char = { s with done := true } := by simp [char_nul reading.at_nil, inQuote]
  refine ⟨{ s with done := true }, ?_, ?_⟩
  · rw [reading.turn_eq, char]
    simp [Input.advance]
  · obtain ⟨junk, bytes⟩ := reading.bytes
    rw [ahead_nil]
    constructor
    · exact stopped_of (by simp)
    · simp [Words.begun, marked.length_eq]
    · exact reading.outside
    · simp [reading.failed, inQuote]
    · intro _
      rw [bytes]
      exact marked.imp fun p word here => here.append _

private theorem aheadOf_end {held : List UInt8} (slash : held = [BACKSLASH] ∨ held = []) :
    aheadOf words word (wordFrom quoted held) =
      if quoted then ⟨words, false⟩ else ⟨words ++ [word ++ held], true⟩ := by
  have left : wordFrom quoted held = (held, if quoted then none else some []) := by
    rcases slash with rfl | rfl
    · rw [wordFrom, if_neg (Ne.symm wordEnd_ne_backslash)]
    · exact wordFrom_nil
  rw [left]
  cases quoted
  · exact ahead_nil
  · rfl

theorem Inside.end_of_line (inside : Inside expected s []) :
    ∃ t, s.turn = some t ∧ Ended expected t := by
  obtain ⟨inArg, front, words, argv, word, held, reading, args, marked, nonzero, slash, rfl⟩ := inside
  obtain ⟨junk, bytes⟩ := reading.bytes
  have held_nonzero : 0 ∉ held := by
    rcases slash with rfl | ⟨rfl, -⟩ <;> decide
  rw [List.append_nil, aheadOf_end (slash.imp_right And.left)]
  -- an open quote refuses the line; otherwise its zero ends the last word
  by_cases quoted : s.inQuote = true
  · have char : s.char = { s with failed := true } := by simp [char_nul reading.at_nil, quoted]
    refine ⟨{ s with failed := true }, ?_, ?_⟩
    · rw [reading.turn_eq, char]
      simp [Input.advance]
    · rw [if_pos quoted]
      constructor
      · exact stopped_of (by simp)
      · simp [Words.begun, args, marked.length_eq]
      · exact reading.outside
      · simp
      · intro closed
        cases closed
  · have char : s.char = { s with done := true } := by simp [char_nul reading.at_nil, quoted]
    refine ⟨{ s with done := true }, ?_, ?_⟩
    · rw [reading.turn_eq, char]
      simp [Input.advance]
    · rw [if_neg quoted]
      constructor
      · exact stopped_of (by simp)
      · simp [Words.begun, args, marked.length_eq]
      · exact reading.outside
      · simp [reading.failed, quoted]
      · intro _
        have last : Marked s.inbuf front.length (word ++ held) :=
          ⟨front, junk, by simp [bytes], rfl, by simp [nonzero, held_nonzero]⟩
        have before : List.Forall₂ (Marked s.inbuf) argv words := by
          rw [bytes, List.append_assoc]
          exact marked.imp fun p word here => here.append _
        show List.Forall₂ _ s.argv _
        rw [args]
        exact List.rel_append before (.cons last .nil)

/-- The loop is between two words or inside of one. -/
def Scanning (expected : Words) (s : Input) (tail : List UInt8) : Prop :=
  Between expected s tail ∨ Inside expected s tail

private theorem outside_begun (outside : s.outside = decide (MAX_ARGS < s.argv.length)) (p : Nat) :
    (s.beginWord p).outside = decide (MAX_ARGS < (s.beginWord p).argv.length) := by
  simp only [Input.beginWord, outside, List.length_append, List.length_singleton, ← Bool.decide_or,
    decide_eq_decide]
  omega

private theorem marked_append {argv : List Nat} (marked : List.Forall₂ (Marked pre) argv words)
    (more : List UInt8) : List.Forall₂ (Marked (pre ++ more)) argv words :=
  marked.imp fun _ _ here => here.append more

/-- A character that is neither a quote nor a space begins a word. -/
private theorem inside_first (reading : Reading s pre (c :: cs))
    (marked : List.Forall₂ (Marked pre) s.argv words)
    (inQuote : s.inQuote = false) (quote : c ≠ QUOTE) (space : c ≠ SPACE) :
    Inside (aheadOf words [] (wordFrom false (c :: cs))) (s.beginWord s.i).advance cs := by
  have here := reading.pass (t := s.beginWord s.i) reading.failed reading.done rfl rfl
    (outside_begun reading.outside s.i)
  have begins : (s.beginWord s.i).advance.argv = s.argv ++ [pre.length] := by
    rw [Input.argv_advance, Input.beginWord, reading.i]
  refine ⟨Input.inArg_advance, ?_⟩
  rw [Input.inQuote_advance, show (s.beginWord s.i).inQuote = false from inQuote]
  -- a backslash is held back: what comes next says whether it belongs to the word
  by_cases slash : c = BACKSLASH
  · subst slash
    exact ⟨pre, words, s.argv, [], [BACKSLASH], here, begins, marked, by simp, .inl rfl, rfl⟩
  · refine ⟨pre, words, s.argv, [c], [], ?_, begins, marked, ?_, .inr ⟨rfl, by simp [slash]⟩, ?_⟩
    · exact here
    · simpa using reading.ne_zero.symm
    · rw [wordFrom_char space (fun held => absurd held slash), aheadOf_cons]
      rfl

theorem Between.next (between : Between expected s (c :: cs)) :
    ∃ t, s.turn = some t ∧ Scanning expected t cs := by
  obtain ⟨inArg, inQuote, pre, words, reading, marked, rfl⟩ := between
  have escaped : s.escaped = false := by simp [Input.escaped, inArg]
  rw [reading.turn_eq]
  refine ⟨_, rfl, ?_⟩
  -- a space is skipped; a quote begins a word behind it, anything else a word with it
  by_cases space : c = SPACE
  · subst space
    have char : s.char = s := by simp [char_space reading.at_cons, escaped, inArg]
    have here := reading.pass reading.failed reading.done rfl rfl reading.outside
    rw [char, ahead_space]
    left
    constructor
    · rw [Input.inArg_advance, inArg]
    · rw [Input.inQuote_advance, inQuote]
    · rw [Input.argv_advance]
      exact ⟨pre ++ [SPACE], words, here, marked_append marked _, rfl⟩
  by_cases quote : c = QUOTE
  · subst quote
    have char : s.char = { s.beginWord (s.i + 1) with inQuote := true } := by
      simp [char_quote reading.at_cons, escaped, inArg, inQuote]
    have here := reading.pass (t := { s.beginWord (s.i + 1) with inQuote := true }) reading.failed
      reading.done rfl rfl (outside_begun reading.outside _)
    rw [char, ahead_word space]
    right
    constructor
    · exact Input.inArg_advance
    · rw [Input.inQuote_advance, Input.argv_advance]
      refine ⟨pre ++ [QUOTE], words, s.argv, [], [], ?_, ?_, marked_append marked _, by simp, ?_, rfl⟩
      · simpa using here
      · simp [Input.beginWord, reading.i]
      · exact .inr ⟨rfl, by simp [QUOTE, BACKSLASH]⟩
  · have char : s.char = s.beginWord s.i := by
      simp [char_other reading.at_cons reading.ne_zero quote space, inArg]
    rw [char, ahead_word space, if_neg quote, decide_eq_false quote]
    exact .inr (inside_first reading marked inQuote quote space)

/-- A backslash that turns out to stand for itself belongs to the word. -/
private theorem aheadOf_held {held : List UInt8}
    (slash : held = [BACKSLASH] ∧ ¬ (c = QUOTE ∨ c = SPACE) ∨ held = []) :
    aheadOf words word (wordFrom quoted (held ++ c :: cs)) =
      aheadOf words (word ++ held) (wordFrom quoted (c :: cs)) := by
  rcases slash with ⟨rfl, plain⟩ | rfl
  · rw [List.singleton_append, wordFrom_char (Ne.symm wordEnd_ne_backslash), aheadOf_cons]
    rintro _ d ⟨⟩
    exact plain
  · rw [List.nil_append, List.append_nil]

variable {front : List UInt8} {argv : List Nat}

/-- The word ends at this character. -/
private theorem between_endWord (reading : Reading s (front ++ word) (c :: cs))
    (args : s.argv = argv ++ [front.length]) (marked : List.Forall₂ (Marked front) argv words)
    (nonzero : 0 ∉ word) : Between (aheadOf words word ([], some cs)) s.endWord.advance cs := by
  have here := reading.endWord
  refine ⟨by rw [Input.inArg_advance]; rfl, by rw [Input.inQuote_advance]; rfl, ?_⟩
  refine ⟨front ++ word ++ [0], words ++ [word], here, ?_, by simp [aheadOf]⟩
  have last : Marked (front ++ word ++ [0]) front.length word := ⟨front, [], by simp, rfl, nonzero⟩
  have before : List.Forall₂ (Marked (front ++ word ++ [0])) argv words := by
    rw [List.append_assoc]
    exact marked_append marked _
  rw [Input.argv_advance, show s.endWord.argv = s.argv from rfl, args]
  exact List.rel_append before (.cons last .nil)

/-- The word goes on with this character. -/
private theorem inside_char (reading : Reading s (front ++ word) (c :: cs)) (inArg : s.inArg = true)
    (args : s.argv = argv ++ [front.length]) (marked : List.Forall₂ (Marked front) argv words)
    (nonzero : 0 ∉ word) (inner : c ≠ wordEnd s.inQuote) :
    Inside (aheadOf words word (wordFrom s.inQuote (c :: cs))) s.advance cs := by
  have here := reading.pass reading.failed reading.done rfl rfl reading.outside
  refine ⟨by rw [Input.inArg_advance, inArg], ?_⟩
  rw [Input.inQuote_advance, Input.argv_advance]
  -- a backslash is held back, as at the beginning of a word
  by_cases slash : c = BACKSLASH
  · subst slash
    refine ⟨front, words, argv, word, [BACKSLASH], ?_, args, marked, nonzero, .inl rfl, rfl⟩
    rw [← List.append_assoc]
    exact here
  · refine ⟨front, words, argv, word ++ [c], [], ?_, args, marked, ?_, .inr ⟨rfl, ?_⟩, ?_⟩
    · simpa using here
    · simp [nonzero, reading.ne_zero.symm]
    · rw [← List.append_assoc, List.getLast?_concat]
      simpa using slash
    · rw [wordFrom_char inner (fun held => absurd held slash), aheadOf_cons]
      rfl

/-- The character was escaped. -/
private theorem inside_escape (reading : Reading s (front ++ (word ++ [BACKSLASH])) (c :: cs))
    (inArg : s.inArg = true) (args : s.argv = argv ++ [front.length])
    (marked : List.Forall₂ (Marked front) argv words) (nonzero : 0 ∉ word) (special : c = QUOTE ∨ c = SPACE) :
    Inside (aheadOf words word (wordFrom s.inQuote (BACKSLASH :: c :: cs))) s.unescape.advance cs := by
  rw [← List.append_assoc] at reading
  have here := reading.unescape
  refine ⟨by rw [Input.inArg_advance]; exact inArg, ?_⟩
  rw [Input.inQuote_advance, Input.argv_advance]
  refine ⟨front, words, argv, word ++ [c], [], ?_, args, marked, ?_, .inr ⟨rfl, ?_⟩, ?_⟩
  · simpa using here
  · simp [nonzero, reading.ne_zero.symm]
  · rw [← List.append_assoc, List.getLast?_concat]
    rcases special with rfl | rfl <;> decide
  · rw [wordFrom_escape special, aheadOf_cons]
    rfl

theorem Inside.next (inside : Inside expected s (c :: cs)) :
    ∃ t, s.turn = some t ∧ Scanning expected t cs := by
  obtain ⟨inArg, front, words, argv, word, held, reading, args, marked, nonzero, slash, rfl⟩ := inside
  rw [reading.turn_eq]
  refine ⟨_, rfl, ?_⟩
  -- first the character that the held backslash escapes
  by_cases escape : held = [BACKSLASH] ∧ (c = QUOTE ∨ c = SPACE)
  · obtain ⟨rfl, special⟩ := escape
    have escaped : s.escaped = true := by
      rw [reading.escaped_iff, ← List.append_assoc, List.getLast?_concat]
      exact ⟨inArg, rfl⟩
    have char : s.char = s.unescape := by
      rcases special with rfl | rfl
      · rw [char_quote reading.at_cons, if_pos escaped]
      · rw [char_space reading.at_cons, if_pos escaped]
    rw [char]
    exact .inr (inside_escape reading inArg args marked nonzero special)
  -- from here on a held backslash stands for itself
  have plain : held = [BACKSLASH] ∧ ¬ (c = QUOTE ∨ c = SPACE) ∨ held = [] :=
    slash.imp (fun held => ⟨held, fun special => escape ⟨held, special⟩⟩) And.left
  have escaped (special : c = QUOTE ∨ c = SPACE) : s.escaped = false := by
    rw [Bool.eq_false_iff, Ne, reading.escaped_iff]
    rintro ⟨-, last⟩
    rcases slash with rfl | ⟨rfl, other⟩
    · exact escape ⟨rfl, special⟩
    · exact other (by simpa using last)
  have nonzero' : 0 ∉ word ++ held := by
    rcases plain with ⟨rfl, -⟩ | rfl <;> simp [nonzero, BACKSLASH]
  rw [aheadOf_held plain]
  -- the word ends, or goes on with a character that is not special inside of it
  by_cases ends : c = wordEnd s.inQuote
  · have char : s.char = s.endWord := by
      cases inQuote : s.inQuote with
      | true =>
        have quote : c = QUOTE := by rw [ends, inQuote]; rfl
        rw [char_quote (reading.at_cons.trans quote)]
        simp [escaped (.inl quote), inQuote, inArg]
      | false =>
        have space : c = SPACE := by rw [ends, inQuote]; rfl
        rw [char_space (reading.at_cons.trans space)]
        simp [escaped (.inr space), inQuote, inArg]
    have last := between_endWord reading args marked nonzero'
    rw [char, ends, wordFrom_end]
    exact .inl last
  · have char : s.char = s := by
      by_cases quote : c = QUOTE
      · have inQuote : s.inQuote = false := by
          rw [Bool.eq_false_iff]
          exact fun quoted => ends (by rw [quote, quoted]; rfl)
        rw [char_quote (reading.at_cons.trans quote)]
        simp [escaped (.inl quote), inQuote, inArg]
      by_cases space : c = SPACE
      · have inQuote : s.inQuote = true := by
          rw [← Bool.not_eq_false]
          exact fun quoted => ends (by rw [space, quoted]; rfl)
        rw [char_space (reading.at_cons.trans space)]
        simp [escaped (.inr space), inQuote]
      · rw [char_other reading.at_cons reading.ne_zero quote space]
        simp [inArg]
    rw [char]
    exact .inr (inside_char reading inArg args marked nonzero' ends)

/-! ### The whole line -/

private theorem scanning_ends (tail : List UInt8) (scanning : Scanning expected s tail) :
    ∃ fuel r, walk Input.turn fuel s = some r ∧ Ended expected r := by
  -- by induction on the characters left; one turn takes one of them
  induction tail generalizing s with
  | nil =>
    obtain ⟨r, turn, ended⟩ : ∃ t, s.turn = some t ∧ Ended expected t :=
      scanning.elim Between.end_of_line Inside.end_of_line
    exact ⟨2, r, by simp only [walk, turn, ended.stopped], ended⟩
  | cons c cs ih =>
    obtain ⟨t, turn, next⟩ : ∃ t, s.turn = some t ∧ Scanning expected t cs :=
      scanning.elim Between.next Inside.next
    obtain ⟨fuel, r, walked, ended⟩ := ih next
    exact ⟨fuel + 1, r, by simp only [walk, turn, walked], ended⟩

/-- A buffer is its line, a zero and what is behind it. -/
private theorem split_line {bytes : List UInt8} (terminated : 0 ∈ bytes) :
    ∃ junk, bytes = stringAt bytes 0 ++ 0 :: junk ∧ 0 ∉ stringAt bytes 0 := by
  rw [stringAt, List.drop_zero]
  -- by induction on the buffer, up to its first zero
  induction bytes with
  | nil => cases terminated
  | cons c cs ih =>
    by_cases zero : c = 0
    · subst zero
      exact ⟨cs, by simp⟩
    · obtain ⟨junk, whole, nonzero⟩ := ih (by simpa [Ne.symm zero] using terminated)
      have kept : (c :: cs).takeWhile (· ≠ 0) = c :: cs.takeWhile (· ≠ 0) := by simp [zero]
      rw [kept]
      refine ⟨junk, ?_, ?_⟩
      · rw [List.cons_append, ← whole]
      · rw [List.mem_cons, not_or]
        exact ⟨Ne.symm zero, nonzero⟩

private theorem start_between (inbuf : Inbuf) :
    Between inbuf.words (.start inbuf.bytes) (stringAt inbuf.bytes 0) := by
  obtain ⟨junk, bytes, nonzero⟩ := split_line inbuf.terminated
  refine ⟨rfl, rfl, [], [], ⟨rfl, rfl, inbuf.size, rfl, rfl, ⟨junk, bytes⟩, nonzero⟩, .nil, ?_⟩
  simp [ahead, Inbuf.words]

/-- What is returned and passed on after the loop. -/
structure Finished (s : Input) (r : Handled) : Prop where
  ret : r.ret = 2 ↔ (s.failed || s.inQuote) = true
  inbuf : r.inbuf = s.inbuf
  argv : r.argv = s.argv
  outside : r.outside = s.outside

private theorem finish_finished (cli : Commands) (s : Input) : Finished s (s.finish cli) := by
  have found : (0 : UInt32) ≠ 2 := by decide
  have unknown : (1 : UInt32) ≠ 2 := by decide
  rw [Input.finish]
  split
  next refused => exact ⟨iff_of_true rfl refused, rfl, rfl, rfl⟩
  next accepted =>
    split
    next args => exact ⟨iff_of_false found accepted, rfl, args.symm, rfl⟩
    next =>
      dsimp only
      split
      next => exact ⟨iff_of_false unknown accepted, rfl, rfl, rfl⟩
      next => exact ⟨iff_of_false found accepted, rfl, rfl, rfl⟩

private theorem finish_tokenized_iff (cli : Commands) (inbuf : Inbuf) (ended : Ended inbuf.words s) :
    Tokenized inbuf (s.finish cli) ↔ inbuf.words.begun ≤ MAX_ARGS := by
  have finished := finish_finished cli s
  have outside : (s.finish cli).outside = false ↔ inbuf.words.begun ≤ MAX_ARGS := by
    rw [finished.outside, ended.outside, ended.begun, decide_eq_false_iff_not, Nat.not_lt]
  have refused : (s.finish cli).ret = 2 ↔ inbuf.words.closed = false := by
    rw [finished.ret, ended.refused, Bool.not_eq_true']
  constructor
  · exact fun tokenized => outside.mp tokenized.inside
  · intro enough
    refine ⟨outside.mpr enough, refused, fun accepted => ?_⟩
    have closed : inbuf.words.closed = true := by
      rw [Ne, refused, Bool.not_eq_false] at accepted
      exact accepted
    have marked := ended.words closed
    rw [finished.argv, finished.inbuf]
    generalize inbuf.words.words = words, s.argv = argv at marked
    induction marked with
    | nil => rfl
    | cons here _ ih => rw [List.map_cons, ih, here.stringAt]

private theorem handled_tokenized_iff {cli : Commands} {inbuf : Inbuf} {fuel : Nat} {r : Handled}
    (result : handleInput cli fuel inbuf.bytes = some r) :
    Tokenized inbuf r ↔ inbuf.words.begun ≤ MAX_ARGS := by
  obtain ⟨_, _, walked, ended⟩ := scanning_ends _ (.inl (start_between inbuf))
  obtain ⟨reached, last⟩ := walk_reaches walked
  obtain ⟨_, walked', rfl⟩ := Option.map_eq_some_iff.mp result
  obtain rfl := walk_unique walked' reached last
  exact finish_tokenized_iff cli inbuf ended

/-- A line is cut into its words exactly when there are slots for the words that are begun in it. -/
theorem line_tokenized_iff (cli : Commands) (inbuf : Inbuf) :
    (∃ fuel r, handleInput cli fuel inbuf.bytes = some r ∧ Tokenized inbuf r) ↔
      inbuf.words.begun ≤ MAX_ARGS := by
  constructor
  · rintro ⟨fuel, r, result, tokenized⟩
    exact (handled_tokenized_iff result).mp tokenized
  · intro enough
    obtain ⟨fuel, s, walked, -⟩ := scanning_ends _ (.inl (start_between inbuf))
    have result : handleInput cli fuel inbuf.bytes = some (s.finish cli) := by
      rw [handleInput, walked, Option.map_some]
    exact ⟨fuel, s.finish cli, result, (handled_tokenized_iff result).mpr enough⟩

/-- A line of seventeen words. -/
def seventeenWords : Inbuf where
  bytes := (List.replicate 17 [0x61, SPACE]).flatten ++ List.replicate 94 0
  size := by simp [INBUF_SIZE]
  terminated := List.mem_append_right _ (List.mem_replicate.mpr ⟨by decide, rfl⟩)

/-- The seventeenth word has no slot in `argv`. -/
theorem seventeenth_word_overruns :
    ¬ ∀ cli inbuf, ∃ fuel r, handleInput cli fuel inbuf.bytes = some r ∧ Tokenized inbuf r := by
  intro always
  obtain ⟨fuel, r, result, tokenized⟩ := always ⟨[], 0⟩ seventeenWords
  exact absurd ((handled_tokenized_iff result).mp tokenized) (by decide +kernel)

end Bk7251.Cli
