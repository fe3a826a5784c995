import Bk7251.Audio.RingBufferFifo

/-!
# Reads from the DAC interrupt

A thread runs `rb_write` one memory operation after the other, and `audio_dac_isr` may run a
whole `rb_read` between any two of them. A block that ends inside the ring is copied before
`wp` moves behind it. A block that passes the end is copied in two pieces, and `wp` moves
between them: the bytes of the second piece can be read before they are there.
-/
namespace Bk7251.Audio

open Lib

/-- One memory operation of `rb_write`. What it takes from the struct it takes when it runs. -/
inductive WriteOp
  /-- `RB_MEMCPY(&rb->address[rb->wp], buffer, len)` -/
  | copyBlock (len : UInt32)
  /-- `rb->wp += n` -/
  | addWp (n : UInt32)
  /-- `rb->wp = wp` -/
  | setWp (wp : UInt32)
  /-- `RB_MEMCPY(&rb->address[0], &buffer[remain_bytes], rb->wp)` -/
  | copyFront (remainBytes : UInt32)
  /-- `if(rb->wp >= rb->capacity && rb->rp)` -/
  | testWp

/-- The operations `rb_write` has before it once it has read `rp`; none where it returns 0. -/
def rbWriteOps (rb : RbSt) (writeBytes : UInt32) : List WriteOp :=
  if writeBytes = 0 then []
  else if rb.wp ≥ rb.rp then
    if rb.capacity - rb.wp + rb.rp ≥ writeBytes + rwpSafeInterval then
      let remainBytes := rb.capacity - rb.wp
      if remainBytes ≥ writeBytes then
        [.copyBlock writeBytes, .addWp writeBytes, .testWp]
      else
        [.copyBlock remainBytes, .setWp (writeBytes - remainBytes), .copyFront remainBytes, .testWp]
    else []
  else
    if rb.rp - rb.wp ≥ writeBytes + rwpSafeInterval then
      [.copyBlock writeBytes, .addWp writeBytes, .testWp]
    else []

namespace WriteOp

/-- What the operation does to the struct and the ring. -/
def exec (rb : RbSt) (buffer : Mem UInt8) : WriteOp → RbSt
  | copyBlock len => { rb with address := (Copy.mk rb.wp 0 len).apply rb.address buffer }
  | addWp n => { rb with wp := rb.wp + n }
  | setWp wp => { rb with wp }
  | copyFront remainBytes =>
    { rb with address := (Copy.mk 0 remainBytes rb.wp).apply rb.address buffer }
  | testWp => rb

/-- What a test that succeeds puts in front of the operations still to come. -/
def branch (rb : RbSt) : WriteOp → List WriteOp
  | testWp => if rb.wp ≥ rb.capacity ∧ rb.rp ≠ 0 then [setWp 0] else []
  | _ => []

/-- How many bytes of the block it copies. -/
def copies (rb : RbSt) : WriteOp → Nat
  | copyBlock len => len.toNat
  | copyFront _ => rb.wp.toNat
  | _ => 0

end WriteOp

/-- The ring, the call of `rb_write` under way, and what went in and out so far: `accepted` holds the
blocks of all writes that did not return 0, `copied` counts the bytes of them that are in the ring. -/
structure Playback where
  rb : RbSt
  buffer : Mem UInt8
  pending : List WriteOp
  accepted : List UInt8
  copied : Nat
  delivered : List UInt8

inductive PlaybackEvent
  | write (buffer : Mem UInt8) (size count : UInt32)
  | advance
  | interrupt (size count : UInt32)

namespace Playback

/-- No write is under way; the unread bytes are the first to be delivered. -/
def start (rb : RbSt) : Playback := ⟨rb, fun _ => 0, [], rb.unread, rb.filled, []⟩

def advance (s : Playback) : Playback :=
  match s.pending with
  | [] => s
  | op :: rest =>
    { s with
      rb := op.exec s.rb s.buffer
      pending := op.branch s.rb ++ rest
      copied := s.copied + op.copies s.rb }

/-- There is one writer: a call starts when the one before it has returned. -/
def step (s : Playback) : PlaybackEvent → Playback
  | .write buffer size count =>
    if s.pending = [] then
      let ops := rbWriteOps s.rb (size * count)
      let block := if ops = [] then [] else buffer.read 0 (size * count).toNat
      { s with buffer, pending := ops, accepted := s.accepted ++ block }
    else s
  | .advance => s.advance
  | .interrupt size count =>
    let (rb, sample, readBytes) := rbRead s.rb (fun _ => 0) size count
    { s with rb, delivered := s.delivered ++ sample.read 0 readBytes.toNat }

/-- The bytes that the pointers delimit were all copied. -/
def AllCopied (s : Playback) : Prop := s.delivered.length + s.rb.filled ≤ s.copied

/-- `wp` stands behind the second piece of a block, and the copy of that piece is next. -/
def beforeFrontCopy (s : Playback) : Bool :=
  match s.pending with
  | .copyFront _ :: _ => true
  | _ => false

end Playback

/-- The check of `rb_write` adds the safety interval in 32 bits. -/
def PlaybackEvent.Small : PlaybackEvent → Prop
  | .write _ size count => (size * count).toNat + 4 < 2 ^ 32
  | _ => True

instance : DecidablePred PlaybackEvent.Small
  | .write _ size count => inferInstanceAs (Decidable ((size * count).toNat + 4 < 2 ^ 32))
  | .advance => isTrue trivial
  | .interrupt _ _ => isTrue trivial

def PlaybackEvent.isInterrupt : PlaybackEvent → Bool
  | .interrupt _ _ => true
  | _ => false

/-- Wherever an interrupt arrives, the bytes between the pointers are all copied and are the next ones
of the stream; and at no time has anything but the beginning of the stream been read. -/
structure Playback.InOrder (s : Playback) (events : List PlaybackEvent) : Prop where
  copied : Along step (fun s e => e.isInterrupt →
    s.AllCopied ∧ s.delivered ++ s.rb.unread <+: s.accepted) s events
  delivered : ∀ part, part <+: events →
    (part.foldl step s).delivered <+: (part.foldl step s).accepted

/-! ### An uninterrupted write is a call of `rb_write` -/

namespace Playback

theorem advance_cons (s : Playback) (op : WriteOp) (rest : List WriteOp)
    (next : s.pending = op :: rest) :
    s.step .advance =
      { s with
        rb := op.exec s.rb s.buffer
        pending := op.branch s.rb ++ rest
        copied := s.copied + op.copies s.rb } := by
  simp only [step, advance, next]

theorem advance_nil (s : Playback) (idle : s.pending = []) : s.step .advance = s := by
  simp only [step, advance, idle]

/-- The test at the end of `rb_write`, and the update it may lead to. -/
theorem advance_testWp (s : Playback) (next : s.pending = [.testWp]) :
    (s.step .advance).step .advance =
      { s with rb := { s.rb with wp := wrapWp s.rb.capacity s.rb.rp s.rb.wp }, pending := [] } := by
  rw [advance_cons s _ _ next]
  by_cases atEnd : s.rb.wp ≥ s.rb.capacity ∧ s.rb.rp ≠ 0
  · simp [step, advance, WriteOp.branch, WriteOp.exec, WriteOp.copies, wrapWp, atEnd]
  · simp [step, advance, WriteOp.branch, WriteOp.exec, WriteOp.copies, wrapWp, atEnd]

theorem advance_block (s : Playback) (n : UInt32)
    (next : s.pending = [.copyBlock n, .addWp n, .testWp]) :
    (List.replicate 5 .advance).foldl step s =
      { s with
        rb := { s.rb with
          address := (Copy.mk s.rb.wp 0 n).apply s.rb.address s.buffer
          wp := wrapWp s.rb.capacity s.rb.rp (s.rb.wp + n) }
        pending := []
        copied := s.copied + n.toNat } := by
  obtain ⟨rb, buffer, pending, accepted, copied, delivered⟩ := s
  cases next
  have tested := advance_testWp ⟨{ rb with
    address := (Copy.mk rb.wp 0 n).apply rb.address buffer
    wp := rb.wp + n }, buffer, [.testWp], accepted, copied + n.toNat, delivered⟩ rfl
  exact congrArg (Playback.step · .advance) tested

theorem advance_pieces (s : Playback) (wp remainBytes : UInt32)
    (next : s.pending = [.copyBlock remainBytes, .setWp wp, .copyFront remainBytes, .testWp]) :
    (List.replicate 5 .advance).foldl step s =
      { s with
        rb := { s.rb with
          address := (Copy.mk 0 remainBytes wp).apply
            ((Copy.mk s.rb.wp 0 remainBytes).apply s.rb.address s.buffer) s.buffer
          wp := wrapWp s.rb.capacity s.rb.rp wp }
        pending := []
        copied := s.copied + remainBytes.toNat + wp.toNat } := by
  obtain ⟨rb, buffer, pending, accepted, copied, delivered⟩ := s
  cases next
  exact advance_testWp ⟨{ rb with
    address := (Copy.mk 0 remainBytes wp).apply
      ((Copy.mk rb.wp 0 remainBytes).apply rb.address buffer) buffer
    wp }, buffer, [.testWp], accepted, copied + remainBytes.toNat + wp.toNat, delivered⟩ rfl

theorem advance_idle (s : Playback) (idle : s.pending = []) (n : Nat) :
    (List.replicate n .advance).foldl step s = s := by
  induction n with
  | zero => rfl
  | succ n ih => rw [List.replicate_succ, List.foldl_cons, advance_nil s idle, ih]

end Playback

/-- The operations, taken one after the other, do what the call does. -/
theorem write_uninterrupted (s : Playback) (idle : s.pending = []) (buffer : Mem UInt8)
    (size count : UInt32) :
    (PlaybackEvent.write buffer size count :: List.replicate 5 .advance).foldl Playback.step s =
      { s with
        rb := (rbWrite s.rb buffer size count).1
        buffer
        accepted := s.accepted ++ buffer.read 0 (rbWrite s.rb buffer size count).2.toNat
        copied := s.copied + (rbWrite s.rb buffer size count).2.toNat } := by
  generalize hn : size * count = n
  generalize ho : rbWriteOps s.rb n = ops
  simp only [List.foldl_cons, Playback.step, idle, hn, ho, rbWrite, writePlan, if_true]
  unfold rbWriteOps at ho
  by_cases none : n = 0
  · rw [if_pos none] at ho
    subst ho
    rw [Playback.advance_idle _ rfl]
    simp [none]
  rw [if_neg none] at ho
  by_cases ahead : s.rb.wp ≥ s.rb.rp
  · rw [if_pos ahead] at ho
    by_cases room : s.rb.capacity - s.rb.wp + s.rb.rp ≥ n + rwpSafeInterval
    · rw [if_pos room] at ho
      by_cases fits : s.rb.capacity - s.rb.wp ≥ n
      · simp only [if_pos fits] at ho
        subst ho
        rw [Playback.advance_block _ n rfl]
        simp [none, ahead, room, fits]
      · simp only [if_neg fits] at ho
        subst ho
        -- the second piece is what the first leaves of the block
        have longer := UInt32.lt_iff_toNat_lt.mp (UInt32.not_le.mp fits)
        have second := toNat_sub n (s.rb.capacity - s.rb.wp) (Nat.le_of_lt longer)
        rw [Playback.advance_pieces _ _ _ rfl]
        simp [none, ahead, room, fits, second]
        omega
    · rw [if_neg room] at ho
      subst ho
      rw [Playback.advance_idle _ rfl]
      simp [none, ahead, room]
  · rw [if_neg ahead] at ho
    by_cases room : s.rb.rp - s.rb.wp ≥ n + rwpSafeInterval
    · rw [if_pos room] at ho
      subst ho
      rw [Playback.advance_block _ n rfl]
      simp [none, ahead, room]
    · rw [if_neg room] at ho
      subst ho
      rw [Playback.advance_idle _ rfl]
      simp [none, ahead, room]

/-! ### How far a write has come -/

/-- Between two operations of a write, `wp` may stand at the very end of the ring. -/
structure RbSt.Between (rb : RbSt) : Prop where
  rp_le : rb.rp.toNat ≤ rb.capacity.toNat
  wp_at : rb.wp.toNat < rb.capacity.toNat ∨ rb.wp.toNat = 0 ∨
    rb.wp.toNat = rb.capacity.toNat ∧ 0 < rb.rp.toNat
  gap : rb.filled = 0 ∨ rb.filled + 4 ≤ rb.capacity.toNat

/-- The block of `n` bytes that is being written ends inside the ring. -/
structure RbSt.EndsInside (rb : RbSt) (n : Nat) : Prop where
  ok : rb.Ok
  inside : rb.wp.toNat + n ≤ rb.capacity.toNat
  room : rb.filled + n + 4 ≤ rb.capacity.toNat

/-- `first` bytes of the block go up to the end of the ring, `second` bytes to its front. -/
structure RbSt.Crosses (rb : RbSt) (first second : Nat) : Prop where
  ok : rb.Ok
  tail : rb.wp.toNat + first = rb.capacity.toNat
  pos : 0 < second
  room : rb.filled + (first + second) + 4 ≤ rb.capacity.toNat

/-- The operations a write can have before it, with the number of bytes from `rp` on that are copied
and the rest of the block, which is not. -/
inductive WriteStage (rb : RbSt) (buffer : Mem UInt8) : List WriteOp → Nat → List UInt8 → Prop
  | idle (ok : rb.Ok) : WriteStage rb buffer [] rb.filled []
  | copyBlock (n : UInt32) (fits : rb.EndsInside n.toNat) :
    WriteStage rb buffer [.copyBlock n, .addWp n, .testWp] rb.filled (buffer.read 0 n.toNat)
  | addWp (n : UInt32) (fits : rb.EndsInside n.toNat) :
    WriteStage rb buffer [.addWp n, .testWp] (rb.filled + n.toNat) []
  | testWp (between : rb.Between) : WriteStage rb buffer [.testWp] rb.filled []
  | wrapWp (between : rb.Between) (atEnd : rb.wp.toNat = rb.capacity.toNat) (pos : 0 < rb.rp.toNat) :
    WriteStage rb buffer [.setWp 0] rb.filled []
  | copyTail (r v : UInt32) (crosses : rb.Crosses r.toNat v.toNat) :
    WriteStage rb buffer [.copyBlock r, .setWp v, .copyFront r, .testWp] rb.filled
      (buffer.read 0 (r.toNat + v.toNat))
  | setWp (r v : UInt32) (crosses : rb.Crosses r.toNat v.toNat) :
    WriteStage rb buffer [.setWp v, .copyFront r, .testWp] (rb.filled + r.toNat)
      (buffer.read r.toNat v.toNat)
  | copyFront (r : UInt32) (ok : rb.Ok) (pos : 0 < rb.wp.toNat) (wrapped : rb.wp.toNat < rb.rp.toNat) :
    WriteStage rb buffer [.copyFront r, .testWp] (rb.filled - rb.wp.toNat)
      (buffer.read r.toNat rb.wp.toNat)

theorem RbSt.Ok.between {rb : RbSt} (ok : rb.Ok) : rb.Between := by
  refine ⟨ok.rp_le, ?_, ok.gap⟩
  rcases ok.wp_lt with inside | front
  · exact Or.inl inside
  · exact Or.inr (Or.inl front)

theorem RbSt.Between.wp_le {rb : RbSt} (between : rb.Between) :
    rb.wp.toNat ≤ rb.capacity.toNat := by
  rcases between.wp_at with inside | front | atEnd
  · exact Nat.le_of_lt inside
  · exact front ▸ Nat.zero_le _
  · exact Nat.le_of_eq atEnd.1

section

variable {rb : RbSt} {buffer : Mem UInt8} {pending : List WriteOp} {copied : Nat} {rest : List UInt8}

theorem WriteStage.between (stage : WriteStage rb buffer pending copied rest) : rb.Between := by
  cases stage with
  | idle ok => exact ok.between
  | copyBlock n fits => exact fits.ok.between
  | addWp n fits => exact fits.ok.between
  | testWp between => exact between
  | wrapWp between atEnd pos => exact between
  | copyTail r v crosses => exact crosses.ok.between
  | setWp r v crosses => exact crosses.ok.between
  | copyFront r ok pos wrapped => exact ok.between

theorem WriteStage.copied_le (stage : WriteStage rb buffer pending copied rest) :
    copied ≤ rb.capacity.toNat := by
  have full : rb.filled ≤ rb.capacity.toNat :=
    Ring.span_le _ _ _ stage.between.rp_le stage.between.wp_le
  cases stage with
  | idle ok => exact full
  | copyBlock n fits => exact full
  | addWp n fits =>
    have room := fits.room
    omega
  | testWp between => exact full
  | wrapWp between atEnd pos => exact full
  | copyTail r v crosses => exact full
  | setWp r v crosses =>
    have room := crosses.room
    omega
  | copyFront r ok pos wrapped => omega

/-- The pointers delimit copied bytes only, except before the copy to the front. -/
theorem WriteStage.filled_le_iff (stage : WriteStage rb buffer pending copied rest) :
    rb.filled ≤ copied ↔ ∀ r more, pending ≠ .copyFront r :: more := by
  cases stage with
  | copyFront r ok pos wrapped =>
    have filled : rb.filled = rb.capacity.toNat - rb.rp.toNat + rb.wp.toNat := by
      rw [RbSt.filled, Ring.span, if_neg (by omega)]
    apply iff_of_false
    · omega
    · intro other
      exact other r _ rfl
  | _ => simp

/-! ### A read in the middle of a write -/

section

variable {rp' : UInt32} {k : Nat} (rpLe : rp'.toNat ≤ rb.capacity.toNat)
  (left : RbSt.filled { rb with rp := rp' } = rb.filled - k)

include rpLe left

theorem RbSt.Between.move_rp (between : rb.Between) : RbSt.Between { rb with rp := rp' } := by
  obtain ⟨before, wpAt, gap⟩ := between
  refine ⟨rpLe, ?_, ?_⟩
  · rcases wpAt with inside | front | ⟨atEnd, pos⟩
    · exact Or.inl inside
    · exact Or.inr (Or.inl front)
    · -- with `wp` at the end, `rp` at the front would make the whole ring the window
      refine Or.inr (Or.inr ⟨atEnd, ?_⟩)
      by_contra front
      change ¬0 < rp'.toNat at front
      simp only [RbSt.filled, Ring.span] at left
      rw [if_pos (by omega), if_pos (by omega)] at left
      omega
  · rw [left]
    change _ ∨ _ ≤ rb.capacity.toNat
    omega

theorem RbSt.Ok.move_rp (ok : rb.Ok) : RbSt.Ok { rb with rp := rp' } :=
  ⟨rpLe, ok.wp_lt, (ok.between.move_rp rpLe left).gap⟩

theorem RbSt.EndsInside.move_rp {n : Nat} (fits : rb.EndsInside n) :
    RbSt.EndsInside { rb with rp := rp' } n := by
  refine ⟨fits.ok.move_rp rpLe left, fits.inside, ?_⟩
  have room := fits.room
  rw [left]
  change _ ≤ rb.capacity.toNat
  omega

theorem RbSt.Crosses.move_rp {m n : Nat} (crosses : rb.Crosses m n) :
    RbSt.Crosses { rb with rp := rp' } m n := by
  refine ⟨crosses.ok.move_rp rpLe left, crosses.tail, crosses.pos, ?_⟩
  have room := crosses.room
  rw [left]
  change _ ≤ rb.capacity.toNat
  omega

/-- Moving `rp` over `k` bytes of the window leaves the write where it was. -/
theorem WriteStage.move_rp (stage : WriteStage rb buffer pending copied rest)
    (within : k ≤ rb.filled) (all : rb.filled ≤ copied) :
    WriteStage { rb with rp := rp' } buffer pending (copied - k) rest := by
  cases stage with
  | idle ok =>
    rw [← left]
    exact .idle (ok.move_rp rpLe left)
  | copyBlock n fits =>
    rw [← left]
    exact .copyBlock n (fits.move_rp rpLe left)
  | addWp n fits =>
    rw [Nat.sub_add_comm within, ← left]
    exact .addWp n (fits.move_rp rpLe left)
  | testWp between =>
    rw [← left]
    exact .testWp (between.move_rp rpLe left)
  | wrapWp between atEnd pos =>
    have moved := between.move_rp rpLe left
    have before := between.rp_le
    rw [← left]
    apply WriteStage.wrapWp moved atEnd
    rcases moved.wp_at with inside | front | both
    · exact absurd atEnd (Nat.ne_of_lt inside)
    · change rb.wp.toNat = 0 at front
      omega
    · exact both.2
  | copyTail r v crosses =>
    rw [← left]
    exact .copyTail r v (crosses.move_rp rpLe left)
  | setWp r v crosses =>
    rw [Nat.sub_add_comm within, ← left]
    exact .setWp r v (crosses.move_rp rpLe left)
  | copyFront r ok pos wrapped =>
    -- here the window holds bytes that are not copied
    have filled : rb.filled = rb.capacity.toNat - rb.rp.toNat + rb.wp.toNat := by
      rw [RbSt.filled, Ring.span, if_neg (by omega)]
    omega

end

/-- An interrupt that finds only copied bytes reads the first of them and leaves the write where
it was. -/
theorem WriteStage.read (stage : WriteStage rb buffer pending copied rest) (all : rb.filled ≤ copied)
    (sample : Mem UInt8) (size count : UInt32) :
    ∃ rp' sample' k, rbRead rb sample size count = ({ rb with rp := rp' }, sample', k) ∧
      k.toNat ≤ copied ∧
      WriteStage { rb with rp := rp' } buffer pending (copied - k.toNat) rest ∧
      Ring.contents rb.address rb.capacity.toNat rb.rp.toNat copied =
        sample'.read 0 k.toNat ++
          Ring.contents rb.address rb.capacity.toNat rp'.toNat (copied - k.toNat) := by
  have between := stage.between
  have inRing := stage.copied_le
  obtain ⟨rp', sample', k, call, amount, got, -, rpLe, left, follows⟩ :=
    rbRead_window rb between.rp_le between.wp_le sample size count
  have within : k.toNat ≤ rb.filled := by
    rw [amount]
    exact Nat.min_le_right _ _
  refine ⟨rp', sample', k, call, by omega, stage.move_rp rpLe left within all, ?_⟩
  have front := Ring.contents_take rb.address rb.capacity.toNat rb.rp.toNat copied k.toNat (by omega)
  have back := Ring.contents_drop rb.address rb.capacity.toNat rb.rp.toNat copied k.toNat
    between.rp_le (by omega) inRing
  rw [got, RbSt.unread, Ring.contents_take _ _ _ _ _ within, ← front, follows _ (by omega), ← back,
    List.take_append_drop]

/-! ### The next operation of a write -/

theorem Copy.apply_behind (c : Copy) (mem : Mem UInt8) (cap rp n : Nat) (hr : rp ≤ cap)
    (behind : Ring.slot cap rp n = c.dst.toNat) (inside : c.dst.toNat + c.len.toNat ≤ cap)
    (room : n + c.len.toNat ≤ cap) :
    Ring.contents (c.apply mem buffer) cap rp (n + c.len.toNat) =
      Ring.contents mem cap rp n ++ buffer.read c.src.toNat c.len.toNat := by
  have stored := Ring.contents_write mem cap rp n (buffer.read c.src.toNat c.len.toNat) hr
    (by rw [Mem.length_read]; exact room) (by rw [Mem.length_read, behind]; exact inside)
  rwa [Mem.length_read, behind] at stored

/-- A piece that ends inside the ring or at its very end comes right behind the window. -/
theorem RbSt.Ok.copyBlock (buffer : Mem UInt8) (ok : rb.Ok) (len : UInt32)
    (inside : rb.wp.toNat + len.toNat ≤ rb.capacity.toNat)
    (room : rb.filled + len.toNat ≤ rb.capacity.toNat) :
    Ring.contents (WriteOp.exec rb buffer (.copyBlock len)).address rb.capacity.toNat rb.rp.toNat
        (rb.filled + len.toNat) = rb.unread ++ buffer.read 0 len.toNat := by
  have behind : Ring.slot rb.capacity.toNat rb.rp.toNat rb.filled = rb.wp.toNat :=
    Ring.slot_span _ _ _ ok.rp_le ok.wp_lt
  exact Copy.apply_behind (Copy.mk rb.wp 0 len) rb.address _ _ _ ok.rp_le behind inside room

/-- `rb->wp += n` behind a block that ends inside the ring. -/
theorem RbSt.EndsInside.addWp {n : UInt32} (fits : rb.EndsInside n.toNat) :
    RbSt.filled { rb with wp := rb.wp + n } = rb.filled + n.toNat ∧
      RbSt.Between { rb with wp := rb.wp + n } := by
  obtain ⟨ok, inside, room⟩ := fits
  have bound := rb.capacity.toNat_lt
  have moved := toNat_add rb.wp n (by omega)
  have rpLe := ok.rp_le
  have filled : RbSt.filled { rb with wp := rb.wp + n } = rb.filled + n.toNat := by
    simp only [RbSt.filled, Ring.span, moved] at room ⊢
    split at room
    next ahead =>
      rw [if_pos (by omega), if_pos ahead]
      omega
    -- a write behind `rp` stops short of it
    next behind =>
      rw [if_neg (by omega), if_neg behind]
      omega
  refine ⟨filled, rpLe, ?_, ?_⟩
  · change (rb.wp + n).toNat < rb.capacity.toNat ∨ (rb.wp + n).toNat = 0 ∨
      (rb.wp + n).toNat = rb.capacity.toNat ∧ 0 < rb.rp.toNat
    rw [moved]
    by_cases atEnd : rb.wp.toNat + n.toNat = rb.capacity.toNat
    · -- the safety interval is behind the read pointer, so it has left the front
      right; right
      refine ⟨atEnd, ?_⟩
      simp only [RbSt.filled, Ring.span] at room
      split at room <;> omega
    · left
      omega
  · right
    rw [filled]
    exact room

/-- `rb->wp = v` in the middle of a block that passes the end. -/
theorem RbSt.Crosses.setWp {r v : UInt32} (crosses : rb.Crosses r.toNat v.toNat) :
    v.toNat < rb.rp.toNat ∧ RbSt.Ok { rb with wp := v } ∧
      RbSt.filled { rb with wp := v } - v.toNat = rb.filled + r.toNat := by
  obtain ⟨ok, tail, pos, room⟩ := crosses
  have rpLe := ok.rp_le
  simp only [RbSt.filled, Ring.span] at room ⊢
  split at room
  next ahead =>
    -- the room is counted over the end, so the front piece stops short of `rp`
    have behind : v.toNat < rb.rp.toNat := by omega
    have filled : Ring.span rb.capacity.toNat rb.rp.toNat v.toNat =
        rb.capacity.toNat - rb.rp.toNat + v.toNat := if_neg (by omega)
    refine ⟨behind, ⟨rpLe, Or.inl ?_, Or.inr ?_⟩, ?_⟩
    · change v.toNat < rb.capacity.toNat
      omega
    · change Ring.span rb.capacity.toNat rb.rp.toNat v.toNat + 4 ≤ rb.capacity.toNat
      omega
    · rw [if_neg (by omega), if_pos ahead]
      omega
  next behind => omega

/-- Where the test at the end of `rb_write` fails, `wp` is inside the ring. -/
theorem RbSt.Between.ok_of_not_wrap (between : rb.Between) (stays : ¬(rb.wp ≥ rb.capacity ∧ rb.rp ≠ 0)) :
    rb.Ok := by
  refine ⟨between.rp_le, ?_, between.gap⟩
  rcases between.wp_at with inside | front | ⟨stop, pos⟩
  · exact Or.inl inside
  · exact Or.inr front
  · have reached : rb.wp ≥ rb.capacity := UInt32.le_iff_toNat_le.mpr (Nat.le_of_eq stop.symm)
    exact absurd ⟨reached, (toNat_ne_zero _).mpr (Nat.ne_of_gt pos)⟩ stays

/-- `rb->wp = 0` instead of the very end: the window is the same. -/
theorem RbSt.Between.wrap (between : rb.Between) (atEnd : rb.wp.toNat = rb.capacity.toNat)
    (pos : 0 < rb.rp.toNat) :
    RbSt.filled { rb with wp := 0 } = rb.filled ∧ RbSt.Ok { rb with wp := 0 } := by
  have rpLe := between.rp_le
  have filled : RbSt.filled { rb with wp := 0 } = rb.filled := by
    simp only [RbSt.filled, Ring.span, atEnd, if_pos rpLe, UInt32.toNat_zero]
    rw [if_neg (by omega)]
    omega
  refine ⟨filled, rpLe, Or.inr rfl, ?_⟩
  have gap := between.gap
  rwa [← filled] at gap

/-- The copy to the front comes right behind the end of the ring. -/
theorem RbSt.Ok.copyFront (buffer : Mem UInt8) (ok : rb.Ok) (r : UInt32) (wrapped : rb.wp.toNat < rb.rp.toNat) :
    rb.filled - rb.wp.toNat + rb.wp.toNat = rb.filled ∧
      Ring.contents (WriteOp.exec rb buffer (.copyFront r)).address rb.capacity.toNat rb.rp.toNat
          (rb.filled - rb.wp.toNat + rb.wp.toNat) =
        Ring.contents rb.address rb.capacity.toNat rb.rp.toNat (rb.filled - rb.wp.toNat) ++
          buffer.read r.toNat rb.wp.toNat := by
  have rpLe := ok.rp_le
  have filled : rb.filled = rb.capacity.toNat - rb.rp.toNat + rb.wp.toNat := if_neg (by omega)
  have front : rb.filled - rb.wp.toNat = rb.capacity.toNat - rb.rp.toNat := by omega
  refine ⟨by omega, ?_⟩
  apply Copy.apply_behind (Copy.mk 0 r rb.wp) rb.address _ _ _ rpLe
  · rw [front]
    exact Ring.slot_tail _ _ rpLe
  · change 0 + rb.wp.toNat ≤ _
    omega
  · change rb.filled - rb.wp.toNat + rb.wp.toNat ≤ _
    omega

/-- What an operation copies it takes from the front of the rest, and puts behind what is copied. -/
theorem WriteStage.exec {op : WriteOp} {more : List WriteOp}
    (stage : WriteStage rb buffer (op :: more) copied rest) :
    ∃ rest', WriteStage (op.exec rb buffer) buffer (op.branch rb ++ more) (copied + op.copies rb) rest' ∧
      Ring.contents (op.exec rb buffer).address (op.exec rb buffer).capacity.toNat
          (op.exec rb buffer).rp.toNat (copied + op.copies rb) ++ rest' =
        Ring.contents rb.address rb.capacity.toNat rb.rp.toNat copied ++ rest := by
  cases stage with
  | copyBlock n fits =>
    refine ⟨[], .addWp n ⟨fits.ok, fits.inside, fits.room⟩, ?_⟩
    have room := fits.room
    rw [List.append_nil]
    exact fits.ok.copyBlock buffer n fits.inside (by omega)
  | addWp n fits =>
    obtain ⟨filled, between⟩ := fits.addWp
    have stage : WriteStage { rb with wp := rb.wp + n } buffer [.testWp] _ [] := .testWp between
    rw [filled] at stage
    exact ⟨[], stage, rfl⟩
  | testWp between =>
    refine ⟨[], ?_, rfl⟩
    by_cases atEnd : rb.wp ≥ rb.capacity ∧ rb.rp ≠ 0
    · have stop : rb.wp.toNat = rb.capacity.toNat :=
        Nat.le_antisymm between.wp_le (UInt32.le_iff_toNat_le.mp atEnd.1)
      simp only [WriteOp.branch, if_pos atEnd]
      exact .wrapWp between stop (Nat.pos_of_ne_zero ((toNat_ne_zero _).mp atEnd.2))
    · simp only [WriteOp.branch, if_neg atEnd]
      exact .idle (between.ok_of_not_wrap atEnd)
  | wrapWp between atEnd pos =>
    obtain ⟨filled, ok⟩ := between.wrap atEnd pos
    have stage : WriteStage { rb with wp := 0 } buffer [] _ [] := .idle ok
    rw [filled] at stage
    exact ⟨[], stage, rfl⟩
  | copyTail r v crosses =>
    have tail := crosses.tail
    have room := crosses.room
    refine ⟨buffer.read r.toNat v.toNat, .setWp r v ⟨crosses.ok, tail, crosses.pos, room⟩, ?_⟩
    have first := crosses.ok.copyBlock buffer r (Nat.le_of_eq tail) (by omega)
    have pieces := Mem.read_add buffer 0 r.toNat v.toNat
    rw [Nat.zero_add] at pieces
    rw [pieces, ← List.append_assoc]
    exact congrArg (· ++ buffer.read r.toNat v.toNat) first
  | setWp r v crosses =>
    obtain ⟨behind, ok, ahead⟩ := crosses.setWp
    have stage : WriteStage { rb with wp := v } buffer [.copyFront r, .testWp] _ _ :=
      .copyFront r ok crosses.pos behind
    rw [ahead] at stage
    exact ⟨_, stage, rfl⟩
  | copyFront r ok pos wrapped =>
    obtain ⟨whole, stored⟩ := ok.copyFront buffer r wrapped
    have stage : WriteStage (WriteOp.exec rb buffer (.copyFront r)) buffer [.testWp] rb.filled [] :=
      .testWp ⟨ok.rp_le, ok.between.wp_at, ok.gap⟩
    rw [← whole] at stage
    refine ⟨[], stage, ?_⟩
    rw [List.append_nil]
    exact stored

/-- `rb_write` starts with nothing of its block copied, or returns 0. -/
theorem rbWriteOps_stage (ok : rb.Ok) (n : UInt32) (small : n.toNat + 4 < 2 ^ 32) :
    WriteStage rb buffer (rbWriteOps rb n) rb.filled
      (if rbWriteOps rb n = [] then [] else buffer.read 0 n.toNat) := by
  have rpLe := ok.rp_le
  have wpLe := ok.wp_le
  have bound := rb.capacity.toNat_lt
  have gap : (n + rwpSafeInterval).toNat = n.toNat + 4 := toNat_add n _ small
  have refused : WriteStage rb buffer [] rb.filled [] := .idle ok
  unfold rbWriteOps
  by_cases none : n = 0
  · rw [if_pos none]
    exact refused
  rw [if_neg none]
  simp only [ge_iff_le, UInt32.le_iff_toNat_le, gap]
  by_cases ahead : rb.rp.toNat ≤ rb.wp.toNat
  · have filled : rb.filled = rb.wp.toNat - rb.rp.toNat := if_pos ahead
    have tail := toNat_sub rb.capacity rb.wp wpLe
    have free := toNat_add (rb.capacity - rb.wp) rb.rp (by omega)
    rw [if_pos ahead]
    by_cases room : n.toNat + 4 ≤ (rb.capacity - rb.wp + rb.rp).toNat
    · rw [if_pos room]
      by_cases fits : n.toNat ≤ (rb.capacity - rb.wp).toNat
      · rw [if_pos fits]
        exact .copyBlock n ⟨ok, by omega, by omega⟩
      · -- the block passes the end
        have second := toNat_sub n (rb.capacity - rb.wp) (by omega)
        have stage : WriteStage rb buffer _ _ _ :=
          .copyTail (rb.capacity - rb.wp) (n - (rb.capacity - rb.wp)) ⟨ok, by omega, by omega, by omega⟩
        have whole : (rb.capacity - rb.wp).toNat + (n - (rb.capacity - rb.wp)).toNat = n.toNat := by
          omega
        rw [whole] at stage
        rw [if_neg fits]
        exact stage
    · rw [if_neg room]
      exact refused
  · have filled : rb.filled = rb.capacity.toNat - rb.rp.toNat + rb.wp.toNat := if_neg ahead
    have free := toNat_sub rb.rp rb.wp (by omega)
    rw [if_neg ahead]
    by_cases room : n.toNat + 4 ≤ (rb.rp - rb.wp).toNat
    · rw [if_pos room]
      exact .copyBlock n ⟨ok, by omega, by omega⟩
    · rw [if_neg room]
      exact refused

end

/-! ### Runs -/

namespace Playback

/-- What was delivered, then what is copied and was not read, then the rest of the block under way: this
is the stream. -/
def Streams (s : Playback) : Prop :=
  ∃ n rest, WriteStage s.rb s.buffer s.pending n rest ∧
    s.delivered ++ Ring.contents s.rb.address s.rb.capacity.toNat s.rb.rp.toNat n ++ rest = s.accepted ∧
    s.copied = s.delivered.length + n

theorem start_streams (rb : RbSt) (ok : rb.Ok) : (start rb).Streams := by
  refine ⟨rb.filled, [], .idle ok, ?_, ?_⟩
  · simp [start, RbSt.unread]
  · simp [start]

variable {s : Playback}

theorem Streams.allCopied_iff (streams : s.Streams) : s.AllCopied ↔ s.beforeFrontCopy = false := by
  obtain ⟨n, rest, stage, -, copied⟩ := streams
  have window : s.AllCopied ↔ s.rb.filled ≤ n := by
    rw [AllCopied, copied]
    exact Nat.add_le_add_iff_left
  rw [window, stage.filled_le_iff]
  unfold beforeFrontCopy
  split
  next r more next => simp [next]
  next other => simpa using other

theorem Streams.unread_next (streams : s.Streams) (all : s.AllCopied) :
    s.delivered ++ s.rb.unread <+: s.accepted := by
  obtain ⟨n, rest, stage, stream, copied⟩ := streams
  have window : s.rb.filled ≤ n := by
    rw [AllCopied, copied] at all
    exact Nat.le_of_add_le_add_left all
  have unread := Ring.contents_take s.rb.address s.rb.capacity.toNat s.rb.rp.toNat n _ window
  rw [← stream, List.append_assoc]
  apply (List.prefix_append_right_inj _).mpr
  rw [RbSt.unread, ← unread]
  exact (List.take_prefix _ _).trans (List.prefix_append _ _)

theorem Streams.delivered_first (streams : s.Streams) : s.delivered <+: s.accepted := by
  obtain ⟨n, rest, -, stream, -⟩ := streams
  rw [← stream, List.append_assoc]
  exact List.prefix_append _ _

theorem Streams.write (streams : s.Streams) (buffer : Mem UInt8) (size count : UInt32)
    (small : (size * count).toNat + 4 < 2 ^ 32) : (s.step (.write buffer size count)).Streams := by
  by_cases idle : s.pending = []
  · obtain ⟨n, rest, stage, stream, copied⟩ := streams
    simp only [step, if_pos idle]
    rw [idle] at stage
    cases stage with
    | idle ok =>
      refine ⟨s.rb.filled, _, rbWriteOps_stage ok (size * count) small, ?_, copied⟩
      rw [← stream, List.append_nil]
  · simp only [step, if_neg idle]
    exact streams

theorem Streams.advance (streams : s.Streams) : (s.step .advance).Streams := by
  cases next : s.pending with
  | nil =>
    rw [advance_nil s next]
    exact streams
  | cons op more =>
    obtain ⟨n, rest, stage, stream, copied⟩ := streams
    rw [next] at stage
    obtain ⟨rest', stage', moved⟩ := stage.exec
    rw [advance_cons s op more next]
    refine ⟨_, rest', stage', ?_, ?_⟩
    · rw [List.append_assoc, moved, ← List.append_assoc, stream]
    · rw [copied]
      exact Nat.add_assoc _ _ _

theorem Streams.interrupt (streams : s.Streams) (all : s.AllCopied) (size count : UInt32) :
    (s.step (.interrupt size count)).Streams := by
  obtain ⟨n, rest, stage, stream, copied⟩ := streams
  have window : s.rb.filled ≤ n := by
    rw [AllCopied, copied] at all
    exact Nat.le_of_add_le_add_left all
  obtain ⟨rp', sample, k, call, within, stage', taken⟩ := stage.read window (fun _ => 0) size count
  simp only [step, call]
  refine ⟨n - k.toNat, rest, stage', ?_, ?_⟩
  · rw [← stream, taken, List.append_assoc, List.append_assoc, List.append_assoc, List.append_assoc]
  · change s.copied = _
    rw [copied, List.length_append, Mem.length_read]
    omega

theorem Streams.step (streams : s.Streams) (e : PlaybackEvent) (small : e.Small)
    (covered : e.isInterrupt → s.beforeFrontCopy = false) : (s.step e).Streams := by
  cases e with
  | write buffer size count => exact streams.write buffer size count small
  | advance => exact streams.advance
  | interrupt size count =>
    exact streams.interrupt (streams.allCopied_iff.mpr (covered rfl)) size count

end Playback

/-- The reads of the interrupt follow the copies exactly in the runs where no interrupt arrives between
the update of `wp` and the second copy of a block that passes the end of the ring. -/
theorem in_order_iff (rb : RbSt) (ok : rb.Ok) (events : List PlaybackEvent)
    (small : ∀ e ∈ events, e.Small) :
    (Playback.start rb).InOrder events ↔
      Along Playback.step (fun s e => e.isInterrupt → s.beforeFrontCopy = false)
        (Playback.start rb) events := by
  have initial := Playback.start_streams rb ok
  -- on the states of a run so far in order the two conditions are the same
  have each : ∀ (s : Playback) (e : PlaybackEvent), s.Streams →
      ((e.isInterrupt → s.beforeFrontCopy = false) ↔
        (e.isInterrupt → s.AllCopied ∧ s.delivered ++ s.rb.unread <+: s.accepted)) := by
    intro s e streams
    rw [← streams.allCopied_iff]
    constructor
    · intro all interrupt
      exact ⟨all interrupt, streams.unread_next (all interrupt)⟩
    · intro both interrupt
      exact (both interrupt).1
  have same := along_congr each (fun s e streams fits covered => streams.step e fits covered) initial small
  constructor
  · intro inOrder
    exact same.mpr inOrder.copied
  · intro covered
    refine ⟨same.mp covered, fun part inside => ?_⟩
    obtain ⟨later, rfl⟩ := inside
    -- each part of the run is a run that is in order
    have fits := along_of_forall Playback.step (Playback.start rb) fun e member =>
      small e (List.mem_append_left later member)
    have before := ((along_append part later).mp covered).1
    apply Playback.Streams.delivered_first
    exact (fits.and before).invariant (fun s e streams both => streams.step e both.1 both.2) initial

/-- Ten bytes in, eight out, and ten more across the end of a ring of sixteen, with interrupts before
the block, behind its first copy and behind its second. -/
theorem in_order_around_the_copies :
    (Playback.start (rbInit (fun _ => 0) 16)).InOrder
      [.write (fun i => i.toUInt8) 10 1, .advance, .advance, .advance, .interrupt 2 2, .interrupt 2 2,
        .write (fun i => (i + 10).toUInt8) 10 1, .advance, .interrupt 2 1, .advance, .advance,
        .interrupt 2 2, .interrupt 2 2] :=
  (in_order_iff (rbInit (fun _ => 0) 16) (rbInit_ok _ _).1 _ (by decide)).mpr (by decide)

/-- The interrupt that comes right after `wp` was moved to the front reads four bytes there that are still
those of the block before. -/
theorem in_order_fails :
    ¬(Playback.start (rbInit (fun _ => 0) 16)).InOrder
      [.write (fun i => i.toUInt8) 10 1, .advance, .advance, .advance, .interrupt 2 2, .interrupt 2 2,
        .write (fun i => (i + 10).toUInt8) 10 1, .advance, .advance,
        .interrupt 2 2, .interrupt 2 2, .interrupt 2 2] := by
  intro inOrder
  exact absurd (inOrder.delivered _ List.prefix_rfl) (by decide)

end Bk7251.Audio
