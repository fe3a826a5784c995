import Bk7251.Audio.RingBuffer
import Bk7251.Lib.Fifo

/-!
# The audio ring buffer is a bounded FIFO

The unread bytes are the window from `rp` to `wp`. Every operation acts on that window
as the bounded FIFO of `capacity - RWP_SAFE_INTERVAL` bytes acts on its queue, through
any number of wraps.
-/
namespace Bk7251.Audio

open Lib

/-- How many bytes were written and not read yet. -/
def RbSt.filled (rb : RbSt) : Nat := Ring.span rb.capacity.toNat rb.rp.toNat rb.wp.toNat

/-- The bytes written and not read yet, oldest first. -/
def RbSt.unread (rb : RbSt) : List UInt8 :=
  Ring.contents rb.address rb.capacity.toNat rb.rp.toNat rb.filled

def RbSt.Ok (rb : RbSt) : Prop := PointersOk rb.capacity.toNat rb.rp.toNat rb.wp.toNat

@[simp] theorem length_unread (rb : RbSt) : rb.unread.length = rb.filled := by
  simp [RbSt.unread]

theorem rbInit_ok (addr : Mem UInt8) (capacity : UInt32) :
    (rbInit addr capacity).Ok ∧ (rbInit addr capacity).unread = [] :=
  ⟨PointersOk.empty _, rfl⟩

theorem rbGetFillSize_eq (rb : RbSt) (ok : rb.Ok) : (rbGetFillSize rb).toNat = rb.filled := by
  obtain ⟨rpLe, wpLt, -⟩ := ok
  have bound := rb.capacity.toNat_lt
  simp only [rbGetFillSize, RbSt.filled, Ring.span, ge_iff_le, UInt32.le_iff_toNat_le]
  split
  · exact toNat_sub rb.wp rb.rp (by omega)
  · have tail := toNat_sub rb.capacity rb.rp rpLe
    rw [toNat_add _ _ (by omega), tail]

theorem rbGetFreeSize_eq (rb : RbSt) (ok : rb.Ok) :
    (rbGetFreeSize rb).toNat = rb.capacity.toNat - 4 - rb.filled := by
  obtain ⟨rpLe, wpLt, -⟩ := ok
  have bound := rb.capacity.toNat_lt
  have interval : rwpSafeInterval.toNat = 4 := rfl
  have free : (if rb.wp ≥ rb.rp then rb.capacity - rb.wp + rb.rp else rb.rp - rb.wp).toNat =
      rb.capacity.toNat - rb.filled := by
    simp only [RbSt.filled, Ring.span, ge_iff_le, UInt32.le_iff_toNat_le]
    split
    · have tail := toNat_sub rb.capacity rb.wp (by omega)
      rw [toNat_add _ _ (by omega), tail]
      omega
    · rw [toNat_sub _ _ (by omega)]
      omega
  simp only [rbGetFreeSize]
  generalize (if rb.wp ≥ rb.rp then rb.capacity - rb.wp + rb.rp else rb.rp - rb.wp) = size at *
  simp only [gt_iff_lt, UInt32.lt_iff_toNat_lt, interval]
  split
  · rw [toNat_sub _ _ (by omega)]
    omega
  · change 0 = _
    omega

/-- `rb_read` hands out the oldest bytes of the window and moves `rp` behind them, also while the write
pointer stands at the very end of the ring. -/
theorem rbRead_window (rb : RbSt) (rpLe : rb.rp.toNat ≤ rb.capacity.toNat)
    (wpLe : rb.wp.toNat ≤ rb.capacity.toNat) (buffer : Mem UInt8) (size count : UInt32) :
    ∃ rp' buffer' k, rbRead rb buffer size count = ({ rb with rp := rp' }, buffer', k) ∧
      k.toNat = min (size * count).toNat rb.filled ∧
      buffer'.read 0 k.toNat = rb.unread.take k.toNat ∧
      (∀ x, k.toNat ≤ x → buffer' x = buffer x) ∧
      rp'.toNat ≤ rb.capacity.toNat ∧
      Ring.span rb.capacity.toNat rp'.toNat rb.wp.toNat = rb.filled - k.toNat ∧
      ∀ n ≤ rb.capacity.toNat, Ring.contents rb.address rb.capacity.toNat rp'.toNat n =
        Ring.contents rb.address rb.capacity.toNat
          (Ring.slot rb.capacity.toNat rb.rp.toNat k.toNat) n := by
  have full : rb.filled ≤ rb.capacity.toNat := Ring.span_le _ _ _ rpLe wpLe
  by_cases none : size * count = 0
  · refine ⟨rb.rp, buffer, 0, by simp [rbRead, none], by simp [none], by simp, fun _ _ => rfl, rpLe,
      rfl, fun n small => ?_⟩
    -- nothing is read, and the very end counts as the front
    rcases Nat.lt_or_eq_of_le rpLe with inside | atEnd
    · rw [UInt32.toNat_zero, Ring.slot_zero _ _ inside]
    · have front : Ring.slot rb.capacity.toNat rb.rp.toNat 0 = 0 := by simp [Ring.slot, atEnd]
      rw [UInt32.toNat_zero, front, atEnd]
      exact Ring.contents_end _ _ _ small
  · obtain ⟨copies, rp', k, plan, amount, split, left, stop⟩ :=
      readPlan_spec rb.capacity rb.wp rb.rp (size * count) rpLe wpLe
    have within : k.toNat ≤ rb.filled := by
      rw [amount]
      exact Nat.min_le_right _ _
    obtain ⟨loaded, frame⟩ := split.load rb.address buffer (by omega)
    refine ⟨rp', _, k, by simp [rbRead, none, plan], amount, ?_, frame, ?_, left, fun n small => ?_⟩
    · rw [loaded, RbSt.unread, Ring.contents_take _ _ _ _ _ within]
    · rcases stop with inside | ⟨atEnd, -⟩
      · rw [inside]
        unfold Ring.slot
        split <;> omega
      · exact atEnd ▸ Nat.le_refl _
    · -- at the end of the ring or at its front: the same bytes follow
      rcases stop with inside | ⟨atEnd, front⟩
      · rw [inside]
      · rw [front, atEnd]
        exact Ring.contents_end _ _ _ small

/-- `rb_read` hands out the oldest unread bytes, as many as there are or were asked for. -/
theorem rbRead_spec (rb : RbSt) (ok : rb.Ok) (buffer : Mem UInt8) (size count : UInt32) :
    ∃ rb' buffer' k, rbRead rb buffer size count = (rb', buffer', k) ∧ rb'.Ok ∧
      k.toNat = min (size * count).toNat rb.filled ∧
      buffer'.read 0 k.toNat = rb.unread.take k.toNat ∧
      (∀ x, k.toNat ≤ x → buffer' x = buffer x) ∧
      rb'.unread = rb.unread.drop k.toNat ∧
      rb'.capacity = rb.capacity ∧ rb'.address = rb.address := by
  obtain ⟨rp', buffer', k, call, amount, got, frame, rpLe, left, follows⟩ :=
    rbRead_window rb ok.rp_le ok.wp_le buffer size count
  have full : rb.filled ≤ rb.capacity.toNat := ok.span_le
  refine ⟨_, buffer', k, call, ⟨rpLe, ok.wp_lt, ?_⟩, amount, got, frame, ?_, rfl, rfl⟩
  · have gap := ok.gap
    rw [← RbSt.filled] at gap
    change Ring.span rb.capacity.toNat rp'.toNat rb.wp.toNat = 0 ∨
      Ring.span rb.capacity.toNat rp'.toNat rb.wp.toNat + 4 ≤ rb.capacity.toNat
    omega
  · have rest := Ring.contents_drop rb.address rb.capacity.toNat rb.rp.toNat rb.filled k.toNat
      ok.rp_le (by rw [amount]; exact Nat.min_le_right _ _) full
    rw [RbSt.unread, RbSt.filled, left, follows _ (by omega), RbSt.unread, rest]

/-- `rb_write` with room for the block appends all of it. -/
theorem rbWrite_stores (rb : RbSt) (ok : rb.Ok) (buffer : Mem UInt8) (size count : UInt32)
    (small : (size * count).toNat + 4 < 2 ^ 32)
    (room : (size * count).toNat ≤ rb.capacity.toNat - 4 - rb.filled) :
    ∃ rb', rbWrite rb buffer size count = (rb', size * count) ∧ rb'.Ok ∧
      rb'.unread = rb.unread ++ buffer.read 0 (size * count).toNat ∧
      rb'.capacity = rb.capacity ∧ ∀ x, rb.capacity.toNat ≤ x → rb'.address x = rb.address x := by
  by_cases none : size * count = 0
  · exact ⟨rb, by simp [rbWrite, none], ok, by simp [none], rfl, fun _ _ => rfl⟩
  · have pos := (toNat_ne_zero _).mp none
    obtain ⟨copies, wp', plan, split, stop⟩ := writePlan_room rb.capacity rb.wp rb.rp
      (size * count) ok small (by rw [← RbSt.filled]; omega)
    replace stop : (wrapWp rb.capacity rb.rp wp').toNat =
        Ring.slot rb.capacity.toNat rb.wp.toNat (size * count).toNat := by
      rcases stop with ⟨stop, inside⟩ | ⟨rfl, front, pos, -⟩
      · rw [wrapWp_inside _ _ _ inside, stop]
      · rw [wrapWp_end _ _ _ rfl pos, front]
        rfl
    have behind := Ring.slot_span rb.capacity.toNat rb.rp.toNat rb.wp.toNat ok.rp_le ok.wp_lt
    obtain ⟨stored, frame⟩ := split.store rb.address buffer rb.rp.toNat rb.filled ok.rp_le behind
      (by omega)
    -- the window grows by the block, wherever `wp` comes to rest
    have grown : Ring.span rb.capacity.toNat rb.rp.toNat (wrapWp rb.capacity rb.rp wp').toNat =
        rb.filled + (size * count).toNat := by
      rw [stop]
      exact Ring.span_slot_right _ _ _ _ ok.rp_le (by rw [← RbSt.filled]; omega)
    have call : rbWrite rb buffer size count = ({ rb with
        address := copies.foldl (fun a c => c.apply a buffer) rb.address
        wp := wrapWp rb.capacity rb.rp wp' }, size * count) := by
      simp only [rbWrite, none, plan, if_false]
    refine ⟨_, call, ⟨ok.rp_le, ?_, Or.inr ?_⟩, ?_, rfl, frame⟩
    · left
      rw [stop]
      exact Ring.slot_lt _ _ _ (by have := ok.wp_lt; omega) (by omega)
    · change Ring.span rb.capacity.toNat rb.rp.toNat (wrapWp rb.capacity rb.rp wp').toNat + 4 ≤
        rb.capacity.toNat
      omega
    · rw [RbSt.unread, RbSt.filled, grown]
      exact stored

/-- `rb_write` without room for the block changes nothing. -/
theorem rbWrite_refuses (rb : RbSt) (ok : rb.Ok) (buffer : Mem UInt8) (size count : UInt32)
    (small : (size * count).toNat + 4 < 2 ^ 32)
    (full : rb.capacity.toNat - 4 - rb.filled < (size * count).toNat) :
    rbWrite rb buffer size count = (rb, 0) := by
  have none : size * count ≠ 0 := (toNat_ne_zero _).mpr (by omega)
  have gap := ok.gap
  rw [← RbSt.filled] at gap
  have plan := writePlan_full rb.capacity rb.wp rb.rp (size * count) ok small
    (by rw [← RbSt.filled]; omega)
  simp only [rbWrite, none, plan, if_false]

/-! ### Runs -/

/-- One call on the buffer; `buffer` is the caller's memory from its pointer on. -/
inductive RbOp
  | write (buffer : Mem UInt8) (size count : UInt32)
  | read (buffer : Mem UInt8) (size count : UInt32)

/-- `size * count` before it is reduced to 32 bits. -/
def RbOp.bytes : RbOp → Nat
  | .write _ size count => size.toNat * count.toNat
  | .read _ size count => size.toNat * count.toNat

/-- What the call returns: a count, or the bytes that were read. -/
def rbStep (rb : RbSt) : RbOp → RbSt × Fifo.Out UInt8
  | .write buffer size count =>
    ((rbWrite rb buffer size count).1, .accepted (rbWrite rb buffer size count).2.toNat)
  | .read buffer size count =>
    let (rb', buffer', k) := rbRead rb buffer size count
    (rb', .delivered (buffer'.read 0 k.toNat))

/-- The call as an operation on the queue. -/
def RbOp.onQueue : RbOp → Fifo.Op UInt8
  | .write buffer size count => .push (buffer.read 0 (size.toNat * count.toNat))
  | .read _ size count => .pop (size.toNat * count.toNat)

/-- The queue that the buffer `rb` stands for, and what every run keeps. -/
structure Represents (addr : Mem UInt8) (capacity : UInt32) (rb : RbSt) (q : List UInt8) :
    Prop where
  ok : rb.Ok
  queue : rb.unread = q
  capacity_eq : rb.capacity = capacity
  frame : ∀ x, capacity.toNat ≤ x → rb.address x = addr x

theorem toNat_mul_small (size count : UInt32) (small : size.toNat * count.toNat < 2 ^ 32 - 4) :
    (size * count).toNat = size.toNat * count.toNat := by
  rw [UInt32.toNat_mul]
  exact Nat.mod_eq_of_lt (by omega)

theorem rbStep_simulates (addr : Mem UInt8) (capacity : UInt32) (rb : RbSt) (q : List UInt8)
    (op : RbOp) (rep : Represents addr capacity rb q) (small : op.bytes < 2 ^ 32 - 4) :
    Represents addr capacity (rbStep rb op).1
        (Fifo.step (capacity.toNat - 4) q op.onQueue).1 ∧
      (rbStep rb op).2 = (Fifo.step (capacity.toNat - 4) q op.onQueue).2 := by
  obtain ⟨ok, rfl, rfl, frame⟩ := rep
  cases op with
  | write buffer size count =>
    have product := toNat_mul_small size count small
    have bound : (size * count).toNat + 4 < 2 ^ 32 := by
      rw [product]
      simp only [RbOp.bytes] at small
      omega
    have gap := ok.gap
    rw [← RbSt.filled] at gap
    simp only [rbStep, RbOp.onQueue, Fifo.step, ← product]
    by_cases room : (size * count).toNat ≤ rb.capacity.toNat - 4 - rb.filled
    · obtain ⟨rb', call, ok', queue, cap, outside⟩ := rbWrite_stores rb ok buffer size count bound room
      rw [call, Fifo.push_fits _ _ _ (by simp; omega)]
      refine ⟨⟨ok', queue, cap, fun x hx => ?_⟩, by simp⟩
      rw [outside x hx, frame x hx]
    · rw [rbWrite_refuses rb ok buffer size count bound (by omega),
        Fifo.push_full _ _ _ (by simp; omega)]
      exact ⟨⟨ok, rfl, rfl, frame⟩, rfl⟩
  | read buffer size count =>
    have product := toNat_mul_small size count small
    obtain ⟨rb', buffer', k, call, ok', amount, got, -, queue, cap, same⟩ :=
      rbRead_spec rb ok buffer size count
    simp only [rbStep, RbOp.onQueue, Fifo.step, call, got, ← product]
    have drop : rb.unread.drop k.toNat = rb.unread.drop (size * count).toNat := by
      rw [amount, ← length_unread]
      rcases Nat.le_total (size * count).toNat rb.unread.length with le | ge
      · rw [Nat.min_eq_left le]
      · rw [Nat.min_eq_right ge, List.drop_length, List.drop_eq_nil_of_le ge]
    have take : rb.unread.take k.toNat = rb.unread.take (size * count).toNat := by
      rw [amount, ← length_unread, ← List.take_eq_take_min]
    refine ⟨⟨ok', by rw [queue, drop], cap, fun x hx => ?_⟩, by rw [take]⟩
    rw [same, frame x hx]

theorem rbRun_simulates (addr : Mem UInt8) (capacity : UInt32) (ops : List RbOp)
    (small : ∀ op ∈ ops, op.bytes < 2 ^ 32 - 4) :
    Represents addr capacity (Machine.run rbStep (rbInit addr capacity) ops).1
        (Machine.run (Fifo.step (capacity.toNat - 4)) [] (ops.map RbOp.onQueue)).1 ∧
      (Machine.run rbStep (rbInit addr capacity) ops).2 =
        (Machine.run (Fifo.step (capacity.toNat - 4)) [] (ops.map RbOp.onQueue)).2 := by
  obtain ⟨ok, queue⟩ := rbInit_ok addr capacity
  rw [Machine.run_map (Fifo.step (capacity.toNat - 4)) RbOp.onQueue]
  exact Machine.run_simulates rbStep
    (fun q op => Fifo.step (capacity.toNat - 4) q op.onQueue) (Represents addr capacity)
    (fun op => op.bytes < 2 ^ 32 - 4) (rbStep_simulates addr capacity)
    (rbInit addr capacity) [] ops ⟨ok, queue, rfl, fun _ _ => rfl⟩ small

/-- What the reads of a run delivered, followed by what is still in the buffer, is what its writes
stored. -/
theorem rbRun_conserves (addr : Mem UInt8) (capacity : UInt32) (ops : List RbOp)
    (small : ∀ op ∈ ops, op.bytes < 2 ^ 32 - 4) :
    let run := Machine.run rbStep (rbInit addr capacity) ops
    (run.2.map Fifo.Out.received).flatten ++ run.1.unread =
      (((ops.map RbOp.onQueue).zip run.2).map fun p => p.1.stored p.2).flatten := by
  intro run
  obtain ⟨rep, outs⟩ := rbRun_simulates addr capacity ops small
  have conserved := Fifo.run_conserves (capacity.toNat - 4) [] (ops.map RbOp.onQueue)
  rwa [List.nil_append, ← rep.queue, ← outs] at conserved

/-- Every run of calls answers as the bounded FIFO does. In the state it reaches, the fill
and free sizes are the queue's, both pointers are inside the buffer, nothing outside the
buffer was touched, and a block is stored whole exactly when it is at most the free size. -/
theorem rb_refines_fifo (addr : Mem UInt8) (capacity : UInt32) (ops : List RbOp)
    (small : ∀ op ∈ ops, op.bytes < 2 ^ 32 - 4) :
    let rb := (Machine.run rbStep (rbInit addr capacity) ops).1
    let fifo := Machine.run (Fifo.step (capacity.toNat - 4)) [] (ops.map RbOp.onQueue)
    (Machine.run rbStep (rbInit addr capacity) ops).2 = fifo.2 ∧
      rb.unread = fifo.1 ∧
      (rbGetFillSize rb).toNat = fifo.1.length ∧
      (rbGetFreeSize rb).toNat = capacity.toNat - 4 - fifo.1.length ∧
      rb.wp ≤ capacity ∧ rb.rp ≤ capacity ∧
      (∀ x, capacity.toNat ≤ x → rb.address x = addr x) ∧
      ∀ buffer size count, size.toNat * count.toNat < 2 ^ 32 - 4 →
        (size.toNat * count.toNat ≤ (rbGetFreeSize rb).toNat →
          (rbWrite rb buffer size count).2.toNat = size.toNat * count.toNat ∧
          (rbWrite rb buffer size count).1.unread =
            rb.unread ++ buffer.read 0 (size.toNat * count.toNat)) ∧
        ((rbGetFreeSize rb).toNat < size.toNat * count.toNat →
          rbWrite rb buffer size count = (rb, 0)) := by
  intro rb fifo
  obtain ⟨rep, outs⟩ := rbRun_simulates addr capacity ops small
  have length : rb.filled = fifo.1.length := by rw [← rep.queue, length_unread]
  have cap : rb.capacity = capacity := rep.capacity_eq
  have free : (rbGetFreeSize rb).toNat = capacity.toNat - 4 - fifo.1.length := by
    rw [rbGetFreeSize_eq rb rep.ok, cap, length]
  refine ⟨outs, rep.queue, ?_, free, ?_, ?_, rep.frame, ?_⟩
  · rw [rbGetFillSize_eq rb rep.ok, length]
  · have wpLt : rb.wp.toNat < rb.capacity.toNat ∨ rb.wp.toNat = 0 := rep.ok.wp_lt
    rw [cap] at wpLt
    exact UInt32.le_iff_toNat_le.mpr (by omega)
  · have rpLe : rb.rp.toNat ≤ rb.capacity.toNat := rep.ok.rp_le
    rw [cap] at rpLe
    exact UInt32.le_iff_toNat_le.mpr rpLe
  · intro buffer size count small
    have product := toNat_mul_small size count small
    rw [← product, rbGetFreeSize_eq rb rep.ok]
    constructor
    · intro room
      obtain ⟨rb', call, -, queue, -, -⟩ :=
        rbWrite_stores rb rep.ok buffer size count (by omega) room
      rw [call]
      exact ⟨rfl, queue⟩
    · exact rbWrite_refuses rb rep.ok buffer size count (by omega)

/-- Ten bytes in, eight out, ten more in across the end of a buffer of sixteen, all out. -/
theorem rb_refines_fifo_across_the_end :
    (Machine.run rbStep (rbInit (fun _ => 0) 16)
      [.write (fun i => i.toUInt8) 5 2, .read (fun _ => 0) 8 1, .write (fun i => i.toUInt8) 10 1,
        .write (fun _ => 7) 1 1, .read (fun _ => 0) 3 5]).2 =
      [.accepted 10, .delivered [0, 1, 2, 3, 4, 5, 6, 7], .accepted 10, .accepted 0,
        .delivered [8, 9, 0, 1, 2, 3, 4, 5, 6, 7, 8, 9]] :=
  (rb_refines_fifo (fun _ => 0) 16
    [.write (fun i => i.toUInt8) 5 2, .read (fun _ => 0) 8 1, .write (fun i => i.toUInt8) 10 1,
      .write (fun _ => 7) 1 1, .read (fun _ => 0) 3 5] (by decide)).1.trans (by decide)

end Bk7251.Audio
