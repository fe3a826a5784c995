import Bk7251.Lib.Ring
import Bk7251.Lib.Bytes
import Bk7251.Lib.Fifo
import Mathlib.Data.Nat.Bitwise

/-!
# The byte FIFO of the drivers

`common/fifo.h`. The counters `in` and `out` run freely over 32 bits; the place in the
buffer is a counter masked with `size - 1`, so the size has to be a power of two.
-/
namespace Bk7251.Common

open Lib

/-- `KFIFO_T`; `buffer` is memory as seen from the buffer's first byte. -/
structure Kfifo where
  in_ : UInt32
  out : UInt32
  mask : UInt32
  size : UInt32
  buffer : Mem UInt8

/-- `none` where `BUG_ON` stops or there is no memory for the struct. -/
def kfifoInit (malloc : Bool) (buffer : Mem UInt8) (size : UInt32) : Option Kfifo :=
  if size &&& (size - 1) ≠ 0 then none
  else if malloc then some ⟨0, 0, size - 1, size, buffer⟩
  else none

/-- The struct and the number of bytes taken from the caller's buffer. -/
def kfifoPut (fifo : Kfifo) (buffer : Mem UInt8) (len : UInt32) : Kfifo × UInt32 :=
  let len := min32 len (fifo.size - fifo.in_ + fifo.out)
  let off := fifo.in_ &&& (fifo.size - 1)
  let l := min32 len (fifo.size - off)
  let first := fifo.buffer.copy off.toNat buffer 0 l.toNat
  ({ fifo with
      buffer := first.copy 0 buffer l.toNat (len - l).toNat
      in_ := fifo.in_ + len }, len)

/-- The struct, the caller's buffer and the number of bytes stored there. -/
def kfifoGet (fifo : Kfifo) (buffer : Mem UInt8) (len : UInt32) : Kfifo × Mem UInt8 × UInt32 :=
  let len := min32 len (fifo.in_ - fifo.out)
  let off := fifo.out &&& (fifo.size - 1)
  let l := min32 len (fifo.size - off)
  let first := buffer.copy 0 fifo.buffer off.toNat l.toNat
  ({ fifo with out := fifo.out + len },
    first.copy l.toNat fifo.buffer 0 (len - l).toNat, len)

def kfifoDataSize (fifo : Kfifo) : UInt32 := fifo.in_ - fifo.out

def kfifoUnused (fifo : Kfifo) : UInt32 := fifo.mask + 1 - (fifo.in_ - fifo.out)

def kfifoCopyOut (fifo : Kfifo) (dst : Mem UInt8) (len off : UInt32) : Mem UInt8 :=
  let size := fifo.mask + 1
  let off := off &&& fifo.mask
  let l := min32 len (size - off)
  let first := dst.copy 0 fifo.buffer off.toNat l.toNat
  first.copy l.toNat fifo.buffer 0 (len - l).toNat

/-- The caller's buffer and the number of bytes stored there; the struct is only read. -/
def kfifoOutPeek (fifo : Kfifo) (buffer : Mem UInt8) (len : UInt32) : Mem UInt8 × UInt32 :=
  let l := fifo.in_ - fifo.out
  let len := if len > l then l else len
  (kfifoCopyOut fifo buffer len fifo.out, len)

/-! ### The queue in the buffer -/

namespace Kfifo

/-- How many bytes are unread; the counters may have wrapped. -/
def filled (fifo : Kfifo) : Nat := (fifo.in_ - fifo.out).toNat

/-- The place of the oldest unread byte. -/
def place (fifo : Kfifo) : Nat := fifo.out.toNat % fifo.size.toNat

def unread (fifo : Kfifo) : List UInt8 :=
  Ring.contents fifo.buffer fifo.size.toNat fifo.place fifo.filled

/-- What every run keeps. -/
structure Ok (fifo : Kfifo) : Prop where
  pow : ∃ k, fifo.size.toNat = 2 ^ k
  mask_eq : fifo.mask = fifo.size - 1
  low : fifo.filled ≤ fifo.size.toNat

@[simp] theorem length_unread (fifo : Kfifo) : fifo.unread.length = fifo.filled :=
  Ring.length_contents _ _ _ _

theorem Ok.pos {fifo : Kfifo} (ok : fifo.Ok) : 0 < fifo.size.toNat := by
  obtain ⟨k, size⟩ := ok.pow
  rw [size]
  exact Nat.two_pow_pos k

theorem Ok.place_lt {fifo : Kfifo} (ok : fifo.Ok) : fifo.place < fifo.size.toNat :=
  Nat.mod_lt _ ok.pos

end Kfifo

/-- Masking with `size - 1` is reducing by a size that is a power of two. -/
theorem toNat_masked {size : UInt32} (pow : ∃ k, size.toNat = 2 ^ k) (x : UInt32) :
    (x &&& (size - 1)).toNat = x.toNat % size.toNat := by
  obtain ⟨k, power⟩ := pow
  have pos := Nat.two_pow_pos k
  have less : (size - 1).toNat = 2 ^ k - 1 := by
    rw [toNat_sub _ _ (by rw [power]; exact pos), power]
    rfl
  rw [UInt32.toNat_and, less, Nat.and_two_pow_sub_one_eq_mod, power]

/-- A power of two below 2^32 divides it, so reducing sees through the wrap of a counter. -/
theorem toNat_add_mod {size : UInt32} (pow : ∃ k, size.toNat = 2 ^ k) (x y : UInt32) :
    (x + y).toNat % size.toNat = (x.toNat % size.toNat + y.toNat) % size.toNat := by
  obtain ⟨k, power⟩ := pow
  have bound : 2 ^ k < 2 ^ 32 := power ▸ size.toNat_lt
  have small : k ≤ 32 := Nat.le_of_lt ((Nat.pow_lt_pow_iff_right (by decide)).mp bound)
  rw [UInt32.toNat_add, power, Nat.mod_mod_of_dvd _ (Nat.pow_dvd_pow 2 small), Nat.mod_add_mod]

namespace Kfifo

variable {fifo : Kfifo}

/-- The place behind the newest unread byte. -/
theorem Ok.slot_filled (ok : fifo.Ok) :
    Ring.slot fifo.size.toNat fifo.place fifo.filled = fifo.in_.toNat % fifo.size.toNat := by
  have counter : fifo.out + (fifo.in_ - fifo.out) = fifo.in_ := by grind
  rw [Ring.slot_eq_mod _ _ _ ok.place_lt ok.low, place, filled, ← toNat_add_mod ok.pow, counter]

theorem Ok.toNat_room (ok : fifo.Ok) :
    (fifo.size - fifo.in_ + fifo.out).toNat = fifo.size.toNat - fifo.filled := by
  have room : fifo.size - fifo.in_ + fifo.out = fifo.size - (fifo.in_ - fifo.out) := by grind
  rw [room, toNat_sub _ _ ok.low, filled]

end Kfifo

theorem kfifoInit_ok (buffer : Mem UInt8) {size : UInt32} (pow : ∃ k, size.toNat = 2 ^ k) :
    kfifoInit true buffer size = some ⟨0, 0, size - 1, size, buffer⟩ ∧
      (⟨0, 0, size - 1, size, buffer⟩ : Kfifo).Ok ∧
      (⟨0, 0, size - 1, size, buffer⟩ : Kfifo).unread = [] := by
  have masked : size &&& (size - 1) = 0 := by
    apply UInt32.toNat_inj.mp
    rw [toNat_masked pow, Nat.mod_self]
    rfl
  exact ⟨by simp [kfifoInit, masked], ⟨pow, rfl, by simp [Kfifo.filled]⟩,
    by simp [Kfifo.unread, Kfifo.filled]⟩

/-- `kfifo_put` appends what fits. -/
theorem kfifoPut_spec {fifo : Kfifo} (ok : fifo.Ok) (buffer : Mem UInt8) (len : UInt32) :
    ∃ fifo' n, kfifoPut fifo buffer len = (fifo', n) ∧ fifo'.Ok ∧ fifo'.size = fifo.size ∧
      n.toNat = min len.toNat (fifo.size.toNat - fifo.filled) ∧
      fifo'.unread = fifo.unread ++ buffer.read 0 n.toNat ∧
      ∀ x, fifo.size.toNat ≤ x → fifo'.buffer x = fifo.buffer x := by
  have low := ok.low
  have bound := fifo.size.toNat_lt
  refine ⟨_, _, rfl, ?_⟩
  generalize taken : min32 len (fifo.size - fifo.in_ + fifo.out) = n
  have amount : n.toNat = min len.toNat (fifo.size.toNat - fifo.filled) := by
    rw [← taken, toNat_min32, ok.toNat_room]
  have start := toNat_masked ok.pow fifo.in_
  have inside : fifo.in_.toNat % fifo.size.toNat < fifo.size.toNat := Nat.mod_lt _ ok.pos
  -- the first copy goes up to the end of the buffer, the second from its beginning on
  have tail : (fifo.size - (fifo.in_ &&& (fifo.size - 1))).toNat =
      fifo.size.toNat - fifo.in_.toNat % fifo.size.toNat := by
    rw [toNat_sub _ _ (by omega), start]
  have first : (min32 n (fifo.size - (fifo.in_ &&& (fifo.size - 1)))).toNat =
      min n.toNat (fifo.size.toNat - fifo.in_.toNat % fifo.size.toNat) := by
    rw [toNat_min32, tail]
  have second : (n - min32 n (fifo.size - (fifo.in_ &&& (fifo.size - 1)))).toNat =
      n.toNat - min n.toNat (fifo.size.toNat - fifo.in_.toNat % fifo.size.toNat) := by
    rw [toNat_sub _ _ (by omega), first]
  -- the counters only ever grow, so their difference counts across the wrap too
  have counter : fifo.in_ + n - fifo.out = fifo.in_ - fifo.out + n := by grind
  have filled : (fifo.in_ + n - fifo.out).toNat = fifo.filled + n.toNat := by
    rw [counter, toNat_add _ _ (by rw [← Kfifo.filled]; omega), Kfifo.filled]
  simp only [start, first, second, Ring.copies_eq_store]
  refine ⟨⟨ok.pow, ok.mask_eq, ?_⟩, trivial, amount, ?_, ?_⟩
  · change (fifo.in_ + n - fifo.out).toNat ≤ fifo.size.toNat
    omega
  · have appended := Ring.contents_store fifo.buffer fifo.size.toNat fifo.place fifo.filled
      (buffer.read 0 n.toNat) (Nat.le_of_lt ok.place_lt) (by rw [Mem.length_read]; omega)
    rw [ok.slot_filled, Mem.length_read] at appended
    simp only [Kfifo.unread, Kfifo.place, Kfifo.filled, filled] at appended ⊢
    exact appended
  · intro x beyond
    exact Ring.store_frame _ _ _ _ _ (Nat.le_of_lt inside) (by rw [Mem.length_read]; omega) beyond

/-- `kfifo_get` delivers the oldest bytes and drops them. -/
theorem kfifoGet_spec {fifo : Kfifo} (ok : fifo.Ok) (buffer : Mem UInt8) (len : UInt32) :
    ∃ fifo' buffer' n, kfifoGet fifo buffer len = (fifo', buffer', n) ∧ fifo'.Ok ∧
      fifo'.size = fifo.size ∧ n.toNat = min len.toNat fifo.filled ∧
      buffer'.read 0 n.toNat = fifo.unread.take n.toNat ∧ (∀ x, n.toNat ≤ x → buffer' x = buffer x) ∧
      fifo'.unread = fifo.unread.drop n.toNat ∧ fifo'.buffer = fifo.buffer := by
  have low := ok.low
  refine ⟨_, _, _, rfl, ?_⟩
  generalize taken : min32 len (fifo.in_ - fifo.out) = n
  have amount : n.toNat = min len.toNat fifo.filled := by
    rw [← taken, toNat_min32, Kfifo.filled]
  have start : (fifo.out &&& (fifo.size - 1)).toNat = fifo.place := toNat_masked ok.pow fifo.out
  have inside := ok.place_lt
  have tail : (fifo.size - (fifo.out &&& (fifo.size - 1))).toNat = fifo.size.toNat - fifo.place := by
    rw [toNat_sub _ _ (by omega), start]
  have first : (min32 n (fifo.size - (fifo.out &&& (fifo.size - 1)))).toNat =
      min n.toNat (fifo.size.toNat - fifo.place) := by
    rw [toNat_min32, tail]
  have second : (n - min32 n (fifo.size - (fifo.out &&& (fifo.size - 1)))).toNat =
      n.toNat - min n.toNat (fifo.size.toNat - fifo.place) := by
    rw [toNat_sub _ _ (by omega), first]
  obtain ⟨loaded, frame⟩ := Ring.read_write_load buffer fifo.buffer fifo.size.toNat fifo.place n.toNat
    (Nat.le_of_lt inside) (by omega)
  have counter : fifo.in_ - (fifo.out + n) = fifo.in_ - fifo.out - n := by grind
  have filled : (fifo.in_ - (fifo.out + n)).toNat = fifo.filled - n.toNat := by
    rw [counter, toNat_sub _ _ (by rw [← Kfifo.filled]; omega), Kfifo.filled]
  -- the masked counter moves on as the place in the ring does
  have place : (fifo.out + n).toNat % fifo.size.toNat =
      Ring.slot fifo.size.toNat fifo.place n.toNat := by
    rw [Ring.slot_eq_mod _ _ _ inside (by omega), toNat_add_mod ok.pow, Kfifo.place]
  simp only [start, first, second, Ring.copies_eq_load]
  refine ⟨⟨ok.pow, ok.mask_eq, ?_⟩, trivial, amount, ?_, frame, ?_, trivial⟩
  · change (fifo.in_ - (fifo.out + n)).toNat ≤ fifo.size.toNat
    omega
  · rw [loaded, Kfifo.unread, Ring.contents_take _ _ _ _ _ (by omega)]
  · rw [Kfifo.unread, Kfifo.unread, Ring.contents_drop _ _ _ _ _ (Nat.le_of_lt inside) (by omega) low]
    simp only [Kfifo.place, Kfifo.filled, filled, place]

/-- `kfifo_out_peek` stores what `kfifo_get` stores. -/
theorem kfifoOutPeek_eq {fifo : Kfifo} (ok : fifo.Ok) (buffer : Mem UInt8) (len : UInt32) :
    kfifoOutPeek fifo buffer len =
      ((kfifoGet fifo buffer len).2.1, (kfifoGet fifo buffer len).2.2) := by
  -- the copy that the peek calls takes its size from the mask
  have whole : fifo.mask + 1 = fifo.size := by
    rw [ok.mask_eq]
    grind
  have least : (if len > fifo.in_ - fifo.out then fifo.in_ - fifo.out else len) =
      min32 len (fifo.in_ - fifo.out) := by
    apply UInt32.toNat_inj.mp
    simp only [toNat_min32, gt_iff_lt, UInt32.lt_iff_toNat_lt]
    split <;> omega
  simp only [kfifoOutPeek, kfifoCopyOut, kfifoGet, least, whole]
  rw [ok.mask_eq]

theorem toNat_kfifoDataSize (fifo : Kfifo) : (kfifoDataSize fifo).toNat = fifo.filled := rfl

theorem toNat_kfifoUnused {fifo : Kfifo} (ok : fifo.Ok) :
    (kfifoUnused fifo).toNat = fifo.size.toNat - fifo.filled := by
  have whole : fifo.mask + 1 = fifo.size := by
    rw [ok.mask_eq]
    grind
  rw [kfifoUnused, whole, toNat_sub _ _ ok.low, Kfifo.filled]

/-! ### Runs -/

/-- One call; `buffer` is the caller's memory from its pointer on. -/
inductive KfifoOp
  | put (buffer : Mem UInt8) (len : UInt32)
  | get (buffer : Mem UInt8) (len : UInt32)
  | outPeek (buffer : Mem UInt8) (len : UInt32)
  | dataSize
  | unused

/-- What the call returns: a count, or the bytes it stored for the caller. -/
def kfifoStep (fifo : Kfifo) : KfifoOp → Kfifo × Fifo.Answer UInt8
  | .put buffer len => ((kfifoPut fifo buffer len).1, .taken (kfifoPut fifo buffer len).2.toNat)
  | .get buffer len =>
    let (fifo', buffer', n) := kfifoGet fifo buffer len
    (fifo', .bytes (buffer'.read 0 n.toNat))
  | .outPeek buffer len =>
    let (buffer', n) := kfifoOutPeek fifo buffer len
    (fifo, .bytes (buffer'.read 0 n.toNat))
  | .dataSize => (fifo, .size (kfifoDataSize fifo).toNat)
  | .unused => (fifo, .size (kfifoUnused fifo).toNat)

/-- The call as one on the queue. -/
def KfifoOp.onQueue : KfifoOp → Fifo.Call UInt8
  | .put buffer len => .put (buffer.read 0 len.toNat)
  | .get _ len => .get len.toNat
  | .outPeek _ len => .peek len.toNat
  | .dataSize => .used
  | .unused => .unused

/-- The queue the struct stands for. -/
structure Represents (size : UInt32) (fifo : Kfifo) (q : List UInt8) : Prop where
  ok : fifo.Ok
  queue : fifo.unread = q
  size_eq : fifo.size = size

private theorem take_min_length {q : List UInt8} {len n : Nat} (amount : n = min len q.length) :
    q.take n = q.take len ∧ q.drop n = q.drop len := by
  subst amount
  refine ⟨List.take_eq_take_min.symm, ?_⟩
  rcases Nat.le_total len q.length with low | high
  · rw [Nat.min_eq_left low]
  · rw [Nat.min_eq_right high, List.drop_length, List.drop_eq_nil_of_le high]

theorem kfifoStep_simulates (size : UInt32) (fifo : Kfifo) (q : List UInt8) (op : KfifoOp)
    (rep : Represents size fifo q) :
    Represents size (kfifoStep fifo op).1 (Fifo.serve size.toNat q op.onQueue).1 ∧
      (kfifoStep fifo op).2 = (Fifo.serve size.toNat q op.onQueue).2 := by
  obtain ⟨ok, rfl, rfl⟩ := rep
  have length := fifo.length_unread
  cases op with
  | put buffer len =>
    obtain ⟨fifo', n, call, ok', same, amount, appended, -⟩ := kfifoPut_spec ok buffer len
    -- what the queue has room for is what the call takes
    have cut : (buffer.read 0 len.toNat).take (fifo.size.toNat - fifo.unread.length) =
        buffer.read 0 n.toNat := by
      rw [Mem.take_read, length, amount]
    simp only [kfifoStep, KfifoOp.onQueue, Fifo.serve, call, cut, Mem.length_read]
    exact ⟨⟨ok', appended, same⟩, by rw [amount, length]⟩
  | get buffer len =>
    obtain ⟨fifo', buffer', n, call, ok', same, amount, got, -, dropped, -⟩ :=
      kfifoGet_spec ok buffer len
    obtain ⟨take, drop⟩ := take_min_length (amount.trans (by rw [length]))
    simp only [kfifoStep, KfifoOp.onQueue, Fifo.serve, call, got, ← take, ← drop]
    exact ⟨⟨ok', dropped, same⟩, trivial⟩
  | outPeek buffer len =>
    obtain ⟨fifo', buffer', n, call, -, -, amount, got, -, -, -⟩ := kfifoGet_spec ok buffer len
    obtain ⟨take, -⟩ := take_min_length (amount.trans (by rw [length]))
    simp only [kfifoStep, KfifoOp.onQueue, Fifo.serve, kfifoOutPeek_eq ok, call, got, ← take]
    exact ⟨⟨ok, rfl, rfl⟩, trivial⟩
  | dataSize =>
    simp only [kfifoStep, KfifoOp.onQueue, Fifo.serve, toNat_kfifoDataSize, length]
    exact ⟨⟨ok, rfl, rfl⟩, trivial⟩
  | unused =>
    simp only [kfifoStep, KfifoOp.onQueue, Fifo.serve, toNat_kfifoUnused ok, length]
    exact ⟨⟨ok, rfl, rfl⟩, trivial⟩

/-- Every run of calls answers as the queue does: no byte is lost or delivered twice, the two sizes
add up to the size of the buffer, and a peek returns what a get would. -/
theorem kfifo_refines_fifo (buffer : Mem UInt8) (size : UInt32) (pow : ∃ k, size.toNat = 2 ^ k)
    (ops : List KfifoOp) :
    ∃ fifo, kfifoInit true buffer size = some fifo ∧
      let run := Machine.run kfifoStep fifo ops
      let calls := (ops.map KfifoOp.onQueue).zip run.2
      run.2 = (Machine.run (Fifo.serve size.toNat) [] (ops.map KfifoOp.onQueue)).2 ∧
        (calls.map fun p => p.1.removed p.2).flatten ++ run.1.unread =
          (calls.map fun p => p.1.stored p.2).flatten ∧
        (kfifoDataSize run.1).toNat = run.1.unread.length ∧
        (kfifoDataSize run.1).toNat + (kfifoUnused run.1).toNat = size.toNat ∧
        ∀ dst len, kfifoOutPeek run.1 dst len =
          ((kfifoGet run.1 dst len).2.1, (kfifoGet run.1 dst len).2.2) := by
  obtain ⟨made, ok, empty⟩ := kfifoInit_ok buffer pow
  refine ⟨_, made, ?_⟩
  intro run calls
  obtain ⟨rep, outs⟩ := Machine.run_simulates kfifoStep
    (fun q op => Fifo.serve size.toNat q op.onQueue) (Represents size) (fun _ => True)
    (fun fifo q op rep _ => kfifoStep_simulates size fifo q op rep) _ [] ops ⟨ok, empty, rfl⟩
    (fun _ _ => trivial)
  rw [← Machine.run_map (Fifo.serve size.toNat) KfifoOp.onQueue] at rep outs
  have conserved := Fifo.serve_run_conserves size.toNat [] (ops.map KfifoOp.onQueue)
  rw [List.nil_append, ← rep.queue, ← outs] at conserved
  have low : run.1.filled ≤ size.toNat := rep.size_eq ▸ rep.ok.low
  refine ⟨outs, conserved, ?_, ?_, kfifoOutPeek_eq rep.ok⟩
  · rw [toNat_kfifoDataSize, Kfifo.length_unread]
  · rw [toNat_kfifoDataSize, toNat_kfifoUnused rep.ok, rep.size_eq]
    exact Nat.add_sub_cancel' low

/-- A buffer of four bytes: three in, two out, three in across the end, a look, all out. -/
theorem kfifo_refines_fifo_four :
    ∃ fifo, kfifoInit true (fun _ => 0) 4 = some fifo ∧
      (Machine.run kfifoStep fifo
        [.put (fun i => i.toUInt8) 3, .get (fun _ => 0) 2, .put (fun i => i.toUInt8 + 3) 5, .unused,
          .outPeek (fun _ => 0) 2, .get (fun _ => 0) 9]).2 =
        [.taken 3, .bytes [0, 1], .taken 3, .size 0, .bytes [2, 3], .bytes [2, 3, 4, 5]] := by
  obtain ⟨fifo, made, outs, -⟩ := kfifo_refines_fifo (fun _ => 0) 4 ⟨2, rfl⟩
    [.put (fun i => i.toUInt8) 3, .get (fun _ => 0) 2, .put (fun i => i.toUInt8 + 3) 5, .unused,
      .outPeek (fun _ => 0) 2, .get (fun _ => 0) 9]
  exact ⟨fifo, made, outs.trans (by decide)⟩

end Bk7251.Common
