import Bk7251.Audio.RingBuffer
import Bk7251.Lib.Machine

/-!
# Ring buffers shared with the DMA engine

`driver/audio/ring_buffer_dma_read.c` and `ring_buffer_dma_write.c`. The engine owns one
of the two pointers and runs while the CPU copies, so a call is split into its entry,
one step for every byte it copies, and its exit, which programs the pause address. The
engine moves one byte at a time until its pointer is the pause address.
-/
namespace Bk7251.Audio

open Lib

/-- `RB_DMA_RD_ST` and `RB_DMA_WR_ST`. -/
structure RbDmaSt where
  address : UInt32
  capacity : UInt32
  wp : UInt32
  rp : UInt32

/-- The registers of the channel: its own pointer and the pause address. -/
structure Gdma where
  ptr : UInt32
  pause : UInt32

/-- One byte on; behind the loop end the pointer starts over. -/
def gdmaNext (rb : RbDmaSt) (ptr : UInt32) : UInt32 :=
  if ptr + 1 = rb.address + rb.capacity then rb.address else ptr + 1

/-- What a call under way has left to do: the bytes to move as pairs of destination and
source, the pointer it sets and the count it returns. -/
structure RbCall where
  moves : List (Nat × Nat)
  buffer : Mem UInt8
  pointer : UInt32
  bytes : UInt32

/-- The bytes of one `memcpy`. -/
def Copy.moves (c : Copy) : List (Nat × Nat) :=
  (List.range c.len.toNat).map fun i => (c.dst.toNat + i, c.src.toNat + i)

/-- A step of the engine, of the CPU inside a call, of a size query, or a new call. -/
inductive DmaAct (ι : Type)
  | dma (input : ι)
  | cpu
  | query
  | call (buffer : Mem UInt8) (size count : UInt32)

/-- With the interlock margin the bytes of a call still are a word. -/
def DmaAct.Placed {ι : Type} : DmaAct ι → Prop
  | .call _ size count => (size * count).toNat + 4 < 2 ^ 32
  | _ => True

/-! ### The CPU writes, the engine reads -/

/-- The buffer struct and the pause address. -/
def rbInitDmaRead (addr capacity : UInt32) : RbDmaSt × UInt32 := (⟨addr, capacity, 0, 0⟩, addr)

/-- `rb_write_dma_read` up to its copies; `none` where it returns 0. -/
def rbWriteDmaReadEnter (rb : RbDmaSt) (srcReadAddr writeBytes : UInt32) :
    RbDmaSt × Option (List Copy × UInt32) :=
  let rp := srcReadAddr - rb.address
  ({ rb with rp }, writePlan rb.capacity rb.wp rp writeBytes)

/-- `rb_write_dma_read` from its copies on: the struct and the pause address. -/
def rbWriteDmaReadLeave (rb : RbDmaSt) (wp : UInt32) : RbDmaSt × UInt32 :=
  let wp := wrapWp rb.capacity rb.rp wp
  ({ rb with wp }, rb.address + wp)

/-- The buffer, its channel and the call under way; `accepted` are the bytes of the calls
that found room, `stored` and `sent` the bytes that went into the ring and out of it, each
with its offset. -/
structure DmaReadSys where
  rb : RbDmaSt
  ring : Mem UInt8
  dma : Gdma
  call : Option RbCall
  accepted : List UInt8
  stored : List (Nat × UInt8)
  sent : List (Nat × UInt8)

namespace DmaReadSys

def init (addr capacity : UInt32) (ring : Mem UInt8) : DmaReadSys where
  rb := (rbInitDmaRead addr capacity).1
  ring := ring
  dma := ⟨addr, (rbInitDmaRead addr capacity).2⟩
  call := none
  accepted := []
  stored := []
  sent := []

/-- The offset of the engine's pointer. -/
def front (s : DmaReadSys) : Nat := (s.dma.ptr - s.rb.address).toNat

def dmaStep (s : DmaReadSys) : DmaReadSys :=
  if s.dma.ptr = s.dma.pause then s
  else { s with
    dma := { s.dma with ptr := gdmaNext s.rb s.dma.ptr }
    sent := s.sent ++ [(s.front, s.ring s.front)] }

/-- The next byte of the call under way, or its end. -/
def cpuStep (s : DmaReadSys) : DmaReadSys × Option UInt32 :=
  match s.call with
  | none => (s, none)
  | some c =>
    match c.moves with
    | (dst, src) :: moves =>
      ({ s with
        ring := s.ring.write dst [c.buffer src]
        stored := s.stored ++ [(dst, c.buffer src)]
        call := some { c with moves } }, none)
    | [] =>
      let (rb, pause) := rbWriteDmaReadLeave s.rb c.pointer
      ({ s with rb, dma := { s.dma with pause }, call := none }, some c.bytes)

/-- `rb_get_fill_size_dma_read` and `rb_get_free_size_dma_read` store the pointer they
sampled; the interrupt handler of the channel asks for the free size. -/
def query (s : DmaReadSys) : DmaReadSys :=
  { s with rb := { s.rb with rp := s.dma.ptr - s.rb.address } }

def enter (s : DmaReadSys) (buffer : Mem UInt8) (size count : UInt32) :
    DmaReadSys × Option UInt32 :=
  if size * count = 0 then (s, some 0)
  else
    match rbWriteDmaReadEnter s.rb s.dma.ptr (size * count) with
    | (rb, none) => ({ s with rb }, some 0)
    | (rb, some (copies, wp)) =>
      ({ s with
        rb
        call := some ⟨copies.flatMap Copy.moves, buffer, wp, size * count⟩
        accepted := s.accepted ++ buffer.read 0 (size * count).toNat }, none)

/-- The state after the step and the value a call returned in it. -/
def step (s : DmaReadSys) : DmaAct Unit → DmaReadSys × Option UInt32
  | .dma _ => (s.dmaStep, none)
  | .cpu => s.cpuStep
  | .query => (s.query, none)
  | .call buffer size count => if s.call.isSome then (s, none) else s.enter buffer size count

/-- The bytes stored and not sent yet. -/
def unread (s : DmaReadSys) : List (Nat × UInt8) := s.stored.drop s.sent.length

end DmaReadSys

/-! ### The engine writes, the CPU reads -/

def rbInitDmaWrite (addr capacity : UInt32) : RbDmaSt × UInt32 :=
  (⟨addr, capacity, 0, 0⟩, addr + capacity - rwpSafeInterval)

/-- `rb_read_dma_write` up to its copies. -/
def rbReadDmaWriteEnter (rb : RbDmaSt) (dstWriteAddr requiredBytes : UInt32) :
    RbDmaSt × List Copy × UInt32 × UInt32 :=
  let wp := dstWriteAddr - rb.address
  ({ rb with wp }, readPlan rb.capacity wp rb.rp requiredBytes)

/-- `rb_read_dma_write` from its copies on: the struct and the pause address. -/
def rbReadDmaWriteLeave (rb : RbDmaSt) (rp : UInt32) : RbDmaSt × UInt32 :=
  ({ rb with rp },
    if rp ≥ rwpSafeInterval then rb.address + rp - rwpSafeInterval
    else rb.address + rb.capacity + rp - rwpSafeInterval)

/-- The buffer, its channel and the call under way; `stored` and `got` are the bytes that
went into the ring and out of it, each with its offset, `delivered` what the calls left
in the callers' buffers. -/
structure DmaWriteSys where
  rb : RbDmaSt
  ring : Mem UInt8
  dma : Gdma
  call : Option RbCall
  stored : List (Nat × UInt8)
  got : List (Nat × UInt8)
  delivered : List UInt8

namespace DmaWriteSys

def init (addr capacity : UInt32) (ring : Mem UInt8) : DmaWriteSys where
  rb := (rbInitDmaWrite addr capacity).1
  ring := ring
  dma := ⟨addr, (rbInitDmaWrite addr capacity).2⟩
  call := none
  stored := []
  got := []
  delivered := []

/-- The offset of the engine's pointer. -/
def front (s : DmaWriteSys) : Nat := (s.dma.ptr - s.rb.address).toNat

def dmaStep (s : DmaWriteSys) (byte : UInt8) : DmaWriteSys :=
  if s.dma.ptr = s.dma.pause then s
  else { s with
    dma := { s.dma with ptr := gdmaNext s.rb s.dma.ptr }
    ring := s.ring.write s.front [byte]
    stored := s.stored ++ [(s.front, byte)] }

/-- The next byte of the call under way, or its end. -/
def cpuStep (s : DmaWriteSys) : DmaWriteSys × Option UInt32 :=
  match s.call with
  | none => (s, none)
  | some c =>
    match c.moves with
    | (dst, src) :: moves =>
      ({ s with
        got := s.got ++ [(src, s.ring src)]
        call := some { c with moves, buffer := c.buffer.write dst [s.ring src] } }, none)
    | [] =>
      let (rb, pause) := rbReadDmaWriteLeave s.rb c.pointer
      ({ s with
        rb
        dma := { s.dma with pause }
        call := none
        delivered := s.delivered ++ c.buffer.read 0 c.bytes.toNat }, some c.bytes)

/-- `rb_get_fill_size_dma_write` and `rb_get_free_size_dma_write` store the pointer they
sampled. -/
def query (s : DmaWriteSys) : DmaWriteSys :=
  { s with rb := { s.rb with wp := s.dma.ptr - s.rb.address } }

def enter (s : DmaWriteSys) (buffer : Mem UInt8) (size count : UInt32) :
    DmaWriteSys × Option UInt32 :=
  if size * count = 0 then (s, some 0)
  else
    let (rb, copies, rp, readBytes) := rbReadDmaWriteEnter s.rb s.dma.ptr (size * count)
    ({ s with rb, call := some ⟨copies.flatMap Copy.moves, buffer, rp, readBytes⟩ }, none)

/-- The state after the step and the value a call returned in it. -/
def step (s : DmaWriteSys) : DmaAct UInt8 → DmaWriteSys × Option UInt32
  | .dma byte => (s.dmaStep byte, none)
  | .cpu => s.cpuStep
  | .query => (s.query, none)
  | .call buffer size count => if s.call.isSome then (s, none) else s.enter buffer size count

/-- The bytes stored and not copied out yet. -/
def unread (s : DmaWriteSys) : List (Nat × UInt8) := s.stored.drop s.got.length

end DmaWriteSys

/-! ### The engine's pointer -/

/-- `ptr` lies in the buffer, `d` bytes from its start. -/
def At (rb : RbDmaSt) (ptr : UInt32) (d : Nat) : Prop :=
  d < rb.capacity.toNat ∧ ptr.toNat = rb.address.toNat + d

theorem At.offset {rb : RbDmaSt} {ptr : UInt32} {d : Nat} (ptrAt : At rb ptr d) :
    (ptr - rb.address).toNat = d := by
  obtain ⟨-, place⟩ := ptrAt
  rw [toNat_sub _ _ (by omega), place, Nat.add_sub_cancel_left]

theorem At.add {rb : RbDmaSt} (fits : rb.address.toNat + rb.capacity.toNat ≤ 2 ^ 32) (d : UInt32)
    (inside : d.toNat < rb.capacity.toNat) : At rb (rb.address + d) d.toNat :=
  ⟨inside, toNat_add _ _ (by omega)⟩

theorem At.eq_iff {rb : RbDmaSt} {p q : UInt32} {d e : Nat} (pAt : At rb p d) (qAt : At rb q e) :
    p = q ↔ d = e := by
  rw [← UInt32.toNat_inj, pAt.2, qAt.2]
  omega

theorem gdmaNext_at {rb : RbDmaSt} (fits : rb.address.toNat + rb.capacity.toNat ≤ 2 ^ 32)
    {ptr : UInt32} {d : Nat} (ptrAt : At rb ptr d) :
    At rb (gdmaNext rb ptr) (Ring.slot rb.capacity.toNat d 1) := by
  obtain ⟨inside, place⟩ := ptrAt
  have address := rb.address.toNat_lt
  have capacity := rb.capacity.toNat_lt
  have wrap : ptr + 1 = rb.address + rb.capacity ↔ d + 1 = rb.capacity.toNat := by
    rw [← UInt32.toNat_inj, UInt32.toNat_add, UInt32.toNat_add, place]
    change (rb.address.toNat + d + 1) % 2 ^ 32 = _ ↔ _
    omega
  unfold gdmaNext Ring.slot
  split
  next atEnd =>
    have last := wrap.mp atEnd
    exact ⟨by split <;> omega, by split <;> omega⟩
  next before =>
    have notLast : d + 1 ≠ rb.capacity.toNat := fun last => before (wrap.mpr last)
    have moved : (ptr + 1).toNat = ptr.toNat + 1 := toNat_add ptr 1 (by change _ + 1 < _; omega)
    rw [if_pos (by omega)]
    exact ⟨by omega, by omega⟩

/-- The bytes of the copies, one after the other, walk through the ring. -/
theorem Splits.flatMap_range {β : Type} {cap start n : Nat} {ring flat : Copy → UInt32}
    {copies : List Copy} (split : Splits cap start n ring flat copies) (f : Nat → Nat → β) :
    (copies.flatMap fun c =>
        (List.range c.len.toNat).map fun i => f ((ring c).toNat + i) ((flat c).toNat + i)) =
      (List.range n).map fun i => f (Ring.slot cap start i) i := by
  rcases split with ⟨c, rfl, inside, hr, hf, hl⟩ |
    ⟨c, d, rfl, inside, past, hr, hf, hl, hr', hf', hl'⟩
  · simp only [List.flatMap_cons, List.flatMap_nil, List.append_nil, hr, hf, hl]
    apply List.map_congr_left
    intro i member
    have bound := List.mem_range.mp member
    rw [Ring.slot, if_pos (by omega), Nat.zero_add]
  · simp only [List.flatMap_cons, List.flatMap_nil, List.append_nil, hr, hf, hl, hr', hf', hl']
    obtain ⟨rest, total⟩ := Nat.exists_eq_add_of_le (show cap - start ≤ n by omega)
    rw [total, List.range_add, List.map_append, List.map_map,
      show start + (cap - start + rest) - cap = rest by omega]
    congr 1
    · apply List.map_congr_left
      intro i member
      have bound := List.mem_range.mp member
      rw [Ring.slot, if_pos (by omega), Nat.zero_add]
    · apply List.map_congr_left
      intro i member
      have bound := List.mem_range.mp member
      rw [Function.comp_apply, Ring.slot, if_neg (by omega), Nat.zero_add]
      congr 1
      omega

/-- A copy that is not empty starts with its first byte, however long it is. -/
theorem Copy.moves_cons (c : Copy) (some : c.len.toNat ≠ 0) :
    ∃ rest, c.moves = (c.dst.toNat, c.src.toNat) :: rest := by
  obtain ⟨n, length⟩ := Nat.exists_eq_succ_of_ne_zero some
  rw [Copy.moves, length, List.range_succ_eq_map, List.map_cons]
  exact ⟨_, rfl⟩

theorem Splits.stores {cap start n : Nat} {copies : List Copy}
    (split : Splits cap start n Copy.dst Copy.src copies) :
    copies.flatMap Copy.moves = (List.range n).map fun i => (Ring.slot cap start i, i) :=
  split.flatMap_range Prod.mk

theorem Splits.loads {cap start n : Nat} {copies : List Copy}
    (split : Splits cap start n Copy.src Copy.dst copies) :
    copies.flatMap Copy.moves = (List.range n).map fun i => (i, Ring.slot cap start i) :=
  split.flatMap_range fun r i => (i, r)

/-! ### The writing CPU -/

namespace DmaReadSys

/-- How many bytes the engine, `d` bytes into the buffer, may send before it stops. -/
def filled (s : DmaReadSys) (d : Nat) : Nat := Ring.span s.rb.capacity.toNat d s.rb.wp.toNat

/-- A write call under way with `done` of its bytes in the ring and `left` to come. -/
structure Writing (s : DmaReadSys) (d : Nat) (c : RbCall) (done left : Nat) : Prop where
  moves : c.moves = (List.range left).map fun i =>
    (Ring.slot s.rb.capacity.toNat s.rb.wp.toNat (done + i), done + i)
  stored : s.stored = s.sent ++ Ring.window s.ring s.rb.capacity.toNat d (s.filled d + done)
  accepted : s.accepted = s.stored.map Prod.snd ++ c.moves.map fun m => c.buffer m.2
  room : s.filled d + (done + left) + 4 ≤ s.rb.capacity.toNat
  pointer :
    c.pointer.toNat = Ring.slot s.rb.capacity.toNat s.rb.wp.toNat (done + left) ∧
        c.pointer.toNat < s.rb.capacity.toNat ∨
      c.pointer = s.rb.capacity ∧
        Ring.slot s.rb.capacity.toNat s.rb.wp.toNat (done + left) = 0 ∧
        0 < s.rb.rp.toNat ∧ 0 < d ∧ d ≤ s.rb.wp.toNat

/-- No call under way: what was accepted and not sent lies between the two pointers. -/
structure Idle (s : DmaReadSys) (d : Nat) : Prop where
  stored : s.stored = s.sent ++ Ring.window s.ring s.rb.capacity.toNat d (s.filled d)
  accepted : s.accepted = s.stored.map Prod.snd
  gap : s.filled d = 0 ∨ s.filled d + 4 ≤ s.rb.capacity.toNat

/-- What every step keeps while the engine is `d` bytes into the buffer. -/
structure Inv (address capacity : UInt32) (s : DmaReadSys) (d : Nat) : Prop where
  address_eq : s.rb.address = address
  capacity_eq : s.rb.capacity = capacity
  wp_lt : s.rb.wp.toNat < s.rb.capacity.toNat
  pause_eq : s.dma.pause = s.rb.address + s.rb.wp
  ptr_at : At s.rb s.dma.ptr d
  call : match s.call with
    | none => s.Idle d
    | some c => ∃ done left, s.Writing d c done left

variable {address capacity : UInt32} {s : DmaReadSys} {d : Nat}

theorem init_inv (pos : 0 < capacity.toNat) (ring : Mem UInt8) :
    Inv address capacity (init address capacity ring) 0 := by
  refine ⟨rfl, rfl, pos, ?_, ⟨pos, rfl⟩, rfl, rfl, Or.inl rfl⟩
  simp [init, rbInitDmaRead]

theorem Inv.stopped_iff (fits : s.rb.address.toNat + s.rb.capacity.toNat ≤ 2 ^ 32)
    (inv : Inv address capacity s d) : s.dma.ptr = s.dma.pause ↔ s.filled d = 0 := by
  rw [inv.ptr_at.eq_iff (inv.pause_eq ▸ At.add fits s.rb.wp inv.wp_lt), filled,
    Ring.span_eq_zero _ _ _ inv.ptr_at.1]

theorem Inv.front_eq (inv : Inv address capacity s d) : s.front = d := inv.ptr_at.offset

/-- The engine sends the oldest byte it has not sent. -/
theorem window_sent (inv : Inv address capacity s d) (more : s.filled d ≠ 0) (extra : Nat)
    (room : s.filled d + extra ≤ s.rb.capacity.toNat)
    (stored : s.stored =
      s.sent ++ Ring.window s.ring s.rb.capacity.toNat d (s.filled d + extra)) :
    s.stored = s.sent ++ [(d, s.ring d)] ++ Ring.window s.ring s.rb.capacity.toNat
      (Ring.slot s.rb.capacity.toNat d 1) (s.filled d - 1 + extra) := by
  have next : s.filled d + extra = s.filled d - 1 + extra + 1 := by omega
  rw [stored, next, Ring.window_succ _ _ _ _ inv.ptr_at.1 (by omega)]
  simp

theorem dmaStep_inv (fits : s.rb.address.toNat + s.rb.capacity.toNat ≤ 2 ^ 32)
    (inv : Inv address capacity s d) : ∃ d, Inv address capacity s.dmaStep d := by
  by_cases stopped : s.dma.ptr = s.dma.pause
  · rw [dmaStep, if_pos stopped]
    exact ⟨d, inv⟩
  · have more : s.filled d ≠ 0 := (inv.stopped_iff fits).not.mp stopped
    have less : Ring.span s.rb.capacity.toNat (Ring.slot s.rb.capacity.toNat d 1) s.rb.wp.toNat =
        s.filled d - 1 :=
      Ring.span_slot_left _ _ _ _ (by have := inv.ptr_at.1; omega) (Or.inl inv.wp_lt)
        (by rw [filled] at more; omega)
    rw [dmaStep, if_neg stopped, inv.front_eq]
    refine ⟨Ring.slot s.rb.capacity.toNat d 1, inv.address_eq, inv.capacity_eq, inv.wp_lt,
      inv.pause_eq, gdmaNext_at fits inv.ptr_at, ?_⟩
    have call := inv.call
    revert call
    cases s.call with
    | none =>
      rintro ⟨stored, accepted, gap⟩
      refine ⟨?_, accepted, ?_⟩
      · simp only [filled, less]
        exact window_sent inv more 0 (by omega) stored
      · simp only [filled, less] at gap ⊢
        omega
    | some c =>
      rintro ⟨done, left, moves, stored, accepted, room, pointer⟩
      refine ⟨done, left, moves, ?_, accepted, ?_, ?_⟩
      · simp only [filled, less]
        exact window_sent inv more done (by omega) stored
      · simp only [filled, less] at room ⊢
        omega
      · refine pointer.imp_right ?_
        rintro ⟨atEnd, front, sampled, pos, below⟩
        -- the write pointer lies ahead, so the engine does not wrap before it stops
        have apart : d ≠ s.rb.wp.toNat :=
          (Ring.span_eq_zero _ _ _ inv.ptr_at.1).not.mp more
        have ahead : Ring.slot s.rb.capacity.toNat d 1 = d + 1 :=
          if_pos (by have := inv.wp_lt; omega)
        have short : Ring.slot s.rb.capacity.toNat d 1 ≤ s.rb.wp.toNat := by omega
        exact ⟨atEnd, front, sampled, by omega, short⟩

theorem query_inv (inv : Inv address capacity s d) : Inv address capacity s.query d := by
  refine ⟨inv.address_eq, inv.capacity_eq, inv.wp_lt, inv.pause_eq, inv.ptr_at, ?_⟩
  have call := inv.call
  change match s.call with
    | none => s.query.Idle d
    | some c => ∃ done left, s.query.Writing d c done left
  revert call
  cases s.call with
  | none => rintro ⟨stored, accepted, gap⟩; exact ⟨stored, accepted, gap⟩
  | some c =>
    rintro ⟨done, left, moves, stored, accepted, room, pointer⟩
    refine ⟨done, left, moves, stored, accepted, room, pointer.imp_right ?_⟩
    rintro ⟨atEnd, front, -, pos, below⟩
    refine ⟨atEnd, front, ?_, pos, below⟩
    change 0 < (s.dma.ptr - s.rb.address).toNat
    rw [inv.ptr_at.offset]
    exact pos

theorem enter_inv (inv : Inv address capacity s d) (idle : s.call = none) (buffer : Mem UInt8)
    (size count : UInt32) (placed : (size * count).toNat + 4 < 2 ^ 32) :
    Inv address capacity (s.enter buffer size count).1 d := by
  obtain ⟨stored, accepted, gap⟩ : s.Idle d := by simpa [idle] using inv.call
  have sampled : (s.dma.ptr - s.rb.address).toNat = d := inv.ptr_at.offset
  have ok : PointersOk s.rb.capacity.toNat (s.dma.ptr - s.rb.address).toNat s.rb.wp.toNat := by
    rw [sampled]
    exact ⟨by have := inv.ptr_at.1; omega, Or.inl inv.wp_lt, gap⟩
  unfold enter
  split
  next => exact inv
  next some =>
    have small : (size * count).toNat + 4 < 2 ^ 32 := by omega
    by_cases room : s.filled d + (size * count).toNat + 4 ≤ s.rb.capacity.toNat
    · obtain ⟨copies, wp, plan, split, stop⟩ := writePlan_room s.rb.capacity s.rb.wp
        (s.dma.ptr - s.rb.address) (size * count) ok small (by rw [sampled]; exact room)
      simp only [rbWriteDmaReadEnter, plan]
      refine ⟨inv.address_eq, inv.capacity_eq, inv.wp_lt, inv.pause_eq, inv.ptr_at, 0,
        (size * count).toNat, ?_, stored, ?_, ?_, ?_⟩
      · simp only [Nat.zero_add]
        exact split.stores
      · simp only [split.stores, accepted, List.map_map, Mem.read, Nat.zero_add]
        rfl
      · rw [Nat.zero_add]
        exact room
      · simp only [Nat.zero_add, sampled] at stop ⊢
        rcases stop with behind | ⟨atEnd, front, pos, below⟩
        · exact .inl behind
        · exact .inr ⟨atEnd, front, pos, pos, below⟩
    · have full := writePlan_full s.rb.capacity s.rb.wp (s.dma.ptr - s.rb.address) (size * count) ok
        small (by rw [sampled]; exact Nat.not_le.mp room)
      simp only [rbWriteDmaReadEnter, full]
      refine ⟨inv.address_eq, inv.capacity_eq, inv.wp_lt, inv.pause_eq, inv.ptr_at, ?_⟩
      simp only [idle]
      exact ⟨stored, accepted, gap⟩

theorem cpuStep_inv (inv : Inv address capacity s d) : Inv address capacity s.cpuStep.1 d := by
  unfold cpuStep
  split
  next => exact inv
  next c under =>
    obtain ⟨done, left, moves, stored, accepted, room, pointer⟩ :
      ∃ done left, s.Writing d c done left := by simpa [under] using inv.call
    have dLe : d ≤ s.rb.capacity.toNat := by have := inv.ptr_at.1; omega
    have place : Ring.slot s.rb.capacity.toNat d (s.filled d) = s.rb.wp.toNat :=
      Ring.slot_span _ _ _ dLe (Or.inl inv.wp_lt)
    split
    next dst src rest first =>
      -- one more byte goes behind what is unsent
      cases left with
      | zero => simp [first] at moves
      | succ left =>
        rw [first, List.range_succ_eq_map] at moves
        simp only [List.map_cons, List.cons.injEq, Prod.mk.injEq, Nat.add_zero, List.map_map] at moves
        obtain ⟨⟨rfl, srcEq⟩, restEq⟩ := moves
        subst src
        refine ⟨inv.address_eq, inv.capacity_eq, inv.wp_lt, inv.pause_eq, inv.ptr_at, done + 1,
          left, ?_, ?_, ?_, ?_, ?_⟩
        · rw [restEq]
          apply List.map_congr_left
          intro i _
          simp only [Function.comp_apply, Nat.succ_eq_add_one, Nat.add_assoc, Nat.add_comm 1]
        · have behind : Ring.slot s.rb.capacity.toNat d (s.filled d + done) =
              Ring.slot s.rb.capacity.toNat s.rb.wp.toNat done := by
            rw [← Ring.slot_slot _ _ _ _ dLe (by omega), place]
          have pushed := Ring.window_push s.ring s.rb.capacity.toNat d (s.filled d + done)
            (c.buffer done) dLe (by omega)
          rw [behind] at pushed
          rw [stored, List.append_assoc, ← pushed]
          rfl
        · rw [accepted, first]
          simp
        · rw [show done + 1 + left = done + (left + 1) by omega]
          exact room
        · rw [show done + 1 + left = done + (left + 1) by omega]
          exact pointer
    next last =>
      -- the call ends: only now is `wp` stored, and the engine's pause address with it
      have none : left = 0 := by simpa [last] using (congrArg List.length moves).symm
      subst none
      have wrapped : (wrapWp s.rb.capacity s.rb.rp c.pointer).toNat =
          Ring.slot s.rb.capacity.toNat s.rb.wp.toNat done := by
        rcases pointer with ⟨inside, short⟩ | ⟨atEnd, front, sampled, -⟩
        · rw [wrapWp_inside _ _ _ short, inside, Nat.add_zero]
        · rw [atEnd, wrapWp_end _ _ _ rfl sampled]
          exact front.symm
      have grown : Ring.span s.rb.capacity.toNat d (Ring.slot s.rb.capacity.toNat s.rb.wp.toNat done) =
          s.filled d + done := Ring.span_slot_right _ _ _ _ dLe (by rw [← filled]; omega)
      refine ⟨inv.address_eq, inv.capacity_eq, ?_, rfl, inv.ptr_at, ?_, ?_, ?_⟩
      · change (wrapWp s.rb.capacity s.rb.rp c.pointer).toNat < _
        rw [wrapped]
        exact Ring.slot_lt _ _ _ (by have := inv.wp_lt; omega) (by omega)
      · simp only [filled, rbWriteDmaReadLeave, wrapped, grown]
        exact stored
      · simpa [last] using accepted
      · simp only [filled, rbWriteDmaReadLeave, wrapped]
        rw [grown]
        exact Or.inr room

theorem step_inv (fits : address.toNat + capacity.toNat ≤ 2 ^ 32) (a : DmaAct Unit)
    (placed : a.Placed) (inv : ∃ d, Inv address capacity s d) :
    ∃ d, Inv address capacity (s.step a).1 d := by
  obtain ⟨d, inv⟩ := inv
  rw [← inv.address_eq, ← inv.capacity_eq] at fits
  cases a with
  | dma => exact dmaStep_inv fits inv
  | cpu => exact ⟨d, cpuStep_inv inv⟩
  | query => exact ⟨d, query_inv inv⟩
  | call buffer size count =>
    cases idle : s.call with
    | none =>
      simp only [step, idle]
      exact ⟨d, enter_inv inv idle buffer size count placed⟩
    | some c =>
      simp only [step, idle]
      exact ⟨d, inv⟩

theorem run_inv (fits : address.toNat + capacity.toNat ≤ 2 ^ 32) (pos : 0 < capacity.toNat)
    (ring : Mem UInt8) (acts : List (DmaAct Unit)) (placed : ∀ a ∈ acts, a.Placed) :
    ∃ d, Inv address capacity (Machine.run step (init address capacity ring) acts).1 d :=
  Machine.run_invariant step (fun s => ∃ d, Inv address capacity s d) DmaAct.Placed
    (fun _ a inv ok => step_inv fits a ok inv) _ acts ⟨0, init_inv pos ring⟩ placed

/-- The unsent bytes are a window in front of the engine, and nothing else is stored. -/
theorem Inv.stored_eq (inv : Inv address capacity s d) :
    (∃ n, s.stored = s.sent ++ Ring.window s.ring s.rb.capacity.toNat d n) ∧
      s.stored.map Prod.snd <+: s.accepted := by
  have call := inv.call
  revert call
  cases s.call with
  | none =>
    rintro ⟨stored, accepted, -⟩
    exact ⟨⟨_, stored⟩, accepted ▸ List.prefix_refl _⟩
  | some c =>
    rintro ⟨done, left, -, stored, accepted, -, -⟩
    exact ⟨⟨_, stored⟩, accepted ▸ List.prefix_append _ _⟩

/-- The next byte of a call goes to an offset that holds no unsent byte. -/
theorem Inv.store_apart (inv : Inv address capacity s d) (c : RbCall) (under : s.call = some c)
    (m : Nat × Nat) (next : c.moves.head? = some m) : m.1 ∉ s.unread.map Prod.fst := by
  obtain ⟨done, left, moves, stored, -, room, -⟩ :
    ∃ done left, s.Writing d c done left := by simpa [under] using inv.call
  have dLe : d ≤ s.rb.capacity.toNat := by have := inv.ptr_at.1; omega
  cases left with
  | zero => simp [moves] at next
  | succ left =>
    have place : m.1 = Ring.slot s.rb.capacity.toNat d (s.filled d + done) := by
      rw [moves, List.range_succ_eq_map] at next
      simp only [List.map_cons, List.head?_cons, Option.some.injEq] at next
      rw [← Ring.slot_slot _ _ _ _ dLe (by omega), filled,
        Ring.slot_span _ _ _ dLe (Or.inl inv.wp_lt), ← next, Nat.add_zero]
    rw [unread, stored, List.drop_left, place, Ring.window, List.map_map]
    intro member
    obtain ⟨i, bound, same⟩ := List.mem_map.mp member
    exact Ring.slot_ne _ d i _ (List.mem_range.mp bound) (by omega) same

theorem Inv.safe (fits : address.toNat + capacity.toNat ≤ 2 ^ 32)
    (inv : Inv address capacity s d) :
    (∀ c m, s.call = some c → c.moves.head? = some m → m.1 ∉ s.unread.map Prod.fst) ∧
      s.sent <+: s.stored ∧
      s.stored.map Prod.snd <+: s.accepted ∧
      (s.call = none → s.dma.ptr = s.dma.pause → s.sent.map Prod.snd = s.accepted) ∧
      address.toNat ≤ s.dma.pause.toNat ∧
      s.dma.pause.toNat < address.toNat + capacity.toNat := by
  have wpLt := inv.wp_lt
  rw [← inv.address_eq, ← inv.capacity_eq] at fits ⊢
  obtain ⟨⟨n, stored⟩, accepted⟩ := inv.stored_eq
  have inside : At s.rb s.dma.pause s.rb.wp.toNat := inv.pause_eq ▸ At.add fits _ wpLt
  have place := inside.2
  refine ⟨fun c m under next => inv.store_apart c under m next, ⟨_, stored.symm⟩, accepted, ?_,
    by omega, by omega⟩
  intro idle stopped
  obtain ⟨stored, accepted, -⟩ : s.Idle d := by simpa [idle] using inv.call
  have none : s.filled d = 0 := (inv.stopped_iff fits).mp stopped
  rw [accepted, stored, none]
  simp

end DmaReadSys

/-! ### The reading CPU -/

namespace DmaWriteSys

/-- How many bytes the engine, `e` bytes into the buffer, has written ahead of the CPU. -/
def filled (s : DmaWriteSys) (e : Nat) : Nat := Ring.span s.rb.capacity.toNat s.rb.rp.toNat e

/-- The bytes ahead of the CPU when its call began, and those written since. -/
def window (s : DmaWriteSys) (e : Nat) : List (Nat × UInt8) :=
  Ring.window s.ring s.rb.capacity.toNat s.rb.rp.toNat (s.filled e)

/-- A read call under way with `done` bytes copied and `left` to come. -/
structure Reading (s : DmaWriteSys) (e : Nat) (c : RbCall) (done left : Nat) : Prop where
  moves : c.moves = (List.range left).map fun i =>
    (done + i, Ring.slot s.rb.capacity.toNat s.rb.rp.toNat (done + i))
  stored : s.stored = s.got ++ (s.window e).drop done
  delivered : s.delivered ++ c.buffer.read 0 done = s.got.map Prod.snd
  bytes : c.bytes.toNat = done + left
  room : done + left ≤ s.filled e
  pointer :
    c.pointer.toNat = Ring.slot s.rb.capacity.toNat s.rb.rp.toNat (done + left) ∨
      c.pointer = s.rb.capacity ∧
        Ring.slot s.rb.capacity.toNat s.rb.rp.toNat (done + left) = 0

structure Idle (s : DmaWriteSys) (e : Nat) : Prop where
  stored : s.stored = s.got ++ s.window e
  delivered : s.delivered = s.got.map Prod.snd

/-- What every step keeps while the engine is `e` bytes into the buffer. -/
structure Inv (address capacity : UInt32) (s : DmaWriteSys) (e : Nat) : Prop where
  address_eq : s.rb.address = address
  capacity_eq : s.rb.capacity = capacity
  rp_le : s.rb.rp.toNat ≤ s.rb.capacity.toNat
  pause_at : At s.rb s.dma.pause
    (Ring.slot s.rb.capacity.toNat s.rb.rp.toNat (s.rb.capacity.toNat - 4))
  ptr_at : At s.rb s.dma.ptr e
  gap : s.filled e + 4 ≤ s.rb.capacity.toNat
  call : match s.call with
    | none => s.Idle e
    | some c => ∃ done left, s.Reading e c done left

variable {address capacity : UInt32} {s : DmaWriteSys} {e : Nat}

/-- The engine has to stop `RWP_SAFE_INTERVAL` bytes behind the read pointer. -/
theorem leave_pause_at (rb : RbDmaSt) (fits : rb.address.toNat + rb.capacity.toNat ≤ 2 ^ 32)
    (room : 4 ≤ rb.capacity.toNat) (rp : UInt32) (rpLe : rp.toNat ≤ rb.capacity.toNat) :
    At rb (rbReadDmaWriteLeave rb rp).2
      (Ring.slot rb.capacity.toNat rp.toNat (rb.capacity.toNat - 4)) := by
  have interval : rwpSafeInterval.toNat = 4 := rfl
  have address := rb.address.toNat_lt
  simp only [rbReadDmaWriteLeave, Ring.slot, ge_iff_le, UInt32.le_iff_toNat_le, interval]
  by_cases far : 4 ≤ rp.toNat
  · rw [if_pos far, if_neg (by omega)]
    refine ⟨by omega, ?_⟩
    simp only [UInt32.toNat_sub, UInt32.toNat_add, interval]
    omega
  · rw [if_neg far, if_pos (by omega)]
    refine ⟨by omega, ?_⟩
    simp only [UInt32.toNat_sub, UInt32.toNat_add, interval]
    omega

theorem init_inv (fits : address.toNat + capacity.toNat ≤ 2 ^ 32) (room : 4 ≤ capacity.toNat)
    (ring : Mem UInt8) : Inv address capacity (init address capacity ring) 0 := by
  have pause := leave_pause_at ⟨address, capacity, 0, 0⟩ fits room 0 (Nat.zero_le _)
  have first : (rbReadDmaWriteLeave ⟨address, capacity, 0, 0⟩ 0).2 =
      address + capacity - rwpSafeInterval := by
    simp [rbReadDmaWriteLeave, rwpSafeInterval]
  rw [first] at pause
  have pos : 0 < capacity.toNat := by omega
  exact ⟨rfl, rfl, Nat.zero_le _, pause, ⟨pos, rfl⟩, room, rfl, rfl⟩

theorem dmaStep_inv (fits : s.rb.address.toNat + s.rb.capacity.toNat ≤ 2 ^ 32)
    (inv : Inv address capacity s e) (byte : UInt8) :
    ∃ e, Inv address capacity (s.dmaStep byte) e := by
  by_cases stopped : s.dma.ptr = s.dma.pause
  · rw [dmaStep, if_pos stopped]
    exact ⟨e, inv⟩
  · have behind : Ring.slot s.rb.capacity.toNat s.rb.rp.toNat (s.filled e) = e :=
      Ring.slot_span _ _ _ inv.rp_le (Or.inl inv.ptr_at.1)
    have free : s.filled e + 5 ≤ s.rb.capacity.toNat := by
      have apart := (inv.ptr_at.eq_iff inv.pause_at).not.mp stopped
      have gap := inv.gap
      rcases Nat.lt_or_ge (s.filled e + 4) s.rb.capacity.toNat with more | full
      · omega
      · rw [show s.rb.capacity.toNat - 4 = s.filled e by omega, behind] at apart
        exact absurd rfl apart
    have front : s.front = e := inv.ptr_at.offset
    have grown : Ring.span s.rb.capacity.toNat s.rb.rp.toNat (Ring.slot s.rb.capacity.toNat e 1) =
        s.filled e + 1 := Ring.span_slot_right _ _ _ _ inv.rp_le (by rw [← filled]; omega)
    have pushed : Ring.window (s.ring.write e [byte]) s.rb.capacity.toNat s.rb.rp.toNat
        (s.filled e + 1) = s.window e ++ [(e, byte)] := by
      have push := Ring.window_push s.ring s.rb.capacity.toNat s.rb.rp.toNat (s.filled e) byte
        inv.rp_le (by omega)
      rwa [behind] at push
    rw [dmaStep, if_neg stopped, front]
    refine ⟨Ring.slot s.rb.capacity.toNat e 1, inv.address_eq, inv.capacity_eq, inv.rp_le,
      inv.pause_at, gdmaNext_at fits inv.ptr_at, ?_, ?_⟩
    · simp only [filled, grown] at free ⊢
      omega
    have call := inv.call
    revert call
    cases s.call with
    | none =>
      rintro ⟨stored, delivered⟩
      refine ⟨?_, delivered⟩
      simp only [window, filled, grown]
      rw [stored, List.append_assoc, ← pushed]
      rfl
    | some c =>
      rintro ⟨done, left, moves, stored, delivered, bytes, room, pointer⟩
      refine ⟨done, left, moves, ?_, delivered, bytes, ?_, pointer⟩
      · simp only [window, filled, grown]
        have short : done ≤ (s.window e).length := by
          rw [window, Ring.length_window]
          omega
        rw [stored, List.append_assoc, ← List.drop_append_of_le_length short, ← pushed]
        rfl
      · simp only [filled]
        rw [grown]
        omega

theorem query_inv (inv : Inv address capacity s e) : Inv address capacity s.query e :=
  ⟨inv.address_eq, inv.capacity_eq, inv.rp_le, inv.pause_at, inv.ptr_at, inv.gap, by
    have call := inv.call
    change match s.call with
      | none => s.query.Idle e
      | some c => ∃ done left, s.query.Reading e c done left
    revert call
    cases s.call with
    | none => exact fun ⟨stored, delivered⟩ => ⟨stored, delivered⟩
    | some c =>
      rintro ⟨done, left, moves, stored, delivered, bytes, room, pointer⟩
      exact ⟨done, left, moves, stored, delivered, bytes, room, pointer⟩⟩

theorem enter_inv (inv : Inv address capacity s e) (idle : s.call = none) (buffer : Mem UInt8)
    (size count : UInt32) : Inv address capacity (s.enter buffer size count).1 e := by
  obtain ⟨stored, delivered⟩ : s.Idle e := by simpa [idle] using inv.call
  have sampled : (s.dma.ptr - s.rb.address).toNat = e := inv.ptr_at.offset
  have ok : PointersOk s.rb.capacity.toNat s.rb.rp.toNat (s.dma.ptr - s.rb.address).toNat := by
    rw [sampled]
    exact ⟨inv.rp_le, Or.inl inv.ptr_at.1, Or.inr inv.gap⟩
  unfold enter
  split
  next => exact inv
  next some =>
    obtain ⟨copies, rp, k, plan, amount, split, -, stop⟩ := readPlan_spec s.rb.capacity
      (s.dma.ptr - s.rb.address) s.rb.rp (size * count) ok.rp_le ok.wp_le
    rw [sampled] at amount
    simp only [rbReadDmaWriteEnter, plan]
    refine ⟨inv.address_eq, inv.capacity_eq, inv.rp_le, inv.pause_at, inv.ptr_at, inv.gap, 0,
      k.toNat, ?_, ?_, ?_, ?_, ?_, ?_⟩
    · simp only [Nat.zero_add]
      exact split.loads
    · exact stored
    · simpa using delivered
    · exact (Nat.zero_add _).symm
    · simp only [Nat.zero_add, amount]
      exact Nat.min_le_right _ _
    · simpa only [Nat.zero_add] using stop

theorem cpuStep_inv (fits : s.rb.address.toNat + s.rb.capacity.toNat ≤ 2 ^ 32)
    (inv : Inv address capacity s e) : Inv address capacity s.cpuStep.1 e := by
  unfold cpuStep
  split
  next => exact inv
  next c under =>
    obtain ⟨done, left, moves, stored, delivered, bytes, room, pointer⟩ :
      ∃ done left, s.Reading e c done left := by simpa [under] using inv.call
    have gap := inv.gap
    split
    next dst src rest first =>
      -- the byte is read before the engine may write there: `rp` has not moved yet
      cases left with
      | zero => simp [first] at moves
      | succ left =>
        rw [first, List.range_succ_eq_map] at moves
        simp only [List.map_cons, List.cons.injEq, Prod.mk.injEq, Nat.add_zero, List.map_map] at moves
        obtain ⟨⟨dstEq, rfl⟩, restEq⟩ := moves
        subst dst
        have more : done < (s.window e).length := by
          rw [window, Ring.length_window]
          omega
        have cell : (s.window e)[done] = (Ring.slot s.rb.capacity.toNat s.rb.rp.toNat done,
            s.ring (Ring.slot s.rb.capacity.toNat s.rb.rp.toNat done)) := by
          simp [window, Ring.window]
        refine ⟨inv.address_eq, inv.capacity_eq, inv.rp_le, inv.pause_at, inv.ptr_at, inv.gap,
          done + 1, left, ?_, ?_, ?_, ?_, ?_, ?_⟩
        · rw [restEq]
          apply List.map_congr_left
          intro i _
          simp only [Function.comp_apply, Nat.succ_eq_add_one, Nat.add_assoc, Nat.add_comm 1]
        · rw [stored, List.drop_eq_getElem_cons more, cell]
          simp [window, filled]
        · rw [Mem.read_write_push, ← List.append_assoc, delivered]
          simp
        · rw [bytes]
          omega
        · rw [show done + 1 + left = done + (left + 1) by omega]
          exact room
        · rw [show done + 1 + left = done + (left + 1) by omega]
          exact pointer
    next last =>
      -- the call ends: `rp` gives the cells it has read to the engine
      have none : left = 0 := by simpa [last] using (congrArg List.length moves).symm
      subst none
      rw [Nat.add_zero] at pointer bytes room
      have rpLe : c.pointer.toNat ≤ s.rb.capacity.toNat := by
        rcases pointer with inside | ⟨atEnd, -⟩
        · rw [inside]
          exact Nat.le_of_lt (Ring.slot_lt _ _ _ inv.rp_le (by omega))
        · exact atEnd ▸ Nat.le_refl _
      have left : Ring.span s.rb.capacity.toNat c.pointer.toNat e = s.filled e - done := by
        have advanced := Ring.span_slot_left _ _ _ done inv.rp_le (Or.inl inv.ptr_at.1) room
        rcases pointer with inside | ⟨atEnd, front⟩
        · rw [inside, advanced, filled]
        · rw [front] at advanced
          rw [atEnd, Ring.span_end _ _ (Or.inl inv.ptr_at.1), advanced, filled]
      refine ⟨inv.address_eq, inv.capacity_eq, rpLe, leave_pause_at s.rb fits (by omega) _ rpLe,
        inv.ptr_at, ?_, ?_, ?_⟩
      · simp only [filled, rbReadDmaWriteLeave, left] at gap ⊢
        omega
      · simp only [window, filled, rbReadDmaWriteLeave]
        rw [left, stored, window, Ring.window_drop _ _ _ _ _ inv.rp_le room (by omega)]
        rcases pointer with inside | ⟨atEnd, front⟩
        · rw [inside]
        · rw [front, atEnd, Ring.window_end _ _ _ (by omega)]
      · rw [← delivered, bytes]

theorem step_inv (fits : address.toNat + capacity.toNat ≤ 2 ^ 32) (a : DmaAct UInt8)
    (inv : ∃ e, Inv address capacity s e) : ∃ e, Inv address capacity (s.step a).1 e := by
  obtain ⟨e, inv⟩ := inv
  rw [← inv.address_eq, ← inv.capacity_eq] at fits
  cases a with
  | dma byte => exact dmaStep_inv fits inv byte
  | cpu => exact ⟨e, cpuStep_inv fits inv⟩
  | query => exact ⟨e, query_inv inv⟩
  | call buffer size count =>
    cases idle : s.call with
    | none =>
      simp only [step, idle]
      exact ⟨e, enter_inv inv idle buffer size count⟩
    | some c =>
      simp only [step, idle]
      exact ⟨e, inv⟩

theorem run_inv (fits : address.toNat + capacity.toNat ≤ 2 ^ 32) (room : 4 ≤ capacity.toNat)
    (ring : Mem UInt8) (acts : List (DmaAct UInt8)) :
    ∃ e, Inv address capacity (Machine.run step (init address capacity ring) acts).1 e :=
  Machine.run_invariant step (fun s => ∃ e, Inv address capacity s e) (fun _ => True)
    (fun _ a inv _ => step_inv fits a inv) _ acts ⟨0, init_inv fits room ring⟩ (fun _ _ => trivial)

/-- The bytes not copied out yet are a window that starts behind what the call has copied. -/
theorem Inv.stored_eq (inv : Inv address capacity s e) :
    ∃ k, k ≤ s.filled e ∧ s.stored = s.got ++ (s.window e).drop k ∧
      s.delivered <+: s.got.map Prod.snd ∧
      (s.call = none → k = 0 ∧ s.delivered = s.got.map Prod.snd) := by
  have call := inv.call
  revert call
  cases s.call with
  | none =>
    rintro ⟨stored, delivered⟩
    exact ⟨0, Nat.zero_le _, stored, delivered ▸ List.prefix_refl _, fun _ => ⟨rfl, delivered⟩⟩
  | some c =>
    rintro ⟨done, left, -, stored, delivered, -, room, -⟩
    exact ⟨done, by omega, stored, delivered ▸ List.prefix_append _ _, nofun⟩

/-- A running engine stores at an offset that holds no byte still to be copied. -/
theorem Inv.store_apart (inv : Inv address capacity s e) :
    s.front ∉ s.unread.map Prod.fst := by
  obtain ⟨k, short, stored, -⟩ := inv.stored_eq
  have behind : Ring.slot s.rb.capacity.toNat s.rb.rp.toNat (s.filled e) = e :=
    Ring.slot_span _ _ _ inv.rp_le (Or.inl inv.ptr_at.1)
  have front : s.front = e := inv.ptr_at.offset
  have gap := inv.gap
  rw [unread, stored, List.drop_left, front]
  intro member
  have inWindow := (List.map_subset _ (List.drop_subset k (s.window e))) member
  rw [window, Ring.window, List.map_map] at inWindow
  obtain ⟨i, bound, same⟩ := List.mem_map.mp inWindow
  exact Ring.slot_ne _ _ i _ (List.mem_range.mp bound) (by omega) (same.trans behind.symm)

theorem Inv.safe (inv : Inv address capacity s e) :
    (s.dma.ptr ≠ s.dma.pause → s.front ∉ s.unread.map Prod.fst) ∧
      s.got <+: s.stored ∧
      s.delivered <+: s.got.map Prod.snd ∧
      (s.call = none → s.delivered ++ s.unread.map Prod.snd = s.stored.map Prod.snd) ∧
      address.toNat ≤ s.dma.pause.toNat ∧
      s.dma.pause.toNat < address.toNat + capacity.toNat := by
  obtain ⟨k, -, stored, delivered, whole⟩ := inv.stored_eq
  obtain ⟨pos, place⟩ := inv.pause_at
  rw [inv.address_eq] at place
  rw [inv.capacity_eq] at pos place
  refine ⟨fun _ => inv.store_apart, ⟨_, stored.symm⟩, delivered, ?_, by omega, by omega⟩
  intro idle
  obtain ⟨rfl, all⟩ := whole idle
  rw [all, unread, stored]
  simp

end DmaWriteSys

/-- For every interleaving of calls, copied bytes, size queries and engine steps, in the
state reached:

* `rb_write_dma_read` stores its next byte where no unsent byte lies, the engine has sent
  what was stored, in order, the bytes stored are those the calls accepted, in order, and
  when the engine has stopped between calls all of them are sent;
* the engine stores where no byte lies that `rb_read_dma_write` has yet to copy, the copied
  bytes are those the engine stored, in order, and the callers have exactly the copied bytes;
* both pause addresses lie inside the buffer. -/
theorem dma_rings_never_overrun (address capacity : UInt32) (ring : Mem UInt8)
    (fits : address.toNat + capacity.toNat ≤ 2 ^ 32) (room : 4 ≤ capacity.toNat)
    (rdActs : List (DmaAct Unit)) (placed : ∀ a ∈ rdActs, a.Placed)
    (wrActs : List (DmaAct UInt8)) :
    let rd := (Machine.run DmaReadSys.step (.init address capacity ring) rdActs).1
    let wr := (Machine.run DmaWriteSys.step (.init address capacity ring) wrActs).1
    ((∀ c m, rd.call = some c → c.moves.head? = some m → m.1 ∉ rd.unread.map Prod.fst) ∧
      rd.sent <+: rd.stored ∧
      rd.stored.map Prod.snd <+: rd.accepted ∧
      (rd.call = none → rd.dma.ptr = rd.dma.pause → rd.sent.map Prod.snd = rd.accepted) ∧
      address.toNat ≤ rd.dma.pause.toNat ∧
      rd.dma.pause.toNat < address.toNat + capacity.toNat) ∧
    ((wr.dma.ptr ≠ wr.dma.pause → wr.front ∉ wr.unread.map Prod.fst) ∧
      wr.got <+: wr.stored ∧
      wr.delivered <+: wr.got.map Prod.snd ∧
      (wr.call = none → wr.delivered ++ wr.unread.map Prod.snd = wr.stored.map Prod.snd) ∧
      address.toNat ≤ wr.dma.pause.toNat ∧
      wr.dma.pause.toNat < address.toNat + capacity.toNat) := by
  intro rd wr
  obtain ⟨d, reading⟩ := DmaReadSys.run_inv fits (by omega) ring rdActs placed
  obtain ⟨e, writing⟩ := DmaWriteSys.run_inv fits room ring wrActs
  exact ⟨reading.safe fits, writing.safe⟩

/-- A buffer of eight bytes at address 100: four bytes go in while the engine sends them
and comes to rest at the write pointer; four come in and are copied out by two calls. -/
theorem dma_rings_never_overrun_eight :
    let rd := (Machine.run DmaReadSys.step (.init 100 8 fun _ => 0)
      [.call (fun i => i.toUInt8) 4 1, .cpu, .cpu, .query, .cpu, .cpu, .cpu, .dma (), .dma (),
        .dma (), .dma (), .dma ()]).1
    let wr := (Machine.run DmaWriteSys.step (.init 100 8 fun _ => 0)
      [.dma 7, .dma 8, .call (fun _ => 0) 3 1, .cpu, .dma 9, .cpu, .cpu, .dma 10, .dma 11]).1
    (rd.sent <+: rd.stored ∧ rd.sent.map Prod.snd = [0, 1, 2, 3] ∧ rd.dma.pause = 104) ∧
      wr.got <+: wr.stored ∧ wr.delivered = [7, 8] ∧ wr.dma.pause = 106 := by
  intro rd wr
  have safe := dma_rings_never_overrun 100 8 (fun _ => 0) (by decide) (by decide)
    [.call (fun i => i.toUInt8) 4 1, .cpu, .cpu, .query, .cpu, .cpu, .cpu, .dma (), .dma (),
      .dma (), .dma (), .dma ()] (by simp [DmaAct.Placed])
    [.dma 7, .dma 8, .call (fun _ => 0) 3 1, .cpu, .dma 9, .cpu, .cpu, .dma 10, .dma 11]
  exact ⟨⟨safe.1.2.1, by decide, by decide⟩, safe.2.2.1, by decide, by decide⟩

/-- As many steps of the CPU as there are bytes in front of the others. -/
theorem DmaReadSys.run_cpu {s : DmaReadSys} {c : RbCall} (front : List (Nat × Nat))
    {moves : List (Nat × Nat)} (under : s.call = some c) (first : c.moves = front ++ moves) :
    let t := (Machine.run step s (List.replicate front.length .cpu)).1
    (∃ c', t.call = some c' ∧ c'.moves = moves) ∧ t.sent = s.sent ∧ s.stored <+: t.stored := by
  induction front generalizing s c with
  | nil => exact ⟨⟨c, under, first⟩, rfl, List.prefix_refl _⟩
  | cons m front ih =>
    obtain ⟨dst, src⟩ := m
    have moved : (s.step .cpu).1.sent = s.sent ∧
        (s.step .cpu).1.stored = s.stored ++ [(dst, c.buffer src)] ∧
        (s.step .cpu).1.call = some { c with moves := front ++ moves } := by
      rw [step, cpuStep, under]
      dsimp only
      rw [first, List.cons_append]
      exact ⟨rfl, rfl, rfl⟩
    obtain ⟨next, sent, stored⟩ := ih moved.2.2 rfl
    rw [moved.1] at sent
    rw [moved.2.1] at stored
    exact ⟨next, sent, (List.prefix_append _ _).trans stored⟩

/-- A count that wraps with the margin added finds room in a ring that is full, and the fifth byte goes to the
front again. -/
theorem DmaReadSys.enter_wraps {s : DmaReadSys} (rb : s.rb = ⟨100, 8, 4, 0⟩) (ptr : s.dma.ptr = 100)
    (idle : s.call = none) :
    let t := (Machine.run step s [.call (fun _ => 0) 0xFFFFFFFD 1, .cpu, .cpu, .cpu, .cpu]).1
    (∃ c, t.call = some c ∧ c.moves.head? = some (0, 4)) ∧ t.sent = s.sent ∧ s.stored <+: t.stored := by
  have plan : writePlan 8 4 0 0xFFFFFFFD = some ([⟨4, 0, 4⟩, ⟨0, 4, 0xFFFFFFF9⟩], 0xFFFFFFF9) := by decide
  obtain ⟨rest, tail⟩ := Copy.moves_cons ⟨0, 4, 0xFFFFFFF9⟩ (by decide)
  have moves : [⟨4, 0, 4⟩, ⟨0, 4, 0xFFFFFFF9⟩].flatMap Copy.moves =
      (4, 0) :: (5, 1) :: (6, 2) :: (7, 3) :: (0, 4) :: rest := by
    rw [List.flatMap_cons, List.flatMap_cons, tail, List.flatMap_nil, List.append_nil]
    rfl
  have entered : ∃ s', (s.step (.call (fun _ => 0) 0xFFFFFFFD 1)).1 = s' ∧ s'.sent = s.sent ∧
      s'.stored = s.stored ∧
      s'.call = some ⟨(4, 0) :: (5, 1) :: (6, 2) :: (7, 3) :: (0, 4) :: rest, fun _ => 0, 0xFFFFFFF9, 0xFFFFFFFD⟩ := by
    refine ⟨_, rfl, ?_⟩
    have bytes : (0xFFFFFFFD : UInt32) * 1 = 0xFFFFFFFD := rfl
    have some : (0xFFFFFFFD : UInt32) ≠ 0 := by decide
    have start : (100 : UInt32) - 100 = 0 := rfl
    simp only [step, idle, Option.isSome_none, Bool.false_eq_true, if_false, enter, bytes, some,
      rbWriteDmaReadEnter, rb, ptr, start, plan, moves, and_self]
  obtain ⟨s', called, sent, stored, under⟩ := entered
  obtain ⟨⟨c, later, first⟩, sent', stored'⟩ :=
    run_cpu [(4, 0), (5, 1), (6, 2), (7, 3)] under rfl
  rw [← called] at later sent' stored'
  refine ⟨⟨c, later, ?_⟩, sent'.trans (called ▸ sent), ?_⟩
  · rw [first]
    rfl
  · rw [called, stored] at stored'
    rw [← called] at stored'
    exact stored'

/-- Without room for the margin the engine is told to pause in front of the buffer; and where the margin makes
the count wrap, a call is accepted by a ring that is full, and comes to store over the bytes in it. -/
theorem dma_rings_overrun :
    (let wr := (Machine.run DmaWriteSys.step (.init 100 3 fun _ => 0) [.call (fun _ => 0) 1 1, .cpu]).1
     wr.call.isNone ∧ wr.dma.pause = 99) ∧
    let full := (Machine.run DmaReadSys.step (.init 100 8 fun _ => 0)
      [.call (fun i => i.toUInt8) 4 1, .cpu, .cpu, .cpu, .cpu, .cpu]).1
    let rd := (Machine.run DmaReadSys.step full [.call (fun _ => 0) 0xFFFFFFFD 1, .cpu, .cpu, .cpu, .cpu]).1
    ∃ c m, rd.call = some c ∧ c.moves.head? = some m ∧ m.1 ∈ rd.unread.map Prod.fst := by
  refine ⟨by decide, ?_⟩
  intro full rd
  obtain ⟨⟨c, under, first⟩, sent, kept, stored⟩ := DmaReadSys.enter_wraps (s := full) rfl rfl rfl
  refine ⟨c, (0, 4), under, first, ?_⟩
  have none : full.sent = [] := rfl
  change 0 ∈ (rd.stored.drop rd.sent.length).map Prod.fst
  rw [sent, none, ← stored]
  exact List.mem_cons_self

end Bk7251.Audio
