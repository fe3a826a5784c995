import Bk7251.Lib.Bytes
import Bk7251.Video.CameraIntf

/-!
# Which frames arrive whole and marked

A node that is full is passed on by the DMA interrupt, what is left of a frame by the timer, which
marks it as the end. A frame of whole nodes leaves nothing for the timer, and no part of it is marked.
-/
namespace Bk7251.Video

open Lib

/-! ### One run of `tvideo_rx_handler` -/

/-- A slice with bytes in it is queued exactly when there is a free element. -/
theorem rxHandler_spec {s : Tvideo} (idle : s.rx = .idle) (node : NodeFull) :
    (tvideoRxHandler s node).rx = .idle ∧ (tvideoRxHandler s node).nodeLen = s.nodeLen ∧
      ∃ queued, (tvideoRxHandler s node).received = s.received ++ queued ∧
        (∀ packet ∈ queued, packet.param = hdrParam s node) ∧
        (queued = [] ∨ ∃ packet, queued = [packet]) ∧
        (node.newlen ≠ 0 → (queued ≠ [] ↔ s.pool.free ≠ [])) := by
  by_cases none : node.newlen = 0
  · simp [tvideoRxHandler, step, idle, stepRx, none]
  · cases free : s.pool.free with
    | nil => simp [tvideoRxHandler, step, idle, stepRx, none, free]
    | cons elem rest => simp [tvideoRxHandler, step, idle, stepRx, none, free, hdrParam]

/-! ### Inside a frame -/

/-- Nothing of the current frame is marked as its end. -/
structure Unmarked (nodeLen : UInt32) (rxbufLen : UInt16) (s : Camera) : Prop where
  length : s.nodeLen = nodeLen
  size : s.rxbufLen = rxbufLen
  hdl : s.ejpegHdl = true
  idle : s.tvideo.rx = .idle
  node : s.tvideo.nodeLen = nodeLen
  mark : s.mark ≤ s.tvideo.received.length
  slices : ∀ slice ∈ s.slices, slice.isEof = 0
  packets : ∀ packet ∈ s.tvideo.received.drop s.mark, packet.param.isEof = 0

/-- The frame so far is the slices handed on and what the channel has moved of the current node, which
begins at `rx_read_len`. -/
structure Placed (s : Camera) : Prop where
  aligned : s.nodeLen.toNat ∣ s.rxReadLen.toNat
  below : s.rxReadLen.toNat < s.rxbufLen.toNat
  dst : s.dst = s.rxReadLen.toNat + s.received
  moved : s.received < s.nodeLen.toNat
  sofar : s.bytes = (s.slices.map Slice.bytes).flatten ++ s.rxbuf.read s.rxReadLen.toNat s.received
  count : s.bytes.length = s.slices.length * s.nodeLen.toNat + s.received
  inside : ∀ slice ∈ s.slices, slice.offset + slice.len.toNat ≤ s.rxbufLen.toNat

/-- The frames that arrive. -/
def Arrives (nodeLen : UInt32) (rxbufLen : UInt16) (bytes : List UInt8) : Prop :=
  rxbufLen ≠ 0 ∧ bytes.length % nodeLen.toNat ≠ 0 ∧ bytes.length < 2 ^ 32

/-- A frame arrives when it should, and its end is queued when there also is an element for it. -/
def Judged (nodeLen : UInt32) (rxbufLen : UInt16) (frame : Frame) : Prop :=
  (Delivered rxbufLen frame ↔ Arrives nodeLen rxbufLen frame.bytes) ∧
    (Delivered rxbufLen frame ∧ Marked frame ↔
      Arrives nodeLen rxbufLen frame.bytes ∧ frame.room = true)

structure CameraInv (nodeLen : UInt32) (rxbufLen : UInt16) (s : Camera) : Prop where
  unmarked : Unmarked nodeLen rxbufLen s
  placed : rxbufLen ≠ 0 → Placed s
  frames : ∀ frame ∈ s.frames, Judged nodeLen rxbufLen frame

section

variable {nodeLen : UInt32} {rxbufLen : UInt16} {s : Camera}

theorem whole_node_fits {n r total : Nat} (aligned : n ∣ r) (divides : n ∣ total) (below : r < total) :
    r + n ≤ total := by
  obtain ⟨a, rfl⟩ := aligned
  obtain ⟨b, rfl⟩ := divides
  have order : a < b := Nat.lt_of_mul_lt_mul_left below
  calc n * a + n = n * (a + 1) := (Nat.mul_succ n a).symm
    _ ≤ n * b := Nat.mul_le_mul_left n order

theorem ejpegRxHandler_eq (hdl : s.ejpegHdl = true) :
    cameraIntfEjpegRxHandler s =
      { s with
        tvideo := tvideoRxHandler s.tvideo
          ⟨s.rxbuf.shift s.rxReadLen.toNat, s.nodeLen.toUInt16.toUInt32, 0, 0⟩
        slices := s.slices ++ [⟨s.rxReadLen.toNat, s.nodeLen.toUInt16.toUInt32, 0, 0,
          s.rxbuf.read s.rxReadLen.toNat s.nodeLen.toUInt16.toUInt32.toNat⟩]
        rxReadLen := if s.rxReadLen + s.nodeLen.toUInt16 ≥ s.rxbufLen then 0
          else s.rxReadLen + s.nodeLen.toUInt16 } := by
  simp only [cameraIntfEjpegRxHandler, hdl, if_true, nodeFullHandler]

theorem unmarked_ejpegRxHandler (unmarked : Unmarked nodeLen rxbufLen s) :
    Unmarked nodeLen rxbufLen (cameraIntfEjpegRxHandler s) := by
  obtain ⟨rx, node, queued, received, params, -⟩ := rxHandler_spec unmarked.idle
    ⟨s.rxbuf.shift s.rxReadLen.toNat, s.nodeLen.toUInt16.toUInt32, 0, 0⟩
  rw [ejpegRxHandler_eq unmarked.hdl]
  have mark := unmarked.mark
  refine ⟨unmarked.length, unmarked.size, unmarked.hdl, rx, node.trans unmarked.node, ?_, ?_, ?_⟩
  · simp only [received, List.length_append]
    omega
  · intro slice' member
    rcases List.mem_append.mp member with old | new
    · exact unmarked.slices _ old
    · rw [List.mem_singleton.mp new]
  · -- what this call queued comes after the packets before the frame
    simp only [received, List.drop_append_of_le_length mark]
    intro packet member
    rcases List.mem_append.mp member with old | new
    · exact unmarked.packets _ old
    · rw [params _ new]
      rfl

theorem unmarked_dmaByte (unmarked : Unmarked nodeLen rxbufLen s) (byte : UInt8) :
    Unmarked nodeLen rxbufLen (dmaByte s byte) := by
  obtain ⟨length, size, hdl, idle, node, mark, slices, packets⟩ := unmarked
  simp only [dmaByte]
  split
  · exact unmarked_ejpegRxHandler ⟨length, size, hdl, idle, node, mark, slices, packets⟩
  · exact ⟨length, size, hdl, idle, node, mark, slices, packets⟩

/-- The read offset moves on by a node and wraps at the end of the buffer, without overflow. -/
theorem readLen_next (short : s.rxReadLen.toNat + s.nodeLen.toNat < 65536) :
    (s.rxReadLen + s.nodeLen.toUInt16).toNat = s.rxReadLen.toNat + s.nodeLen.toNat ∧
      ((s.rxReadLen + s.nodeLen.toUInt16 ≥ s.rxbufLen) ↔
        s.rxbufLen.toNat ≤ s.rxReadLen.toNat + s.nodeLen.toNat) := by
  have next : (s.rxReadLen + s.nodeLen.toUInt16).toNat = s.rxReadLen.toNat + s.nodeLen.toNat := by
    rw [UInt16.toNat_add, UInt32.toNat_toUInt16]
    omega
  refine ⟨next, ?_⟩
  rw [ge_iff_le, UInt16.le_iff_toNat_le, next]

/-- The bytes of a node are all there, and the handler takes them. -/
theorem placed_nodeFull (unmarked : Unmarked nodeLen rxbufLen s) (placed : Placed s)
    (divides : s.nodeLen.toNat ∣ s.rxbufLen.toNat) {byte : UInt8} (full : s.received + 1 = s.nodeLen.toNat)
    (grown : s.bytes ++ [byte] = (s.slices.map Slice.bytes).flatten ++
      (s.rxbuf.write s.dst [byte]).read s.rxReadLen.toNat (s.received + 1))
    (count : (s.bytes ++ [byte]).length = s.slices.length * s.nodeLen.toNat + (s.received + 1)) :
    Placed (cameraIntfEjpegRxHandler
      { s with
        rxbuf := s.rxbuf.write s.dst [byte]
        bytes := s.bytes ++ [byte]
        dst := if s.dst + 1 ≥ s.rxbufLen.toNat then 0 else s.dst + 1
        received := 0 }) := by
  have moved := placed.moved
  have small := s.rxbufLen.toNat_lt
  have fits := whole_node_fits placed.aligned divides placed.below
  obtain ⟨next, wraps⟩ := readLen_next (s := s) (by omega)
  -- the handler gets the length through 16 bits, which a node that fits the buffer survives
  have copied : s.nodeLen.toUInt16.toUInt32 = s.nodeLen := by
    apply UInt32.toNat_inj.mp
    simp only [UInt16.toNat_toUInt32, UInt32.toNat_toUInt16]
    omega
  rw [ejpegRxHandler_eq (by exact unmarked.hdl)]
  refine ⟨?_, ?_, ?_, ?_, ?_, ?_, ?_⟩
  · simp only [wraps]
    split
    · exact Nat.dvd_zero _
    · rw [next]
      exact Nat.dvd_add placed.aligned (Nat.dvd_refl _)
  · simp only [wraps]
    split
    · simp only [UInt16.toNat_zero]
      omega
    · rw [next]
      omega
  · have dst := placed.dst
    simp only [wraps]
    split <;> split <;> simp only [UInt16.toNat_zero, next] <;> omega
  · simp only
    omega
  · simp only [copied, List.map_append, List.map_cons, List.map_nil, List.flatten_append,
      List.flatten_cons, List.flatten_nil, List.append_nil, Mem.read_zero]
    rw [grown, full, placed.dst]
  · simp only [List.length_append, List.length_singleton] at count ⊢
    rw [count, full, Nat.succ_mul]
    rfl
  · intro slice member
    rcases List.mem_append.mp member with old | new
    · exact placed.inside _ old
    · rw [List.mem_singleton.mp new, copied]
      exact fits

theorem placed_dmaByte (unmarked : Unmarked nodeLen rxbufLen s) (placed : Placed s)
    (divides : nodeLen.toNat ∣ rxbufLen.toNat) (byte : UInt8) : Placed (dmaByte s byte) := by
  rw [← unmarked.length, ← unmarked.size] at divides
  have moved := placed.moved
  have fits := whole_node_fits placed.aligned divides placed.below
  have grown : s.bytes ++ [byte] = (s.slices.map Slice.bytes).flatten ++
      (s.rxbuf.write s.dst [byte]).read s.rxReadLen.toNat (s.received + 1) := by
    rw [placed.dst, Mem.read_write_snoc, placed.sofar, List.append_assoc]
  have count : (s.bytes ++ [byte]).length = s.slices.length * s.nodeLen.toNat + (s.received + 1) := by
    rw [List.length_append, placed.count]
    rfl
  simp only [dmaByte]
  split
  · next full => exact placed_nodeFull unmarked placed divides full grown count
  · next more =>
    refine ⟨placed.aligned, placed.below, ?_, ?_, grown, count, placed.inside⟩
    · -- inside a node the channel does not reach the end of the buffer
      rw [placed.dst, if_neg (by omega)]
      rfl
    · simp only
      omega

/-! ### The end of a frame -/

theorem recLen_eq (s : Camera) : s.nodeLen - leftLen s = UInt32.ofNat s.received := by
  unfold leftLen
  grind

/-- The slice that the timer hands on if there is anything left. -/
def lastSlice (s : Camera) (frameLen : UInt32) : Slice :=
  ⟨s.rxReadLen.toNat, UInt32.ofNat s.received, 1, frameLen,
    s.rxbuf.read s.rxReadLen.toNat (UInt32.ofNat s.received).toNat⟩

theorem delayTimerHdl_slices (hdl : s.ejpegHdl = true) (frameLen : UInt32) :
    (cameraIntfDelayTimerHdl s frameLen).slices =
      s.slices ++ if positive (UInt32.ofNat s.received) then [lastSlice s frameLen] else [] := by
  simp only [cameraIntfDelayTimerHdl, hdl, if_true, recLen_eq, lastSlice]
  split <;> simp [nodeFullHandler]

/-- The end-of-frame handler only counts. -/
theorem delayTimerHdl_tvideo (hdl : s.ejpegHdl = true) (frameLen : UInt32) :
    (cameraIntfDelayTimerHdl s frameLen).tvideo = tvideoEndFrameHandler
      (if positive (UInt32.ofNat s.received) then tvideoRxHandler s.tvideo
        ⟨s.rxbuf.shift s.rxReadLen.toNat, UInt32.ofNat s.received, 1, frameLen⟩ else s.tvideo) := by
  simp only [cameraIntfDelayTimerHdl, hdl, if_true, recLen_eq]
  split <;> rfl

/-- What is left of a frame in its last node. -/
theorem received_eq_mod (placed : Placed s) : s.received = s.bytes.length % s.nodeLen.toNat := by
  rw [placed.count, Nat.mul_add_mod_self_right, Nat.mod_eq_of_lt placed.moved]

/-- A node is short, so what is left in it counts as positive unless there is nothing. -/
theorem positive_received (unmarked : Unmarked nodeLen rxbufLen s) (placed : Placed s)
    (divides : nodeLen.toNat ∣ rxbufLen.toNat) :
    (UInt32.ofNat s.received).toNat = s.received ∧
      (positive (UInt32.ofNat s.received) = true ↔ s.received ≠ 0) := by
  have small := s.rxbufLen.toNat_lt
  rw [← unmarked.length, ← unmarked.size] at divides
  have fits := whole_node_fits placed.aligned divides placed.below
  have moved := placed.moved
  have toNat : (UInt32.ofNat s.received).toNat = s.received := by
    rw [UInt32.toNat_ofNat']
    omega
  refine ⟨toNat, ?_⟩
  rw [positive, decide_eq_true_iff, toNat_ne_zero, UInt32.lt_iff_toNat_lt, toNat]
  exact and_iff_left_of_imp fun _ => by
    simp only [UInt32.reduceToNat]
    omega

theorem pktCnt_last (placed : Placed s) (left : s.received ≠ 0) (short : s.bytes.length < 2 ^ 32)
    (curptr : Mem UInt8) (newlen : UInt32) :
    (pktCnt s.nodeLen ⟨curptr, newlen, 1, UInt32.ofNat s.bytes.length⟩).toNat = s.slices.length + 1 := by
  have length : (UInt32.ofNat s.bytes.length).toNat = s.bytes.length := by
    rw [UInt32.toNat_ofNat']
    omega
  have count := placed.count
  have moved := placed.moved
  have quotient : s.bytes.length / s.nodeLen.toNat = s.slices.length := by
    rw [count, Nat.mul_comm, Nat.mul_add_div (by omega), Nat.div_eq_of_lt moved, Nat.add_zero]
  -- there is a rest, so the count is one more than the whole nodes
  have rest : UInt32.ofNat s.bytes.length % s.nodeLen ≠ 0 := by
    rw [toNat_ne_zero, UInt32.toNat_mod, length, ← received_eq_mod placed]
    exact left
  have bound : s.slices.length ≤ s.slices.length * s.nodeLen.toNat :=
    Nat.le_mul_of_pos_right _ (by omega)
  have isEof : (1 : UInt32) ≠ 0 := by decide
  rw [pktCnt, if_neg isEof, if_neg rest, UInt32.toNat_add, UInt32.toNat_div, length, quotient]
  simp only [UInt32.toNat_one]
  omega

/-- The frame that the timer closes. -/
def closedFrame (s : Camera) : Frame :=
  let s' := cameraIntfDelayTimerHdl s (UInt32.ofNat s.bytes.length)
  ⟨s.bytes, s'.slices, s'.tvideo.received.drop s.mark, !s.tvideo.pool.free.isEmpty⟩

/-- Only the timer marks a slice. -/
theorem closedFrame_marks (unmarked : Unmarked nodeLen rxbufLen s)
    (delivered : Delivered rxbufLen (closedFrame s)) :
    positive (UInt32.ofNat s.received) = true ∧ rxbufLen ≠ 0 ∧ s.bytes.length < 2 ^ 32 := by
  obtain ⟨slices, last, parts, -, marked, length⟩ := delivered.eof
  have made : (closedFrame s).slices = _ := delayTimerHdl_slices unmarked.hdl _
  by_cases left : positive (UInt32.ofNat s.received) = true
  · rw [if_pos left] at made
    have same : last = lastSlice s (UInt32.ofNat s.bytes.length) :=
      (List.append_inj' (parts.symm.trans made) rfl).2 |> List.singleton_injective
    subst same
    refine ⟨left, ?_, ?_⟩
    · -- without room in the buffer the slice would lie outside
      rintro rfl
      have inside := delivered.inside _ (by rw [parts]; exact List.mem_append_right _ List.mem_cons_self)
      rw [positive, decide_eq_true_iff, toNat_ne_zero] at left
      simp only [lastSlice, UInt16.toNat_zero] at inside
      omega
    · have bound := (UInt32.ofNat s.bytes.length).toNat_lt
      simp only [lastSlice, closedFrame] at length
      omega
  · rw [if_neg left, List.append_nil] at made
    -- nothing is left, so the last slice came from the interrupt, unmarked
    have member : last ∈ s.slices := by
      rw [← made, parts]
      exact List.mem_append_right _ List.mem_cons_self
    have old := unmarked.slices last member
    rw [old] at marked
    exact absurd marked (by decide)

theorem closedFrame_delivered (unmarked : Unmarked nodeLen rxbufLen s)
    (placed : rxbufLen ≠ 0 → Placed s) (divides : nodeLen.toNat ∣ rxbufLen.toNat) :
    Delivered rxbufLen (closedFrame s) ↔ Arrives nodeLen rxbufLen s.bytes := by
  constructor
  · intro delivered
    obtain ⟨left, room, short⟩ := closedFrame_marks unmarked delivered
    have at_ := placed room
    refine ⟨room, ?_, short⟩
    rw [← unmarked.length, ← received_eq_mod at_]
    exact (positive_received unmarked at_ divides).2.mp left
  · rintro ⟨room, rest, short⟩
    have at_ := placed room
    rw [← unmarked.length, ← received_eq_mod at_] at rest
    obtain ⟨toNat, left⟩ := positive_received unmarked at_ divides
    have made : (closedFrame s).slices = _ := delayTimerHdl_slices unmarked.hdl _
    rw [if_pos (left.mpr rest)] at made
    refine ⟨?_, ?_, s.slices, _, made, unmarked.slices, rfl, ?_⟩
    · intro slice member
      rw [made] at member
      rcases List.mem_append.mp member with old | new
      · rw [← unmarked.size]
        exact at_.inside _ old
      · rw [List.mem_singleton.mp new]
        have fits := whole_node_fits at_.aligned
          (by rw [unmarked.length, unmarked.size]; exact divides) at_.below
        have moved := at_.moved
        rw [← unmarked.size]
        simp only [lastSlice, toNat]
        omega
    · rw [made]
      simp only [lastSlice, toNat, List.map_append, List.map_cons, List.map_nil, List.flatten_append,
        List.flatten_cons, List.flatten_nil, List.append_nil]
      exact at_.sofar.symm
    · simp only [lastSlice, closedFrame]
      rw [UInt32.toNat_ofNat']
      omega

/-- The last slice is queued exactly when the pool has an element for it. -/
theorem closedFrame_marked (unmarked : Unmarked nodeLen rxbufLen s) (placed : Placed s)
    (left : positive (UInt32.ofNat s.received) = true) (some : s.received ≠ 0)
    (short : s.bytes.length < 2 ^ 32) :
    Marked (closedFrame s) ↔ (closedFrame s).room = true := by
  have slices : (closedFrame s).slices = _ := delayTimerHdl_slices unmarked.hdl _
  have pool := delayTimerHdl_tvideo unmarked.hdl (UInt32.ofNat s.bytes.length)
  rw [if_pos left] at slices pool
  obtain ⟨-, -, queued, received, params, single, room⟩ := rxHandler_spec unmarked.idle
    ⟨s.rxbuf.shift s.rxReadLen.toNat, UInt32.ofNat s.received, 1, UInt32.ofNat s.bytes.length⟩
  have newlen : UInt32.ofNat s.received ≠ 0 := (decide_eq_true_iff.mp left).1
  have made : (closedFrame s).queued = s.tvideo.received.drop s.mark ++ queued := by
    simp only [closedFrame, pool, tvideoEndFrameHandler, received,
      List.drop_append_of_le_length unmarked.mark]
  have free : (closedFrame s).room = true ↔ s.tvideo.pool.free ≠ [] := by
    simp [closedFrame]
  rw [free, ← room newlen]
  constructor
  · rintro ⟨packets, last, parts, -, marked, -⟩ none
    rw [made, none, List.append_nil] at parts
    -- without an element the last packet queued is one of the earlier ones
    have old := unmarked.packets last (by rw [parts]; exact List.mem_append_right _ List.mem_cons_self)
    rw [old] at marked
    exact absurd marked (by decide)
  · intro queued_ne
    obtain ⟨packet, rfl⟩ := single.resolve_left queued_ne
    have param := params packet List.mem_cons_self
    refine ⟨_, packet, made, unmarked.packets, by rw [param]; rfl, ?_⟩
    rw [param, slices, List.length_append]
    simp only [hdrParam, unmarked.node, ← unmarked.length]
    exact pktCnt_last placed some short _ _

theorem closedFrame_judged (unmarked : Unmarked nodeLen rxbufLen s) (placed : rxbufLen ≠ 0 → Placed s)
    (divides : nodeLen.toNat ∣ rxbufLen.toNat) : Judged nodeLen rxbufLen (closedFrame s) := by
  have delivered := closedFrame_delivered unmarked placed divides
  refine ⟨delivered, ?_⟩
  have marked (arrives : Arrives nodeLen rxbufLen s.bytes) :
      Marked (closedFrame s) ↔ (closedFrame s).room = true := by
    obtain ⟨room, rest, short⟩ := arrives
    have at_ := placed room
    rw [← unmarked.length, ← received_eq_mod at_] at rest
    exact closedFrame_marked unmarked at_ ((positive_received unmarked at_ divides).2.mpr rest) rest short
  rw [delivered]
  exact and_congr_right marked

/-! ### Every frame of a run -/

theorem unmarked_frameEnd (unmarked : Unmarked nodeLen rxbufLen s) :
    Unmarked nodeLen rxbufLen (cameraStep s .frameEnd) := by
  have fields : ∀ frameLen, (cameraIntfDelayTimerHdl s frameLen).nodeLen = s.nodeLen ∧
      (cameraIntfDelayTimerHdl s frameLen).rxbufLen = s.rxbufLen ∧
      (cameraIntfDelayTimerHdl s frameLen).ejpegHdl = s.ejpegHdl := fun frameLen => by
    simp only [cameraIntfDelayTimerHdl, unmarked.hdl, if_true]
    split <;> exact ⟨rfl, rfl, unmarked.hdl⟩
  obtain ⟨length, size, hdl⟩ := fields (UInt32.ofNat s.bytes.length)
  have pool := delayTimerHdl_tvideo unmarked.hdl (UInt32.ofNat s.bytes.length)
  have settled : (cameraStep s .frameEnd).tvideo.rx = .idle ∧
      (cameraStep s .frameEnd).tvideo.nodeLen = s.tvideo.nodeLen := by
    simp only [cameraStep, pool, tvideoEndFrameHandler]
    split
    · obtain ⟨rx, node, -⟩ := rxHandler_spec unmarked.idle
        ⟨s.rxbuf.shift s.rxReadLen.toNat, UInt32.ofNat s.received, 1, UInt32.ofNat s.bytes.length⟩
      exact ⟨rx, node⟩
    · exact ⟨unmarked.idle, rfl⟩
  refine ⟨length.trans unmarked.length, size.trans unmarked.size, hdl.trans unmarked.hdl, settled.1,
    settled.2.trans unmarked.node, Nat.le_refl _, (fun _ none => nomatch none), fun packet member => ?_⟩
  simp only [cameraStep, List.drop_length] at member
  nomatch member

/-- The timer puts the channel back to the start of the buffer. -/
theorem placed_frameEnd (unmarked : Unmarked nodeLen rxbufLen s)
    (divides : nodeLen.toNat ∣ rxbufLen.toNat) (size : rxbufLen ≠ 0) :
    Placed (cameraStep s .frameEnd) := by
  have after := unmarked_frameEnd unmarked
  have positive : 0 < rxbufLen.toNat := Nat.pos_of_ne_zero fun zero => size (UInt16.toNat_inj.mp zero)
  have node : 0 < nodeLen.toNat := Nat.pos_of_dvd_of_pos divides positive
  have start : (cameraStep s .frameEnd).rxReadLen = 0 ∧ (cameraStep s .frameEnd).dst = 0 ∧
      (cameraStep s .frameEnd).received = 0 := by
    simp only [cameraStep, cameraIntfDelayTimerHdl, unmarked.hdl, if_true]
    exact ⟨trivial, trivial, trivial⟩
  obtain ⟨rxReadLen, dst, received⟩ := start
  refine ⟨?_, ?_, ?_, ?_, ?_, ?_, (fun _ none => nomatch none)⟩
  · rw [rxReadLen]
    exact Nat.dvd_zero _
  · rw [rxReadLen, after.size]
    exact positive
  · rw [dst, rxReadLen, received]
    rfl
  · rw [received, after.length]
    exact node
  · rw [received]
    rfl
  · rw [received]
    simp only [cameraStep, List.length_nil, Nat.zero_mul, Nat.add_zero]

/-- The video thread takes packets away, it adds none. -/
theorem stepPoll_keeps (t : Tvideo) (sendLen : UInt32) : (stepPoll t sendLen).rx = t.rx ∧
    (stepPoll t sendLen).nodeLen = t.nodeLen ∧ (stepPoll t sendLen).received = t.received := by
  unfold stepPoll
  repeat' split
  all_goals exact ⟨rfl, rfl, rfl⟩

theorem callPoll_keeps (t : Tvideo) : (step t .callPoll).rx = t.rx ∧
    (step t .callPoll).nodeLen = t.nodeLen ∧ (step t .callPoll).received = t.received := by
  simp only [step]
  split <;> exact ⟨rfl, rfl, rfl⟩

theorem CameraInv.thread (inv : CameraInv nodeLen rxbufLen s) {tvideo : Tvideo}
    (keeps : tvideo.rx = s.tvideo.rx ∧ tvideo.nodeLen = s.tvideo.nodeLen ∧
      tvideo.received = s.tvideo.received) : CameraInv nodeLen rxbufLen { s with tvideo } := by
  obtain ⟨⟨length, size, hdl, idle, node, mark, slices, packets⟩, placed, frames⟩ := inv
  obtain ⟨rx, nodeLen, received⟩ := keeps
  refine ⟨⟨length, size, hdl, rx.trans idle, nodeLen.trans node, ?_, slices, ?_⟩, fun room => ?_, frames⟩
  · rw [received]
    exact mark
  · rw [received]
    exact packets
  · obtain ⟨aligned, below, dst, moved, sofar, count, inside⟩ := placed room
    exact ⟨aligned, below, dst, moved, sofar, count, inside⟩

theorem cameraInv_step (inv : CameraInv nodeLen rxbufLen s) (divides : nodeLen.toNat ∣ rxbufLen.toNat)
    (e : CameraEvent) : CameraInv nodeLen rxbufLen (cameraStep s e) := by
  cases e with
  | byte byte =>
    refine ⟨unmarked_dmaByte inv.unmarked byte,
      fun room => placed_dmaByte inv.unmarked (inv.placed room) divides byte, ?_⟩
    have same : (cameraStep s (.byte byte)).frames = s.frames := by
      simp only [cameraStep, dmaByte]
      split
      · rw [ejpegRxHandler_eq (by exact inv.unmarked.hdl)]
      · rfl
    rw [same]
    exact inv.frames
  | frameEnd =>
    refine ⟨unmarked_frameEnd inv.unmarked, placed_frameEnd inv.unmarked divides, ?_⟩
    intro frame member
    rcases List.mem_append.mp member with old | new
    · exact inv.frames _ old
    · rw [List.mem_singleton.mp new]
      exact closedFrame_judged inv.unmarked inv.placed divides
  | callPoll => exact inv.thread (callPoll_keeps s.tvideo)
  | poll sendLen => exact inv.thread (stepPoll_keeps s.tvideo sendLen)

theorem cameraInv_start (setup : Setup) (rxbuf : Mem UInt8) (divides : nodeLen.toNat ∣ rxbufLen.toNat) :
    CameraInv nodeLen rxbufLen (cameraStart setup rxbuf nodeLen rxbufLen) := by
  refine ⟨⟨rfl, rfl, rfl, rfl, rfl, Nat.le_refl _, (fun _ none => nomatch none),
    (fun _ none => nomatch none)⟩,
    fun room => ?_, (fun _ none => nomatch none)⟩
  have positive : 0 < rxbufLen.toNat := Nat.pos_of_ne_zero fun zero => room (UInt16.toNat_inj.mp zero)
  exact ⟨Nat.dvd_zero _, positive, rfl, Nat.pos_of_dvd_of_pos divides positive, rfl,
    (Nat.zero_mul _).symm, (fun _ none => nomatch none)⟩

theorem cameraInv_run (setup : Setup) (rxbuf : Mem UInt8) (divides : nodeLen.toNat ∣ rxbufLen.toNat)
    (events : List CameraEvent) :
    CameraInv nodeLen rxbufLen (events.foldl cameraStep (cameraStart setup rxbuf nodeLen rxbufLen)) := by
  have initial := cameraInv_start setup rxbuf divides
  generalize cameraStart setup rxbuf nodeLen rxbufLen = s at initial ⊢
  induction events generalizing s with
  | nil => exact initial
  | cons e events ih => exact ih _ (cameraInv_step initial divides e)

end

/-- Of every frame in a run: its slices make it up and its end is marked exactly when it does not end with
a node, and the mark is on the last packet queued exactly when there was a free element for it as well.
The buffer must have room and the length must fit its register. -/
theorem frame_delivered_iff (setup : Setup) (rxbuf : Mem UInt8) (nodeLen : UInt32) (rxbufLen : UInt16)
    (divides : nodeLen.toNat ∣ rxbufLen.toNat) (events : List CameraEvent) :
    ∀ frame ∈ (events.foldl cameraStep (cameraStart setup rxbuf nodeLen rxbufLen)).frames,
      (Delivered rxbufLen frame ↔ Arrives nodeLen rxbufLen frame.bytes) ∧
      (Delivered rxbufLen frame ∧ Marked frame ↔
        Arrives nodeLen rxbufLen frame.bytes ∧ frame.room = true) :=
  (cameraInv_run setup rxbuf divides events).frames

/-- Packets over TCP, without a header of their own. -/
def tcpSetup : Setup := ⟨TVIDEO_SND_TCP, true, 0, none⟩

/-- A frame of three bytes. -/
def shortFrame : List CameraEvent := [.byte 1, .byte 2, .byte 3, .frameEnd]

theorem frame_delivered_iff_short :
    ∃ frame ∈ (shortFrame.foldl cameraStep (cameraStart tcpSetup (fun _ => 0) 1460 5840)).frames,
      frame.bytes = [1, 2, 3] ∧ Delivered 5840 frame ∧ Marked frame := by
  refine ⟨_, List.mem_cons_self, rfl, ?_⟩
  have judged := frame_delivered_iff tcpSetup (fun _ => 0) 1460 5840 (by decide) shortFrame _
    List.mem_cons_self
  exact judged.2.mpr ⟨⟨by decide, by decide, by decide⟩, rfl⟩

theorem bytes_run (bytes : List UInt8) (s : Camera) :
    ((bytes.map CameraEvent.byte).foldl cameraStep s).bytes = s.bytes ++ bytes := by
  induction bytes generalizing s with
  | nil => exact (List.append_nil _).symm
  | cons b bytes ih =>
    have grown : (cameraStep s (.byte b)).bytes = s.bytes ++ [b] := by
      simp only [cameraStep, dmaByte, cameraIntfEjpegRxHandler, nodeFullHandler]
      repeat' split
      all_goals rfl
    rw [List.map_cons, List.foldl_cons, ih, grown, List.append_assoc]
    rfl

/-- A frame of exactly one node: no slice of it says that it is over. -/
theorem whole_node_frame_unmarked :
    ∃ frame ∈ (((List.replicate 1460 0).map CameraEvent.byte ++ [CameraEvent.frameEnd]).foldl cameraStep
        (cameraStart tcpSetup (fun _ => 0) 1460 5840)).frames,
      frame.bytes.length = 1460 ∧ ¬ Delivered 5840 frame := by
  -- the 1460 bytes are not run one by one: the invariant says what they come to
  have inv : CameraInv 1460 5840 _ := cameraInv_run tcpSetup (fun _ => 0) (by decide)
    ((List.replicate 1460 0).map CameraEvent.byte)
  have bytes := bytes_run (List.replicate 1460 0) (cameraStart tcpSetup (fun _ => 0) 1460 5840)
  rw [List.foldl_append]
  generalize ((List.replicate 1460 0).map CameraEvent.byte).foldl cameraStep
    (cameraStart tcpSetup (fun _ => 0) 1460 5840) = s at inv bytes ⊢
  have length : (closedFrame s).bytes.length = 1460 := by
    simp only [closedFrame, bytes, cameraStart, List.nil_append, List.length_replicate]
  refine ⟨closedFrame s, List.mem_append_right _ List.mem_cons_self, length, fun delivered => ?_⟩
  have arrives := (closedFrame_judged inv.unmarked inv.placed (by decide)).1.mp delivered
  exact arrives.2.1 (by rw [length]; rfl)

end Bk7251.Video
