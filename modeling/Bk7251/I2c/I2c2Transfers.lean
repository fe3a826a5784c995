import Bk7251.I2c.I2c2Addressing
import Bk7251.Lib.Bytes

/-!
# The data of a transfer

How many bytes one interrupt moves, and from it, by induction on what is left by the 8-bit count, what all
the interrupts of a transfer move.
-/
namespace Bk7251.I2c2

open Lib
open I2c (I2cOp BusEvent)

variable {hw : Controller} {slave : Slave} {fuel : Nat} {s : State}

theorem fifoEmptyNum_le (intMode : BitVec 2) :
    0 < (fifoEmptyNum intMode).toNat ∧ (fifoEmptyNum intMode).toNat ≤ FIFO_DEPTH := by
  unfold fifoEmptyNum
  split_ifs <;> decide

theorem fifoDataNum_le (intMode : BitVec 2) :
    0 < (fifoDataNum intMode).toNat ∧ (fifoDataNum intMode).toNat ≤ 12 := by
  unfold fifoDataNum
  split_ifs <;> decide

/-- The count is kept modulo 256. -/
theorem toNat_remainDataCnt (few : s.gi2c2.currentNum.toNat ≤ s.gi2c2.allDataNum.toNat) :
    (remainDataCnt s).toNat = (s.gi2c2.allDataNum.toNat - s.gi2c2.currentNum.toNat) % 256 := by
  have le : s.gi2c2.currentNum ≤ s.gi2c2.allDataNum := UInt32.le_iff_toNat_le.mpr few
  rw [remainDataCnt, UInt32.toNat_toUInt8, UInt32.toNat_sub_of_le _ _ le]

theorem toNat_succ {x : UInt32} {k : Nat} (fits : x.toNat + (k + 1) < 2 ^ 32) :
    (x + 1).toNat = x.toNat + 1 := by
  have one : (1 : UInt32).toNat = 1 := rfl
  rw [UInt32.toNat_add, one]
  omega

/-! ### Sending -/

/-- The loop, when there is room. -/
theorem putBytes_eq (k : Nat) {s : State} (room : s.txFifo.length + k ≤ FIFO_DEPTH)
    (fits : s.gi2c2.currentNum.toNat + k < 2 ^ 32) :
    putBytes k s = { s with
      txFifo := s.txFifo ++ s.userBuf.read s.gi2c2.currentNum.toNat k
      touched := s.touched ++ List.range' s.gi2c2.currentNum.toNat k
      gi2c2.currentNum := s.gi2c2.currentNum + UInt32.ofNat k } := by
  induction k generalizing s with
  | zero => simp [putBytes]
  | succ k ih =>
    have place : s.txFifo.length < FIFO_DEPTH := by omega
    -- the next byte is taken behind this one
    have later := toNat_succ fits
    rw [putBytes, putDat, if_pos place, ih]
    · simp [later, read_succ, List.range'_succ, add_ofNat_succ]
    · rw [List.length_append, List.length_singleton]
      omega
    · rw [later]
      omega

/-- The bytes for the bus from the last one of the address on, which is number `n`. -/
def dataLine (n : Nat) (byte : UInt8) (userBuf : Mem UInt8) : Mem UInt8 :=
  fun i => if i ≤ n then byte else userBuf (i - (n + 1))

theorem dataLine_read (n : Nat) (byte : UInt8) (userBuf : Mem UInt8) (cur k : Nat) :
    (dataLine n byte userBuf).read (n + 1 + cur) k = userBuf.read cur k := by
  apply List.map_congr_left
  intro i _
  have beyond : ¬ n + 1 + cur + i ≤ n := by omega
  have offset : n + 1 + cur + i - (n + 1) = cur + i := by omega
  rw [dataLine, if_neg beyond, offset]

theorem dataLine_first (n : Nat) (byte : UInt8) (userBuf : Mem UInt8) :
    (dataLine n byte userBuf).read n 1 = [byte] := by
  simp [Mem.read, dataLine]

section
variable {al ia : Bool} {count : UInt32} {userBuf : Mem UInt8} {n : Nat} {byte : UInt8}
variable {bus : List BusEvent} {cur : Nat}

/-- `cur` bytes of the buffer are in the FIFO or on the bus, and the FIFO is not empty. -/
structure Filling (slave : Slave) (al ia : Bool) (count : UInt32) (userBuf : Mem UInt8) (n : Nat)
    (byte : UInt8) (bus : List BusEvent) (cur : Nat) (s : State) : Prop where
  wkMode : s.gi2c2.wkMode = workMode false al ia
  ackCheck : s.gi2c2.ackCheck = 1
  addressed : s.gi2c2.addrFlag &&& 0x10 ≠ 0
  busy : s.gi2c2.transDone = 0
  allDataNum : s.gi2c2.allDataNum = count
  currentNum : s.gi2c2.currentNum.toNat = cur
  few : cur ≤ count.toNat % 256
  sto : s.stat.sto = false
  behind : n ≤ s.sent
  pending : s.sent < n + 1 + cur
  txFifo : s.txFifo = (dataLine n byte userBuf).read s.sent (n + 1 + cur - s.sent)
  -- the last interrupt has to wait for all bytes
  empties : cur = count.toNat % 256 → s.stat.intMode = 0 ∨ s.sent = n + cur
  bus : busNow s = bus ++ sentBytes slave (dataLine n byte userBuf) n (s.sent - n)
  userBuf : s.userBuf = userBuf
  touched : s.touched = List.range' 0 cur

/-- The same at the interrupt, with the byte that it is about. -/
structure Drained (slave : Slave) (al ia : Bool) (count : UInt32) (userBuf : Mem UInt8) (n : Nat)
    (byte : UInt8) (bus : List BusEvent) (cur : Nat) (s : State) : Prop where
  wkMode : s.gi2c2.wkMode = workMode false al ia
  ackCheck : s.gi2c2.ackCheck = 1
  addressed : s.gi2c2.addrFlag &&& 0x10 ≠ 0
  busy : s.gi2c2.transDone = 0
  allDataNum : s.gi2c2.allDataNum = count
  currentNum : s.gi2c2.currentNum.toNat = cur
  few : cur ≤ count.toNat % 256
  sto : s.stat.sto = false
  si : s.stat.si = true
  ack : s.stat.ack = slave.ack (s.sent - 1)
  behind : n < s.sent
  within : s.sent ≤ n + 1 + cur
  txFifo : s.txFifo = (dataLine n byte userBuf).read s.sent (n + 1 + cur - s.sent)
  room : s.stat.ack = true → n + 1 + cur - s.sent ≤ FIFO_DEPTH - (fifoEmptyNum s.stat.intMode).toNat
  empty : s.stat.ack = true → cur = count.toNat % 256 → s.sent = n + 1 + cur
  bus : s.bus = bus ++ sentBytes slave (dataLine n byte userBuf) n (s.sent - n)
  userBuf : s.userBuf = userBuf
  touched : s.touched = List.range' 0 cur

theorem Filling.drained (hw : Controller) (filling : Filling slave al ia count userBuf n byte bus cur s) :
    Drained slave al ia count userBuf n byte bus cur (busTurn hw slave s) := by
  have behind := filling.behind
  have pending := filling.pending
  obtain ⟨j, most, some, room, turned⟩ := busTurn_eq hw slave _ filling.txFifo
  -- the FIFO is not empty, so a byte goes out before the interrupt
  have positive : 0 < j := some (by omega)
  have ack : (atInterrupt slave (dataLine n byte userBuf) (n + 1 + cur - s.sent) j s).stat.ack =
      slave.ack (s.sent + j - 1) := if_neg (Nat.ne_of_gt positive)
  rw [turned]
  constructor
  · exact filling.wkMode
  · exact filling.ackCheck
  · exact filling.addressed
  · exact filling.busy
  · exact filling.allDataNum
  · exact filling.currentNum
  · exact filling.few
  · exact filling.sto
  · rfl
  · exact ack
  · exact Nat.lt_of_le_of_lt behind (Nat.lt_add_of_pos_right positive)
  · simp only [atInterrupt]
    omega
  · simp only [atInterrupt]
    rw [Nat.sub_sub]
  · intro acknowledged
    rw [ack] at acknowledged
    rcases room with room | refused
    · simp only [atInterrupt]
      omega
    · cases acknowledged.symm.trans refused
  · intro acknowledged all
    rw [ack] at acknowledged
    simp only [atInterrupt]
    rcases filling.empties all with level | single
    · rcases room with room | refused
      · -- with the level of an empty FIFO nothing is left
        have none : FIFO_DEPTH - (fifoEmptyNum s.stat.intMode).toNat = 0 := by
          rw [level]
          rfl
        omega
      · cases acknowledged.symm.trans refused
    · omega
  · have split : s.sent + j - n = (s.sent - n) + j := by omega
    have position : n + (s.sent - n) = s.sent := by omega
    simp only [atInterrupt]
    rw [filling.bus, split, sentBytes_add, position, List.append_assoc]
  · exact filling.userBuf
  · exact filling.touched

/-- The smaller of the two counts, and what is left after it. -/
theorem dataNum_cases {remain : UInt8} (fifoEmpty : UInt8) {r : Nat} (toNat : remain.toNat = r) :
    (if remain < fifoEmpty then remain else fifoEmpty).toNat = min r fifoEmpty.toNat ∧
    (remain - if remain < fifoEmpty then remain else fifoEmpty).toNat = r - fifoEmpty.toNat := by
  split
  next less =>
    rw [UInt8.lt_iff_toNat_lt] at less
    rw [UInt8.sub_self, UInt8.toNat_zero]
    omega
  next more =>
    rw [UInt8.lt_iff_toNat_lt] at more
    have le : fifoEmpty ≤ remain := UInt8.le_iff_toNat_le.mpr (Nat.not_lt.mp more)
    rw [UInt8.toNat_sub_of_le _ _ le]
    omega

namespace Drained

theorem isr (drained : Drained slave al ia count userBuf n byte bus cur s) :
    i2c2Isr slave s =
      let r := masterWrite s { s.stat with sta := false }
      { r.1 with stat := { r.2 with si := false } } :=
  isr_master slave drained.wkMode drained.si

theorem refused (drained : Drained slave al ia count userBuf n byte bus cur s) (nack : s.stat.ack = false) :
    Finished (workMode false al ia) (bus ++ sentBytes slave (dataLine n byte userBuf) n (s.sent - n)) userBuf
      (List.range' 0 cur) (i2c2Isr slave s) := by
  rw [isr_refused false al ia drained.wkMode drained.si drained.ackCheck nack (.inl rfl)]
  exact ⟨drained.wkMode, rfl, rfl, drained.bus, drained.userBuf, drained.touched⟩

/-- The interrupt behind the address, when the byte is acknowledged. -/
theorem data (drained : Drained slave al ia count userBuf n byte bus cur s) (acknowledged : s.stat.ack = true) :
    masterWrite s { s.stat with sta := false } =
      if remainDataCnt s = 0 then
        ({ s with gi2c2.transDone := 1 }, { s.stat with sta := false, sto := true })
      else
        let fifoEmpty := fifoEmptyNum s.stat.intMode
        let dataNum := if remainDataCnt s < fifoEmpty then remainDataCnt s else fifoEmpty
        (putBytes dataNum.toNat s,
          if remainDataCnt s - dataNum < fifoEmpty then { s.stat with sta := false, intMode := 0 }
          else { s.stat with sta := false }) := by
  have passes : ¬ (s.gi2c2.ackCheck ≠ 0 ∧ s.stat.ack = false) := by
    rw [acknowledged]
    exact fun refused => Bool.noConfusion refused.2
  rw [masterWrite, if_neg passes, if_pos drained.addressed]

theorem toNat_remain (drained : Drained slave al ia count userBuf n byte bus cur s) :
    (remainDataCnt s).toNat = count.toNat % 256 - cur := by
  have few := drained.few
  have current := drained.currentNum
  -- `cur` is at most the count modulo 256, so the difference does not wrap
  rw [toNat_remainDataCnt (by rw [current, drained.allDataNum]; omega), current, drained.allDataNum]
  omega

theorem last (drained : Drained slave al ia count userBuf n byte bus cur s) (acknowledged : s.stat.ack = true)
    (all : cur = count.toNat % 256) :
    Finished (workMode false al ia)
      (bus ++ sentBytes slave (dataLine n byte userBuf) n (count.toNat % 256 + 1)) userBuf
      (List.range' 0 cur) (i2c2Isr slave s) := by
  have none : remainDataCnt s = 0 := by
    apply UInt8.toNat_inj.mp
    rw [drained.toNat_remain, all, Nat.sub_self]
    rfl
  -- this interrupt has found the FIFO empty
  have length : s.sent - n = count.toNat % 256 + 1 := by
    have sent := drained.empty acknowledged all
    omega
  rw [drained.isr, drained.data acknowledged, if_pos none, ← length]
  exact ⟨drained.wkMode, rfl, rfl, drained.bus, drained.userBuf, drained.touched⟩

theorem fill (drained : Drained slave al ia count userBuf n byte bus cur s) (acknowledged : s.stat.ack = true)
    (more : cur ≠ count.toNat % 256) :
    ∃ k, 0 < k ∧ Filling slave al ia count userBuf n byte bus (cur + k) (i2c2Isr slave s) := by
  have few := drained.few
  have behind := drained.behind
  have within := drained.within
  have remain := drained.toNat_remain
  have some : remainDataCnt s ≠ 0 := by
    intro none
    rw [none, UInt8.toNat_zero] at remain
    omega
  obtain ⟨positive, level⟩ := fifoEmptyNum_le s.stat.intMode
  obtain ⟨number, left⟩ := dataNum_cases (fifoEmptyNum s.stat.intMode) remain
  rw [drained.isr, drained.data acknowledged, if_neg some]
  simp only
  rw [number]
  generalize dataNum : min (count.toNat % 256 - cur) (fifoEmptyNum s.stat.intMode).toNat = k
  -- the level has made room for the batch
  have room : s.txFifo.length + k ≤ FIFO_DEPTH := by
    have room := drained.room acknowledged
    rw [drained.txFifo, Mem.length_read]
    omega
  have fits : s.gi2c2.currentNum.toNat + k < 2 ^ 32 := by
    rw [drained.currentNum]
    omega
  have next : (s.gi2c2.currentNum + UInt32.ofNat k).toNat = cur + k := by
    rw [drained.currentNum] at fits
    rw [UInt32.toNat_add, drained.currentNum, UInt32.toNat_ofNat']
    omega
  -- a new level changes neither the start nor the stop
  have flags (c : Prop) [Decidable c] :
      (if c then { s.stat with sta := false, intMode := 0 } else { s.stat with sta := false } : Status).sto =
        false ∧
      (if c then { s.stat with sta := false, intMode := 0 } else { s.stat with sta := false } : Status).sta =
        false := by
    split <;> exact ⟨drained.sto, rfl⟩
  rw [putBytes_eq k room fits]
  refine ⟨k, by omega, ?_⟩
  constructor
  · exact drained.wkMode
  · exact drained.ackCheck
  · exact drained.addressed
  · exact drained.busy
  · exact drained.allDataNum
  · exact next
  · omega
  · exact (flags _).1
  · exact Nat.le_of_lt behind
  · simp only
    omega
  · -- the bytes behind those that are still in the FIFO
    have length : n + 1 + (cur + k) - s.sent = (n + 1 + cur - s.sent) + k := by omega
    have position : s.sent + (n + 1 + cur - s.sent) = n + 1 + cur := by omega
    simp only
    rw [length, Mem.read_add, position, dataLine_read, drained.txFifo, drained.currentNum, drained.userBuf]
  · intro all
    have few : remainDataCnt s - (if remainDataCnt s < fifoEmptyNum s.stat.intMode then remainDataCnt s
        else fifoEmptyNum s.stat.intMode) < fifoEmptyNum s.stat.intMode := by
      rw [UInt8.lt_iff_toNat_lt, left]
      omega
    rw [if_pos few]
    exact .inl rfl
  · rw [busNow, (flags _).2]
    exact (List.append_nil _).trans drained.bus
  · exact drained.userBuf
  · have joined := List.range'_append_1 (s := 0) (m := cur) (n := k)
    rw [Nat.zero_add] at joined
    simp only
    rw [drained.touched, drained.currentNum, joined]

end Drained

/-- All turns that are left, by induction on the bytes that are still in the buffer. -/
theorem Filling.waitBusy (hw : Controller) (filling : Filling slave al ia count userBuf n byte bus cur s)
    {fuel : Nat} (enough : count.toNat % 256 - cur < fuel) :
    ∃ t i used, waitBusy hw slave fuel s = some t ∧ i ≤ count.toNat % 256 + 1 ∧ used ≤ count.toNat % 256 ∧
      (i = count.toNat % 256 + 1 ∨ 0 < i ∧ slave.ack (n + i - 1) = false) ∧
      Stopped (workMode false al ia) (bus ++ sentBytes slave (dataLine n byte userBuf) n i) userBuf
        (List.range' 0 used) t := by
  induction fuel generalizing cur s with
  | zero => exact absurd enough (Nat.not_lt_zero _)
  | succ fuel ih =>
    have drained := filling.drained hw
    have few := filling.few
    rw [waitBusy_turn filling.busy filling.sto]
    cases acknowledged : (busTurn hw slave s).stat.ack with
    | false =>
      -- the byte that went out last is refused
      obtain ⟨t, waited, stopped⟩ := (drained.refused acknowledged).waitBusy hw slave fuel
      have within := drained.within
      have behind := drained.behind
      refine ⟨t, _, cur, waited, by omega, few, .inr ⟨Nat.sub_pos_of_lt behind, ?_⟩, stopped⟩
      have number : n + ((busTurn hw slave s).sent - n) - 1 = (busTurn hw slave s).sent - 1 := by omega
      rw [number, ← drained.ack, acknowledged]
    | true =>
      -- with nothing left by the 8-bit count the stop is due, else one more batch
      by_cases all : cur = count.toNat % 256
      · obtain ⟨t, waited, stopped⟩ := (drained.last acknowledged all).waitBusy hw slave fuel
        exact ⟨t, _, cur, waited, Nat.le_refl _, few, .inl rfl, stopped⟩
      · obtain ⟨k, positive, next⟩ := drained.fill acknowledged all
        exact ih next (by omega)

end

/-! ### Receiving -/

/-- The slave's bytes from number `n` on. -/
def dataFrom (slave : Slave) (n k : Nat) : List UInt8 := (List.range' n k).map slave.data

theorem length_dataFrom (n k : Nat) : (dataFrom slave n k).length = k := by
  rw [dataFrom, List.length_map, List.length_range']

theorem dataFrom_succ (slave : Slave) (n k : Nat) :
    dataFrom slave n (k + 1) = slave.data n :: dataFrom slave (n + 1) k := by
  rw [dataFrom, List.range'_succ, List.map_cons]
  rfl

theorem dataFrom_add (slave : Slave) (n j k : Nat) :
    dataFrom slave n (j + k) = dataFrom slave n j ++ dataFrom slave (n + j) k := by
  rw [dataFrom, ← List.range'_append_1, List.map_append]
  rfl

/-- The state after `k` bytes of the slave. -/
def afterFetch (slave : Slave) (k : Nat) (s : State) : State :=
  { s with
    userBuf := s.userBuf.write s.gi2c2.currentNum.toNat (dataFrom slave s.taken k)
    bus := s.bus ++ (dataFrom slave s.taken k).map BusEvent.received
    taken := s.taken + k
    touched := s.touched ++ List.range' s.gi2c2.currentNum.toNat k
    gi2c2.currentNum := s.gi2c2.currentNum + UInt32.ofNat k }

theorem getBytes_eq (k : Nat) {s : State} (fits : s.gi2c2.currentNum.toNat + k < 2 ^ 32) :
    getBytes slave k s = afterFetch slave k s := by
  induction k generalizing s with
  | zero => simp [getBytes, afterFetch, dataFrom]
  | succ k ih =>
    have later := toNat_succ fits
    have stored (byte : UInt8) (bytes : List UInt8) : s.userBuf.write s.gi2c2.currentNum.toNat (byte :: bytes) =
        (s.userBuf.write s.gi2c2.currentNum.toNat [byte]).write (s.gi2c2.currentNum.toNat + 1) bytes :=
      Mem.write_append _ _ [byte] _
    have total : s.taken + 1 + k = s.taken + (k + 1) := by omega
    rw [getBytes, ih]
    · simp only [afterFetch, later, total, add_ofNat_succ, ← stored]
      simp [dataFrom_succ, List.range'_succ]
    · rw [later]
      omega

/-- The bytes that a read takes when `r` are left by the 8-bit count and each interrupt fetches `d`: the
count passes 0 when there are fewer. -/
def todo (d r : Nat) : Nat := if r < d then r + 256 else r

/-- A batch that leaves something: less than another batch is fetched byte by byte. -/
theorem todo_batch {d r left : Nat} (some : 0 < d) (few : d ≤ 12) (byte : r < 256)
    (after : left = (r + 256 - d) % 256) (more : 0 < left) :
    todo d r = d + if left < d then todo 1 left else todo d left := by
  unfold todo
  split_ifs <;> omega

section
variable {al ia : Bool} {count : UInt32} {userBuf : Mem UInt8} {bus : List BusEvent} {total cur : Nat}

/-- `cur` bytes of the slave are in the buffer, and `total` will be. -/
structure Receiving (slave : Slave) (al ia : Bool) (count : UInt32) (userBuf : Mem UInt8)
    (bus : List BusEvent) (total cur : Nat) (s : State) : Prop where
  wkMode : s.gi2c2.wkMode = workMode true al ia
  addressed : s.gi2c2.addrFlag &&& 0x10 ≠ 0
  busy : s.gi2c2.transDone = 0
  allDataNum : s.gi2c2.allDataNum = count
  currentNum : s.gi2c2.currentNum.toNat = cur
  left : cur + todo (fifoDataNum s.stat.intMode).toNat ((count.toNat + 512 - cur) % 256) = total
  bound : total ≤ 267
  sto : s.stat.sto = false
  sta : s.stat.sta = false
  txFifo : s.txFifo = []
  taken : s.taken = cur
  bus : s.bus = bus ++ (dataFrom slave 0 cur).map BusEvent.received
  userBuf : s.userBuf = userBuf.write 0 (dataFrom slave 0 cur)
  touched : s.touched = List.range' 0 cur

namespace Receiving

theorem cur_lt (receiving : Receiving slave al ia count userBuf bus total cur s) : cur < total := by
  have left := receiving.left
  have some := (fifoDataNum_le s.stat.intMode).1
  unfold todo at left
  split at left <;> omega

/-- Nothing changes until the interrupt. -/
theorem atInterrupt (hw : Controller) (receiving : Receiving slave al ia count userBuf bus total cur s) :
    Receiving slave al ia count userBuf bus total cur (busTurn hw slave s) ∧
      (busTurn hw slave s).stat.si = true := by
  rw [busTurn_nil hw receiving.txFifo receiving.sta]
  exact ⟨⟨receiving.wkMode, receiving.addressed, receiving.busy, receiving.allDataNum, receiving.currentNum,
    receiving.left, receiving.bound, receiving.sto, receiving.sta, receiving.txFifo, receiving.taken,
    receiving.bus, receiving.userBuf, receiving.touched⟩, rfl⟩

/-- The interrupt of a read behind the address. -/
theorem isr (receiving : Receiving slave al ia count userBuf bus total cur s) (si : s.stat.si = true) :
    i2c2Isr slave s =
      let dataNum := fifoDataNum s.stat.intMode
      let t := afterFetch slave dataNum.toNat s
      if remainDataCnt s - dataNum = 0 then
        { t with
          gi2c2.transDone := 1
          stat := { s.stat with ack := false, sta := false, sto := true, si := false } }
      else if remainDataCnt s - dataNum < dataNum then
        { t with stat := { s.stat with ack := true, intMode := 3, sta := false, si := false } }
      else { t with stat := { s.stat with ack := true, sta := false, si := false } } := by
  have small := receiving.cur_lt
  have bound := receiving.bound
  have few := (fifoDataNum_le s.stat.intMode).2
  have fits : s.gi2c2.currentNum.toNat + (fifoDataNum s.stat.intMode).toNat < 2 ^ 32 := by
    rw [receiving.currentNum]
    omega
  have looks : ¬ (s.stat.sta = true ∧ s.gi2c2.ackCheck ≠ 0 ∧ s.stat.ack = false) := by
    rw [receiving.sta]
    exact fun refused => Bool.noConfusion refused.1
  have data : ¬ s.stat.sta = true := by
    rw [receiving.sta]
    exact Bool.noConfusion
  rw [isr_master slave receiving.wkMode si, master, if_pos rfl, masterRead, if_neg looks,
    if_pos receiving.addressed, if_neg data]
  simp only
  rw [getBytes_eq _ fits]
  split_ifs <;> rfl

/-- The data as far as it is fetched after one more batch. -/
theorem fetched (receiving : Receiving slave al ia count userBuf bus total cur s) {d : Nat} (few : d ≤ 12) :
    (s.gi2c2.currentNum + UInt32.ofNat d).toNat = cur + d ∧
    s.bus ++ (dataFrom slave s.taken d).map BusEvent.received =
      bus ++ (dataFrom slave 0 (cur + d)).map BusEvent.received ∧
    s.userBuf.write s.gi2c2.currentNum.toNat (dataFrom slave s.taken d) =
      userBuf.write 0 (dataFrom slave 0 (cur + d)) ∧
    s.touched ++ List.range' s.gi2c2.currentNum.toNat d = List.range' 0 (cur + d) := by
  have small := receiving.cur_lt
  have bound := receiving.bound
  have joined := List.range'_append_1 (s := 0) (m := cur) (n := d)
  have stored := Mem.write_append userBuf 0 (dataFrom slave 0 cur) (dataFrom slave cur d)
  rw [Nat.zero_add] at joined
  rw [Nat.zero_add, length_dataFrom] at stored
  rw [UInt32.toNat_add, UInt32.toNat_ofNat', receiving.currentNum, receiving.taken, receiving.bus,
    receiving.userBuf, receiving.touched, dataFrom_add, Nat.zero_add, List.map_append, List.append_assoc]
  exact ⟨by omega, rfl, stored.symm, joined⟩

/-- What is left after a batch, by the 8-bit count. -/
theorem toNat_left (receiving : Receiving slave al ia count userBuf bus total cur s) {d : UInt8}
    (few : d.toNat ≤ 12) :
    (remainDataCnt s - d).toNat = ((count.toNat + 512 - cur) % 256 + 256 - d.toNat) % 256 := by
  have small := receiving.cur_lt
  have bound := receiving.bound
  have left : ((2 ^ 32 - cur + count.toNat) % 2 ^ 32) % 2 ^ 8 = (count.toNat + 512 - cur) % 256 := by
    rw [Nat.mod_mod_of_dvd _ (by decide)]
    omega
  rw [UInt8.toNat_sub, remainDataCnt, UInt32.toNat_toUInt8, UInt32.toNat_sub, receiving.currentNum,
    receiving.allDataNum, left]
  clear left
  omega

theorem last (receiving : Receiving slave al ia count userBuf bus total cur s) (si : s.stat.si = true)
    (none : remainDataCnt s - fifoDataNum s.stat.intMode = 0) :
    Finished (workMode true al ia) (bus ++ (dataFrom slave 0 total).map BusEvent.received)
      (userBuf.write 0 (dataFrom slave 0 total)) (List.range' 0 total) (i2c2Isr slave s) := by
  obtain ⟨some, few⟩ := fifoDataNum_le s.stat.intMode
  have length : total = cur + (fifoDataNum s.stat.intMode).toNat := by
    have left := receiving.left
    have after := receiving.toNat_left few
    rw [none, UInt8.toNat_zero] at after
    unfold todo at left
    split at left <;> omega
  obtain ⟨-, events, stored, touched⟩ := receiving.fetched few
  rw [receiving.isr si, length]
  simp only
  rw [if_pos none]
  exact ⟨receiving.wkMode, rfl, rfl, events, stored, touched⟩

theorem turn (receiving : Receiving slave al ia count userBuf bus total cur s) (si : s.stat.si = true)
    (more : remainDataCnt s - fifoDataNum s.stat.intMode ≠ 0) :
    Receiving slave al ia count userBuf bus total (cur + (fifoDataNum s.stat.intMode).toNat)
      (i2c2Isr slave s) := by
  obtain ⟨some, few⟩ := fifoDataNum_le s.stat.intMode
  obtain ⟨next, events, stored, touched⟩ := receiving.fetched few
  have small := receiving.cur_lt
  have bound := receiving.bound
  have after := receiving.toNat_left few
  have positive : 0 < (remainDataCnt s - fifoDataNum s.stat.intMode).toNat := by
    apply Nat.pos_of_ne_zero
    intro none
    exact more (UInt8.toNat_inj.mp none)
  have batch := todo_batch some few (Nat.mod_lt _ (by decide)) after positive
  -- the batch is taken from the 8-bit count
  have later : (count.toNat + 512 - (cur + (fifoDataNum s.stat.intMode).toNat)) % 256 =
      (remainDataCnt s - fifoDataNum s.stat.intMode).toNat := by
    rw [after]
    clear batch after next events stored touched
    omega
  have left := receiving.left
  rw [batch, ← Nat.add_assoc, ← later] at left
  have taken : s.taken + (fifoDataNum s.stat.intMode).toNat = cur + (fifoDataNum s.stat.intMode).toNat := by
    rw [receiving.taken]
  rw [receiving.isr si]
  simp only
  rw [if_neg more]
  split
  next tail =>
    rw [UInt8.lt_iff_toNat_lt, ← later] at tail
    -- the rest is fetched byte by byte
    rw [if_pos tail] at left
    exact ⟨receiving.wkMode, receiving.addressed, receiving.busy, receiving.allDataNum, next, left,
      receiving.bound, receiving.sto, rfl, receiving.txFifo, taken, events, stored, touched⟩
  next body =>
    rw [UInt8.lt_iff_toNat_lt, ← later] at body
    rw [if_neg body] at left
    exact ⟨receiving.wkMode, receiving.addressed, receiving.busy, receiving.allDataNum, next, left,
      receiving.bound, receiving.sto, rfl, receiving.txFifo, taken, events, stored, touched⟩

/-- All turns that are left. -/
theorem waitBusy (hw : Controller) (receiving : Receiving slave al ia count userBuf bus total cur s)
    (enough : total - cur ≤ fuel) :
    ∃ t, waitBusy hw slave fuel s = some t ∧
      Stopped (workMode true al ia) (bus ++ (dataFrom slave 0 total).map BusEvent.received)
        (userBuf.write 0 (dataFrom slave 0 total)) (List.range' 0 total) t := by
  induction fuel generalizing cur s with
  | zero =>
    have small := receiving.cur_lt
    omega
  | succ fuel ih =>
    obtain ⟨there, si⟩ := receiving.atInterrupt hw
    rw [waitBusy_turn receiving.busy receiving.sto]
    by_cases none : remainDataCnt (busTurn hw slave s) - fifoDataNum (busTurn hw slave s).stat.intMode = 0
    · exact (there.last si none).waitBusy hw slave fuel
    · have some := (fifoDataNum_le (busTurn hw slave s).stat.intMode).1
      exact ih (there.turn si none) (by omega)

end Receiving

end

end Bk7251.I2c2
