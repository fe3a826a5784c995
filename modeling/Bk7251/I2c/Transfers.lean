import Bk7251.I2c.I2c1

/-!
# What a transfer puts on the bus and stores

Each phase of a transfer is one lemma about a single turn of the wait and one about all the turns that are
left, by induction on the bytes that remain.
-/
namespace Bk7251.I2c

open Lib

variable {slave : Nat → Reply} {fuel n : Nat} {s t : State}

theorem waitDone_turn (busy : s.gi2c1.transDone = 0) :
    waitDone slave (fuel + 1) n s = waitDone slave fuel (n + 1) (i2c1Isr (busByte (slave n) s)) := by
  rw [waitDone]
  exact if_neg (not_not_intro busy)

/-- The transfer is over but for the stop. -/
structure Finished (errorNo : UInt8) (bus : List BusEvent) (userBuf : Mem UInt8) (touched : List Nat)
    (s : State) : Prop where
  transDone : s.gi2c1.transDone = 1
  errorNo : s.gi2c1.errorNo = errorNo
  sto : s.config.sto = true
  bus : s.bus = bus
  userBuf : s.userBuf = userBuf
  touched : s.touched = touched

/-- The transfer is over and the bus is free. -/
structure Stopped (errorNo : UInt8) (bus : List BusEvent) (userBuf : Mem UInt8) (touched : List Nat)
    (s : State) : Prop where
  errorNo : s.gi2c1.errorNo = errorNo
  sto : s.config.sto = false
  bus : s.bus = bus ++ [.stop]
  userBuf : s.userBuf = userBuf
  touched : s.touched = touched

variable {errorNo : UInt8} {bus : List BusEvent} {userBuf : Mem UInt8} {touched : List Nat}

theorem Finished.waitDone (finished : Finished errorNo bus userBuf touched s) :
    ∃ t, waitDone slave fuel n s = some t ∧ Stopped errorNo bus userBuf touched t := by
  have ended : s.gi2c1.transDone ≠ 0 := by
    rw [finished.transDone]
    decide
  refine ⟨busStop s, ?_, ?_⟩
  · unfold I2c.waitDone
    rw [if_pos ended]
  · unfold busStop
    rw [if_pos finished.sto]
    refine ⟨finished.errorNo, rfl, ?_, finished.userBuf, finished.touched⟩
    exact congrArg (· ++ [BusEvent.stop]) finished.bus

/-! ### Sending -/

/-- The bytes as far as they are acknowledged, and the first one that is not. `n` is the number of the
first. -/
def sentUntilNack (slave : Nat → Reply) : Nat → List UInt8 → List BusEvent
  | _, [] => []
  | n, byte :: bytes =>
    .sent byte (slave n).ack :: if (slave n).ack then sentUntilNack slave (n + 1) bytes else []

/-- A count that is not down to 0 yet. -/
theorem count_succ {count : UInt16} {r : Nat} (more : count.toNat = r + 1) :
    count ≠ 0 ∧ (count - 1).toNat = r := by
  have positive : 1 ≤ count := by
    rw [UInt16.le_iff_toNat_le, more]
    exact Nat.succ_pos r
  constructor
  · rintro rfl
    exact absurd more (Nat.succ_ne_zero r).symm
  · rw [UInt16.toNat_sub_of_le _ _ positive, more]
    rfl

/-- Both addresses are on their way, and the byte in `dat` is the next one on the bus. -/
structure Sending (s : State) : Prop where
  writes : s.gi2c1.txMode &&& 0x01 ≠ 0
  addressed : s.gi2c1.addrFlag &&& 0x10 ≠ 0
  busy : s.gi2c1.transDone = 0
  noError : s.gi2c1.errorNo = 0
  sta : s.config.sta = false
  sto : s.config.sto = false
  mode : s.config.txMode = true

namespace Sending

theorem nack (sending : Sending s) {reply : Reply} (refused : reply.ack = false) :
    Finished 0 (s.bus ++ [.sent s.dat false]) s.userBuf s.touched (i2c1Isr (busByte reply s)) := by
  constructor <;> simp [i2c1Isr, busByte, busStop, masterWrite, refused, sending.writes, sending.sta,
    sending.sto, sending.mode, sending.noError]

theorem last (sending : Sending s) {reply : Reply} (acknowledged : reply.ack = true)
    (none_left : s.gi2c1.remainNum = 0) :
    Finished 0 (s.bus ++ [.sent s.dat true]) s.userBuf s.touched (i2c1Isr (busByte reply s)) := by
  constructor <;> simp [i2c1Isr, busByte, busStop, masterWrite, acknowledged, none_left, sending.writes,
    sending.sta, sending.sto, sending.mode, sending.noError, sending.addressed]

theorem turn (sending : Sending s) {reply : Reply} (acknowledged : reply.ack = true)
    (more : s.gi2c1.remainNum ≠ 0) :
    ∃ t, i2c1Isr (busByte reply s) = t ∧ Sending t ∧ t.gi2c1.remainNum = s.gi2c1.remainNum - 1 ∧
      t.gi2c1.pData = s.gi2c1.pData + 1 ∧ t.dat = s.userBuf s.gi2c1.pData ∧
      t.bus = s.bus ++ [.sent s.dat true] ∧ t.userBuf = s.userBuf ∧
      t.touched = s.touched ++ [s.gi2c1.pData] := by
  refine ⟨_, rfl, ?_⟩
  have step : i2c1Isr (busByte reply s) = { s with
      gi2c1.pData := s.gi2c1.pData + 1
      gi2c1.remainNum := s.gi2c1.remainNum - 1
      config.si := false
      config.ackRx := true
      dat := s.userBuf s.gi2c1.pData
      bus := s.bus ++ [.sent s.dat true]
      touched := s.touched ++ [s.gi2c1.pData] } := by
    simp [i2c1Isr, busByte, busStop, masterWrite, acknowledged, more, sending.writes, sending.sta,
      sending.sto, sending.mode, sending.addressed]
  rw [step]
  refine ⟨?_, rfl, rfl, rfl, rfl, rfl, rfl⟩
  exact ⟨sending.writes, sending.addressed, sending.busy, sending.noError, sending.sta, sending.sto,
    sending.mode⟩

/-- All turns that are left, by induction on `remainNum`. -/
theorem waitDone (sending : Sending s) (enough : s.gi2c1.remainNum.toNat < fuel) :
    ∃ t used, waitDone slave fuel n s = some t ∧ used ≤ s.gi2c1.remainNum.toNat ∧
      Stopped 0 (s.bus ++ sentUntilNack slave n
          (s.dat :: s.userBuf.read s.gi2c1.pData s.gi2c1.remainNum.toNat))
        s.userBuf (s.touched ++ List.range' s.gi2c1.pData used) t := by
  generalize remaining : s.gi2c1.remainNum.toNat = r at enough
  induction r generalizing s fuel n with
  | zero =>
    obtain ⟨fuel, rfl⟩ := Nat.exists_eq_succ_of_ne_zero (Nat.ne_of_gt enough)
    have none_left : s.gi2c1.remainNum = 0 := UInt16.toNat_inj.mp remaining
    rw [waitDone_turn sending.busy]
    cases acknowledged : (slave n).ack with
    | false =>
      obtain ⟨t, returned, stopped⟩ := (sending.nack acknowledged).waitDone
      refine ⟨t, 0, returned, Nat.le_refl _, ?_⟩
      simpa [sentUntilNack, acknowledged] using stopped
    | true =>
      obtain ⟨t, returned, stopped⟩ := (sending.last acknowledged none_left).waitDone
      refine ⟨t, 0, returned, Nat.le_refl _, ?_⟩
      simpa [sentUntilNack, acknowledged] using stopped
  | succ r ih =>
    obtain ⟨fuel, rfl⟩ := Nat.exists_eq_succ_of_ne_zero (Nat.ne_zero_of_lt enough)
    rw [waitDone_turn sending.busy]
    cases acknowledged : (slave n).ack with
    | false =>
      obtain ⟨t, returned, stopped⟩ := (sending.nack acknowledged).waitDone
      refine ⟨t, 0, returned, Nat.zero_le _, ?_⟩
      simpa [sentUntilNack, acknowledged] using stopped
    | true =>
      obtain ⟨more, fewer⟩ := count_succ remaining
      obtain ⟨u, turned, next, remain, pData, dat, bus, buf, touched⟩ := sending.turn acknowledged more
      rw [← remain] at fewer
      obtain ⟨t, used, returned, few, stopped⟩ := ih next fewer (Nat.lt_of_succ_lt_succ enough)
      refine ⟨t, used + 1, turned ▸ returned, Nat.succ_le_succ few, ?_⟩
      have bytes : s.userBuf.read s.gi2c1.pData (r + 1) =
          s.userBuf s.gi2c1.pData :: s.userBuf.read (s.gi2c1.pData + 1) r := by
        rw [Nat.add_comm r 1, Mem.read_add]
        rfl
      rw [bus, buf, touched, pData, dat] at stopped
      rw [bytes, sentUntilNack, if_pos acknowledged, acknowledged, List.range'_succ]
      simpa only [List.append_assoc, List.singleton_append] using stopped

end Sending

/-! ### Receiving -/

/-- The slave's bytes from number `n` on. -/
def dataFrom (slave : Nat → Reply) (n k : Nat) : List UInt8 := (List.range' n k).map fun i => (slave i).data

theorem length_dataFrom (n k : Nat) : (dataFrom slave n k).length = k := by
  rw [dataFrom, List.length_map, List.length_range']

/-- All addresses are through, and the next byte on the bus is the slave's. -/
structure Receiving (s : State) : Prop where
  reads : s.gi2c1.txMode &&& 0x01 = 0
  addressed : s.gi2c1.addrFlag &&& 0x10 ≠ 0
  busy : s.gi2c1.transDone = 0
  noError : s.gi2c1.errorNo = 0
  sta : s.config.sta = false
  sto : s.config.sto = false
  mode : s.config.txMode = false

namespace Receiving

variable {reply : Reply}

theorem last (receiving : Receiving s) (one : s.gi2c1.remainNum - 1 = 0) :
    Finished 0 (s.bus ++ [.received reply.data]) (s.userBuf.write s.gi2c1.pData [reply.data])
      (s.touched ++ [s.gi2c1.pData]) (i2c1Isr (busByte reply s)) := by
  constructor <;> simp [i2c1Isr, busByte, busStop, masterRead, storeByte, one, receiving.reads,
    receiving.sta, receiving.sto, receiving.mode, receiving.noError, receiving.addressed]

theorem turn (receiving : Receiving s) (more : s.gi2c1.remainNum - 1 ≠ 0) :
    ∃ t, i2c1Isr (busByte reply s) = t ∧ Receiving t ∧ t.gi2c1.remainNum = s.gi2c1.remainNum - 1 ∧
      t.gi2c1.pData = s.gi2c1.pData + 1 ∧ t.bus = s.bus ++ [.received reply.data] ∧
      t.userBuf = s.userBuf.write s.gi2c1.pData [reply.data] ∧
      t.touched = s.touched ++ [s.gi2c1.pData] := by
  refine ⟨_, rfl, ?_⟩
  have step : i2c1Isr (busByte reply s) = { s with
      gi2c1.pData := s.gi2c1.pData + 1
      gi2c1.remainNum := s.gi2c1.remainNum - 1
      config.si := false
      config.ackTx := true
      config.ackRx := reply.ack
      dat := reply.data
      userBuf := s.userBuf.write s.gi2c1.pData [reply.data]
      bus := s.bus ++ [.received reply.data]
      touched := s.touched ++ [s.gi2c1.pData] } := by
    simp [i2c1Isr, busByte, busStop, masterRead, storeByte, more, receiving.reads, receiving.sta,
      receiving.sto, receiving.mode, receiving.addressed]
  rw [step]
  refine ⟨?_, rfl, rfl, rfl, rfl, rfl⟩
  exact ⟨receiving.reads, receiving.addressed, receiving.busy, receiving.noError, receiving.sta,
    receiving.sto, receiving.mode⟩

/-- All turns that are left. The count goes down before it is looked at, so the induction is on
`remainNum - 1`, and a count of 0 stands for 65536 bytes. -/
theorem waitDone (receiving : Receiving s) (enough : (s.gi2c1.remainNum - 1).toNat < fuel) :
    ∃ t, waitDone slave fuel n s = some t ∧
      Stopped 0
        (s.bus ++ (dataFrom slave n ((s.gi2c1.remainNum - 1).toNat + 1)).map BusEvent.received)
        (s.userBuf.write s.gi2c1.pData (dataFrom slave n ((s.gi2c1.remainNum - 1).toNat + 1)))
        (s.touched ++ List.range' s.gi2c1.pData ((s.gi2c1.remainNum - 1).toNat + 1)) t := by
  generalize remaining : (s.gi2c1.remainNum - 1).toNat = r at enough
  induction r generalizing s fuel n with
  | zero =>
    obtain ⟨fuel, rfl⟩ := Nat.exists_eq_succ_of_ne_zero (Nat.ne_of_gt enough)
    have one : s.gi2c1.remainNum - 1 = 0 := UInt16.toNat_inj.mp remaining
    rw [waitDone_turn receiving.busy]
    exact (receiving.last one).waitDone
  | succ r ih =>
    obtain ⟨fuel, rfl⟩ := Nat.exists_eq_succ_of_ne_zero (Nat.ne_zero_of_lt enough)
    rw [waitDone_turn receiving.busy]
    obtain ⟨more, fewer⟩ := count_succ remaining
    obtain ⟨u, turned, next, remain, pData, bus, buf, touched⟩ := receiving.turn more
    rw [← remain] at fewer
    obtain ⟨t, returned, stopped⟩ := ih next fewer (Nat.lt_of_succ_lt_succ enough)
    refine ⟨t, turned ▸ returned, ?_⟩
    have data : dataFrom slave n (r + 1 + 1) = (slave n).data :: dataFrom slave (n + 1) (r + 1) := by
      rw [dataFrom, List.range'_succ]
      rfl
    have stored : s.userBuf.write s.gi2c1.pData ((slave n).data :: dataFrom slave (n + 1) (r + 1)) =
        (s.userBuf.write s.gi2c1.pData [(slave n).data]).write (s.gi2c1.pData + 1)
          (dataFrom slave (n + 1) (r + 1)) := Mem.write_append _ _ [(slave n).data] _
    rw [bus, buf, touched, pData] at stopped
    rw [data, stored, List.range'_succ]
    simpa only [List.append_assoc, List.singleton_append, List.map_cons] using stopped

end Receiving

end Bk7251.I2c
