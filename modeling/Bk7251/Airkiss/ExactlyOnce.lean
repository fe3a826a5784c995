import Mathlib.Data.List.Forall2
import Bk7251.Airkiss.PingPong

/-!
# Every accepted write is read exactly once

Write number `k` goes to buffer `slot k`, read number `k` takes it from there. The flags say which
buffers hold a write that has not been read, and the deferred switches keep each party's pointer at
its next number.
-/
namespace Bk7251.Airkiss

open Lib

/-- The buffer of the `k`th write and of the `k`th read. -/
def slot (k : Nat) : Buf := if k % 2 = 0 then .buf1 else .buf2

theorem slot_eq_iff (j k : Nat) : slot j = slot k ↔ j % 2 = k % 2 := by
  unfold slot
  split <;> split <;> simp <;> omega

def Buf.next : Buf → Buf
  | .buf1 => .buf2
  | .buf2 => .buf1

def Buf.base : Buf → Nat
  | .buf1 => 0
  | .buf2 => BUF_LEN.toNat

theorem next_slot (k : Nat) : (slot k).next = slot (k + 1) := by
  unfold slot
  split <;> split <;> first | rfl | omega

/-- Buffer `b` holds a write that has not been read yet. -/
def Unread (s : State) (b : Buf) : Prop :=
  ∃ k, s.reads.length ≤ k ∧ k < s.writes.length ∧ slot k = b

/-- What never changes in the two buffers. -/
structure Layout (buf : Buf → BuffStr) : Prop where
  addr : ∀ b, (buf b).addr = b.base
  next : ∀ b, (buf b).nextBufAddr = b.next
  length : ∀ b, (buf b).length = BUF_LEN

/-- The first bytes of buffer `b`. -/
def held (s : State) (b : Buf) (n : Nat) : List UInt8 := s.ppBuf.mem.read b.base n

/-- The queue of at most two writes that the buffers and flags stand for. -/
structure Queue (s : State) : Prop where
  layout : Layout s.ppBuf.buf
  behind : s.reads.length ≤ s.writes.length
  ahead : s.writes.length ≤ s.reads.length + 2
  readEnable : ∀ b, (s.ppBuf.buf b).readEnable = true ↔ Unread s b
  writeEnable : ∀ b, (s.ppBuf.buf b).writeEnable = true ↔ ¬ Unread s b
  kept : ∀ k w, s.reads.length ≤ k → s.writes[k]? = some w →
    w.bytes = held s (slot k) w.bytes.length ∧ w.bytes.length ≤ BUF_LEN.toNat ∧
      (s.ppBuf.buf (slot k)).actual = w.actual
  returned : List.Forall₂ Returns (s.writes.take s.reads.length) s.reads

/-- What the reader knows at each of its statements. -/
def ReaderAt (s : State) : Prop :=
  let current := s.ppBuf.currentRead
  let here := slot s.reads.length
  let clean := ∀ b, (s.ppBuf.buf b).offset = 0
  match s.reader with
  | .idle => (if s.ppBuf.readSwitch then current.next else current) = here ∧ clean
  | .readSwitch count =>
    (if s.ppBuf.readSwitch then current.next else current) = here ∧ clean ∧ BUF_LEN ≤ count
  | .moveRead count => current.next = here ∧ clean ∧ BUF_LEN ≤ count
  | .clearSwitch count => current = here ∧ clean ∧ BUF_LEN ≤ count
  | .takeCurrent count => current = here ∧ s.ppBuf.readSwitch = false ∧ clean ∧ BUF_LEN ≤ count
  | .readEnable count b =>
    b = here ∧ current = here ∧ s.ppBuf.readSwitch = false ∧ clean ∧ BUF_LEN ≤ count
  | .minLen count b =>
    b = here ∧ current = here ∧ s.reads.length < s.writes.length ∧ clean ∧ BUF_LEN ≤ count
  | .memcpy b len got =>
    b = here ∧ current = here ∧ s.reads.length < s.writes.length ∧ clean ∧ len = BUF_LEN ∧
      got.length ≤ BUF_LEN.toNat ∧ got = held s here got.length
  | .addOffset b ret got =>
    b = here ∧ current = here ∧ s.reads.length < s.writes.length ∧ clean ∧ ret = BUF_LEN ∧
      got = held s here BUF_LEN.toNat
  | .setActual b ret got =>
    b = here ∧ current = here ∧ s.reads.length < s.writes.length ∧
      (∀ b, b ≠ here → (s.ppBuf.buf b).offset = 0) ∧ ret = BUF_LEN ∧ got = held s here BUF_LEN.toNat
  | .finish b ret got actual =>
    b = here ∧ current = here ∧ s.reads.length < s.writes.length ∧
      (∀ b, b ≠ here → (s.ppBuf.buf b).offset = 0) ∧ ret = BUF_LEN ∧ got = held s here BUF_LEN.toNat ∧
      actual = (s.ppBuf.buf here).actual

/-- What the writer knows at each of its statements. -/
def WriterAt (s : State) : Prop :=
  let current := s.ppBuf.currentWrite
  let here := slot s.writes.length
  let room := s.writes.length < s.reads.length + 2
  match s.writer with
  | .idle => (if s.ppBuf.writeSwitch then current.next else current) = here
  | .writeSwitch bytes _ =>
    (if s.ppBuf.writeSwitch then current.next else current) = here ∧ bytes.length ≤ BUF_LEN.toNat
  | .moveWrite bytes _ => current.next = here ∧ bytes.length ≤ BUF_LEN.toNat
  | .clearSwitch bytes _ => current = here ∧ bytes.length ≤ BUF_LEN.toNat
  | .takeCurrent bytes _ =>
    current = here ∧ s.ppBuf.writeSwitch = false ∧ bytes.length ≤ BUF_LEN.toNat
  | .writeEnable b bytes _ =>
    b = here ∧ current = here ∧ s.ppBuf.writeSwitch = false ∧ bytes.length ≤ BUF_LEN.toNat
  | .minLen b bytes _ => b = here ∧ current = here ∧ room ∧ bytes.length ≤ BUF_LEN.toNat
  | .memcpy b len put bytes _ =>
    b = here ∧ current = here ∧ room ∧ bytes.length ≤ BUF_LEN.toNat ∧ len = bytes.length ∧
      put ≤ len ∧ bytes.take put = held s here put
  | .setActual b bytes _ =>
    b = here ∧ current = here ∧ room ∧ bytes.length ≤ BUF_LEN.toNat ∧ bytes = held s here bytes.length
  | .finish b bytes actual =>
    b = here ∧ current = here ∧ room ∧ bytes.length ≤ BUF_LEN.toNat ∧ bytes = held s here bytes.length ∧
      (s.ppBuf.buf here).actual = actual

structure Inv (s : State) : Prop where
  queue : Queue s
  reader : ReaderAt s
  writer : WriterAt s

/-! ### The two-slot queue -/

variable {s s' : State}

/-- The next write to read is there as soon as there is any. -/
theorem unread_next :
    Unread s (slot s.reads.length) ↔ s.reads.length < s.writes.length := by
  constructor
  · rintro ⟨k, low, high, -⟩
    omega
  · intro behind
    exact ⟨s.reads.length, Nat.le_refl _, behind, rfl⟩

/-- The buffer of the next write is taken exactly while two writes wait. -/
theorem Queue.unread_last (queue : Queue s) :
    Unread s (slot s.writes.length) ↔ s.writes.length = s.reads.length + 2 := by
  have ahead := queue.ahead
  constructor
  · rintro ⟨k, low, high, same⟩
    have parity := (slot_eq_iff k s.writes.length).mp same
    omega
  · intro full
    refine ⟨s.reads.length, Nat.le_refl _, by omega, ?_⟩
    rw [slot_eq_iff]
    omega

/-- A step that moves no write into or out of the queue, and leaves alone what waits there. -/
structure Quiet (s s' : State) : Prop where
  reads : s'.reads = s.reads
  writes : s'.writes = s.writes
  layout : Layout s.ppBuf.buf → Layout s'.ppBuf.buf
  readEnable : ∀ b, (s'.ppBuf.buf b).readEnable = (s.ppBuf.buf b).readEnable
  writeEnable : ∀ b, (s'.ppBuf.buf b).writeEnable = (s.ppBuf.buf b).writeEnable
  held : ∀ b n, Unread s b → n ≤ BUF_LEN.toNat → held s' b n = held s b n
  actual : ∀ b, Unread s b → (s'.ppBuf.buf b).actual = (s.ppBuf.buf b).actual

theorem Quiet.of_same (reads : s'.reads = s.reads) (writes : s'.writes = s.writes)
    (buf : s'.ppBuf.buf = s.ppBuf.buf) (mem : s'.ppBuf.mem = s.ppBuf.mem) : Quiet s s' where
  reads := reads
  writes := writes
  layout layout := by rw [buf]; exact layout
  readEnable b := by rw [buf]
  writeEnable b := by rw [buf]
  held b n _ _ := by simp only [Airkiss.held, mem]
  actual b _ := by rw [buf]

theorem Queue.quiet (queue : Queue s) (same : Quiet s s') : Queue s' := by
  have unread : ∀ b, Unread s' b ↔ Unread s b := fun b => by
    rw [Unread, Unread, same.reads, same.writes]
  refine ⟨same.layout queue.layout, ?_, ?_, ?_, ?_, ?_, ?_⟩
  · rw [same.reads, same.writes]
    exact queue.behind
  · rw [same.reads, same.writes]
    exact queue.ahead
  · intro b
    rw [same.readEnable, unread]
    exact queue.readEnable b
  · intro b
    rw [same.writeEnable, unread]
    exact queue.writeEnable b
  · intro k w low found
    rw [same.reads] at low
    rw [same.writes] at found
    obtain ⟨bytes, short, actual⟩ := queue.kept k w low found
    have waiting : Unread s (slot k) := ⟨k, low, (List.getElem?_eq_some_iff.mp found).1, rfl⟩
    refine ⟨?_, short, ?_⟩
    · rw [same.held _ _ waiting short]
      exact bytes
    · rw [same.actual _ waiting]
      exact actual
  · rw [same.reads, same.writes]
    exact queue.returned

/-! ### What the other party's steps leave alone -/

section

variable {buf : Buf → BuffStr} {mem : Mem UInt8} {current : Buf} {switch : Bool}

/-- The reader's statements may give a buffer back; nothing else the writer looks at changes. -/
theorem WriterAt.frame (known : WriterAt s) {reader : Reader} {reads : List Returned}
    (more : s.reads.length ≤ reads.length) (actual : ∀ b, (buf b).actual = (s.ppBuf.buf b).actual) :
    WriterAt
      { s with
        ppBuf := { s.ppBuf with buf, currentRead := current, readSwitch := switch }
        reader
        reads } := by
  have room (room : s.writes.length < s.reads.length + 2) : s.writes.length < reads.length + 2 := by omega
  unfold WriterAt at known ⊢
  simp only [held, actual] at known ⊢
  split at known <;> grind

/-- The writer's statements leave the buffer alone that the reader is at. -/
theorem ReaderAt.frame (known : ReaderAt s) {writer : Writer} {writes : List Written}
    (more : s.writes.length ≤ writes.length) (offset : ∀ b, (buf b).offset = (s.ppBuf.buf b).offset)
    (held_eq : ∀ b n, Unread s b → n ≤ BUF_LEN.toNat → mem.read b.base n = held s b n)
    (actual : ∀ b, Unread s b → (buf b).actual = (s.ppBuf.buf b).actual) :
    ReaderAt
      { s with
        ppBuf := { s.ppBuf with buf, mem, currentWrite := current, writeSwitch := switch }
        writer
        writes } := by
  have waiting (behind : s.reads.length < s.writes.length) : Unread s (slot s.reads.length) :=
    ⟨s.reads.length, Nat.le_refl _, behind, rfl⟩
  have later (behind : s.reads.length < s.writes.length) : s.reads.length < writes.length := by omega
  unfold ReaderAt at known ⊢
  simp only [offset]
  simp only [held] at held_eq known ⊢
  split at known <;> grind

/-- A statement of the reader that touches no buffer. -/
theorem Inv.of_reader (queue : Queue s) (known : WriterAt s) {reader : Reader}
    (moved : ReaderAt
      { s with ppBuf := { s.ppBuf with currentRead := current, readSwitch := switch }, reader }) :
    Inv { s with ppBuf := { s.ppBuf with currentRead := current, readSwitch := switch }, reader } where
  queue := queue.quiet (.of_same rfl rfl rfl rfl)
  reader := moved
  writer := known.frame (Nat.le_refl _) fun _ => rfl

/-- A statement of the writer that touches no buffer. -/
theorem Inv.of_writer (queue : Queue s) (known : ReaderAt s) {writer : Writer}
    (moved : WriterAt
      { s with ppBuf := { s.ppBuf with currentWrite := current, writeSwitch := switch }, writer }) :
    Inv { s with ppBuf := { s.ppBuf with currentWrite := current, writeSwitch := switch }, writer } where
  queue := queue.quiet (.of_same rfl rfl rfl rfl)
  reader := known.frame (Nat.le_refl _) (fun _ => rfl) (fun _ _ _ _ => rfl) fun _ _ => rfl
  writer := moved

end

/-! ### The two sections that move a write -/

theorem modify_buf (ppBuf : PingpongBuffer) (b c : Buf) (change : BuffStr → BuffStr) :
    (ppBuf.modify b change).buf c = if c = b then change (ppBuf.buf b) else ppBuf.buf c := by
  simp only [PingpongBuffer.modify, Function.update_apply]

/-- A field the change leaves alone. -/
theorem field_update {γ : Type} (f : BuffStr → γ) {buf : Buf → BuffStr} {c : Buf} {x : BuffStr}
    (b : Buf) (free : f x = f (buf c)) : f (Function.update buf c x b) = f (buf b) := by
  rw [Function.update_apply]
  split
  · next here => rw [free, here]
  · rfl

theorem Layout.update {buf : Buf → BuffStr} (layout : Layout buf) {b : Buf} {x : BuffStr}
    (addr : x.addr = (buf b).addr) (next : x.nextBufAddr = (buf b).nextBufAddr)
    (length : x.length = (buf b).length) : Layout (Function.update buf b x) := by
  refine ⟨?_, ?_, ?_⟩ <;> intro c <;> rw [Function.update_apply] <;> split
  · next same => rw [addr, same, layout.addr]
  · exact layout.addr c
  · next same => rw [next, same, layout.next]
  · exact layout.next c
  · rw [length, layout.length]
  · exact layout.length c

/-- A change of fields in one buffer that the flags do not depend on. -/
theorem Quiet.of_modify {b : Buf} {change : BuffStr → BuffStr} {reader : Reader} {writer : Writer}
    (addr : (change (s.ppBuf.buf b)).addr = (s.ppBuf.buf b).addr)
    (next : (change (s.ppBuf.buf b)).nextBufAddr = (s.ppBuf.buf b).nextBufAddr)
    (length : (change (s.ppBuf.buf b)).length = (s.ppBuf.buf b).length)
    (readEnable : (change (s.ppBuf.buf b)).readEnable = (s.ppBuf.buf b).readEnable)
    (writeEnable : (change (s.ppBuf.buf b)).writeEnable = (s.ppBuf.buf b).writeEnable)
    (actual : ∀ c, Unread s c → ((s.ppBuf.modify b change).buf c).actual = (s.ppBuf.buf c).actual) :
    Quiet s { s with ppBuf := s.ppBuf.modify b change, reader, writer } where
  reads := rfl
  writes := rfl
  layout layout := layout.update addr next length
  readEnable c := field_update BuffStr.readEnable c readEnable
  writeEnable c := field_update BuffStr.writeEnable c writeEnable
  held _ _ _ _ := rfl
  actual := actual

theorem Queue.finishRead (queue : Queue s) (behind : s.reads.length < s.writes.length)
    {got : List UInt8} {actual : UInt32} (bytes : got = held s (slot s.reads.length) BUF_LEN.toNat)
    (size : actual = (s.ppBuf.buf (slot s.reads.length)).actual) :
    Queue
      { s with
        ppBuf := { s.ppBuf.modify (slot s.reads.length)
          fun b => { b with readEnable := false, writeEnable := true, offset := 0 } with readSwitch := true }
        reader := .idle
        reads := s.reads ++ [⟨BUF_LEN, got, actual⟩] } := by
  have ahead := queue.ahead
  -- the buffer just read is the only one that changes hands
  have unread (b : Buf) : Unread
      { s with
        ppBuf := { s.ppBuf.modify (slot s.reads.length)
          fun b => { b with readEnable := false, writeEnable := true, offset := 0 } with readSwitch := true }
        reader := .idle
        reads := s.reads ++ [⟨BUF_LEN, got, actual⟩] } b ↔ Unread s b ∧ b ≠ slot s.reads.length := by
    simp only [Unread, List.length_append, List.length_singleton]
    constructor
    · rintro ⟨k, low, high, rfl⟩
      refine ⟨⟨k, by omega, high, rfl⟩, fun same => ?_⟩
      have parity := (slot_eq_iff _ _).mp same
      omega
    · rintro ⟨⟨k, low, high, rfl⟩, apart⟩
      refine ⟨k, ?_, high, rfl⟩
      have moved : k ≠ s.reads.length := fun same => apart (by rw [same])
      omega
  refine ⟨?_, ?_, ?_, ?_, ?_, ?_, ?_⟩
  · exact queue.layout.update rfl rfl rfl
  · simp only [List.length_append, List.length_singleton]
    omega
  · simp only [List.length_append, List.length_singleton]
    omega
  · intro b
    rw [unread]
    have flag := queue.readEnable b
    simp only [modify_buf]
    split
    · next same => simp [same]
    · next apart => simp [flag, apart]
  · intro b
    rw [unread]
    have flag := queue.writeEnable b
    simp only [modify_buf]
    split
    · next same => simp [same]
    · next apart => simp [flag, apart]
  · intro k w low found
    simp only [List.length_append, List.length_singleton] at low
    obtain ⟨kept, short, same⟩ := queue.kept k w (by omega) found
    refine ⟨kept, short, ?_⟩
    rw [← same]
    exact field_update BuffStr.actual _ rfl
  · obtain ⟨w, found⟩ : ∃ w, s.writes[s.reads.length]? = some w :=
      ⟨_, List.getElem?_eq_getElem behind⟩
    obtain ⟨kept, short, same⟩ := queue.kept _ w (Nat.le_refl _) found
    simp only [List.length_append, List.length_singleton, List.take_add_one, found, Option.toList_some]
    refine List.rel_append queue.returned (List.Forall₂.cons ⟨?_, ?_, ?_⟩ .nil)
    · rw [bytes, held, Mem.length_read]
    · rw [bytes, kept]
      obtain ⟨rest, total⟩ := Nat.exists_eq_add_of_le short
      rw [held, held, total, Mem.read_add]
      exact List.prefix_append _ _
    · rw [size, same]

theorem Queue.finishWrite (queue : Queue s) (room : s.writes.length < s.reads.length + 2)
    {bytes : List UInt8} {actual : UInt32} (short : bytes.length ≤ BUF_LEN.toNat)
    (stored : bytes = held s (slot s.writes.length) bytes.length)
    (size : (s.ppBuf.buf (slot s.writes.length)).actual = actual) :
    Queue
      { s with
        ppBuf := { s.ppBuf.modify (slot s.writes.length)
          fun b => { b with readEnable := true, writeEnable := false } with writeSwitch := true }
        writer := .idle
        writes := s.writes ++ [⟨bytes, actual⟩] } := by
  have behind := queue.behind
  have unread (b : Buf) : Unread
      { s with
        ppBuf := { s.ppBuf.modify (slot s.writes.length)
          fun b => { b with readEnable := true, writeEnable := false } with writeSwitch := true }
        writer := .idle
        writes := s.writes ++ [⟨bytes, actual⟩] } b ↔ Unread s b ∨ b = slot s.writes.length := by
    simp only [Unread, List.length_append, List.length_singleton]
    constructor
    · rintro ⟨k, low, high, rfl⟩
      by_cases last : k = s.writes.length
      · exact .inr (by rw [last])
      · exact .inl ⟨k, low, by omega, rfl⟩
    · rintro (⟨k, low, high, rfl⟩ | rfl)
      · exact ⟨k, low, by omega, rfl⟩
      · exact ⟨_, behind, by omega, rfl⟩
  refine ⟨?_, ?_, ?_, ?_, ?_, ?_, ?_⟩
  · exact queue.layout.update rfl rfl rfl
  · simp only [List.length_append, List.length_singleton]
    omega
  · simp only [List.length_append, List.length_singleton]
    omega
  · intro b
    rw [unread]
    have flag := queue.readEnable b
    simp only [modify_buf]
    split
    · next same => simp [same]
    · next apart => simp [flag, apart]
  · intro b
    rw [unread]
    have flag := queue.writeEnable b
    simp only [modify_buf]
    split
    · next same => simp [same]
    · next apart => simp [flag, apart]
  · intro k w low found
    -- a waiting write is the new one or an old one
    have field : ((s.ppBuf.modify (slot s.writes.length)
        fun b => { b with readEnable := true, writeEnable := false }).buf (slot k)).actual =
        (s.ppBuf.buf (slot k)).actual := field_update BuffStr.actual _ rfl
    by_cases last : k = s.writes.length
    · subst last
      have newest : w = ⟨bytes, actual⟩ := by simpa using found.symm
      subst newest
      exact ⟨stored, short, field.trans size⟩
    · have inside : k < s.writes.length := by
        have bound := (List.getElem?_eq_some_iff.mp found).1
        simp only [List.length_append, List.length_singleton] at bound
        omega
      rw [List.getElem?_append_left inside] at found
      obtain ⟨kept, small, same⟩ := queue.kept k w low found
      exact ⟨kept, small, field.trans same⟩
  · simp only [List.take_append_of_le_length behind]
    exact queue.returned

/-! ### Every statement keeps the invariant -/

theorem readEnable_iff (queue : Queue s) :
    (s.ppBuf.buf (slot s.reads.length)).readEnable = true ↔ s.reads.length < s.writes.length := by
  rw [queue.readEnable, unread_next]

theorem writeEnable_iff (queue : Queue s) :
    (s.ppBuf.buf (slot s.writes.length)).writeEnable = true ↔ s.writes.length < s.reads.length + 2 := by
  have ahead := queue.ahead
  rw [queue.writeEnable, queue.unread_last]
  omega

theorem inv_stepReader (inv : Inv s) : Inv (stepReader s) := by
  obtain ⟨queue, known, writer⟩ := inv
  cases pc : s.reader with
  | idle => simpa only [stepReader, pc] using Inv.mk queue known writer
  | readSwitch count =>
    simp only [stepReader, ReaderAt, pc] at known ⊢
    refine .of_reader queue writer ?_
    split <;> simp_all [ReaderAt]
  | moveRead count =>
    simp only [stepReader, ReaderAt, pc] at known ⊢
    refine .of_reader queue writer ?_
    simpa only [ReaderAt, queue.layout.next] using known
  | clearSwitch count =>
    simp only [stepReader, ReaderAt, pc] at known ⊢
    refine .of_reader queue writer ?_
    exact ⟨known.1, rfl, known.2⟩
  | takeCurrent count =>
    simp only [stepReader, ReaderAt, pc] at known ⊢
    refine .of_reader queue writer ?_
    exact ⟨known.1, known⟩
  | readEnable count b =>
    simp only [stepReader, ReaderAt, pc] at known ⊢
    obtain ⟨rfl, current, switch, clean, count_le⟩ := known
    refine .of_reader queue writer ?_
    -- the flag says whether a write is waiting
    split
    · next readable => exact ⟨rfl, current, (readEnable_iff queue).mp readable, clean, count_le⟩
    · exact ⟨by rw [switch]; exact current, clean⟩
  | minLen count b =>
    simp only [stepReader, ReaderAt, pc] at known ⊢
    obtain ⟨rfl, current, behind, clean, count_le⟩ := known
    refine .of_reader queue writer ?_
    have whole : min32 count ((s.ppBuf.buf (slot s.reads.length)).length -
        (s.ppBuf.buf (slot s.reads.length)).offset) = BUF_LEN := by
      rw [queue.layout.length, clean]
      exact if_neg (UInt32.not_lt.mpr count_le)
    exact ⟨rfl, current, behind, clean, whole, Nat.zero_le _, rfl⟩
  | memcpy b len got =>
    simp only [stepReader, ReaderAt, pc] at known ⊢
    obtain ⟨rfl, current, behind, clean, rfl, got_le, same⟩ := known
    split
    · next more =>
      -- one more byte is copied
      refine .of_reader queue writer ⟨rfl, current, behind, clean, rfl, ?_, ?_⟩
      · rw [List.length_append, List.length_singleton]
        exact more
      · rw [List.length_append, List.length_singleton, held, Mem.read_add, queue.layout.addr]
        exact congrArg (· ++ _) same
    · next done =>
      refine .of_reader queue writer ?_
      have all : got.length = BUF_LEN.toNat := by omega
      exact ⟨rfl, current, behind, clean, rfl, by rw [← all]; exact same⟩
  | addOffset b ret got =>
    simp only [stepReader, ReaderAt, pc] at known ⊢
    obtain ⟨rfl, current, behind, clean, rfl, same⟩ := known
    have lengths : ∀ b, ((s.ppBuf.modify (slot s.reads.length)
        fun b => { b with offset := b.offset + BUF_LEN }).buf b).actual = (s.ppBuf.buf b).actual :=
      fun b => field_update BuffStr.actual b rfl
    refine ⟨queue.quiet (.of_modify rfl rfl rfl rfl rfl fun b _ => lengths b), ?_,
      writer.frame (Nat.le_refl _) lengths⟩
    refine ⟨rfl, current, behind, fun b apart => ?_, rfl, same⟩
    simp only [modify_buf, if_neg apart]
    exact clean b
  | setActual b ret got =>
    simp only [stepReader, ReaderAt, pc] at known ⊢
    obtain ⟨rfl, current, behind, clean, rfl, same⟩ := known
    refine .of_reader queue writer ?_
    exact ⟨rfl, current, behind, clean, rfl, same, rfl⟩
  | finish b ret got actual =>
    simp only [stepReader, ReaderAt, pc] at known ⊢
    obtain ⟨rfl, current, behind, clean, rfl, same, size⟩ := known
    refine ⟨queue.finishRead behind same size, ⟨?_, fun b => ?_⟩, ?_⟩
    -- the switch stands for the step to the other buffer
    · simp only [List.length_append, List.length_singleton, if_true]
      rw [← next_slot, ← current]
      rfl
    · simp only [modify_buf]
      split
      · rfl
      · next apart => exact clean b apart
    · refine writer.frame ?_ (fun b => ?_)
      · simp only [List.length_append]
        omega
      · exact field_update BuffStr.actual b rfl

/-- A store into the buffer being filled leaves alone what waits to be read. -/
theorem held_write (room : s.writes.length < s.reads.length + 2) {b : Buf} (waiting : Unread s b)
    {n put : Nat} {xs : List UInt8} (n_le : n ≤ BUF_LEN.toNat)
    (inside : put + xs.length ≤ BUF_LEN.toNat) :
    (s.ppBuf.mem.write ((slot s.writes.length).base + put) xs).read b.base n = held s b n := by
  have apart : b ≠ slot s.writes.length := by
    rintro rfl
    obtain ⟨k, low, high, same⟩ := waiting
    have parity := (slot_eq_iff _ _).mp same
    omega
  apply Mem.read_write_disjoint
  generalize slot s.writes.length = c at apart
  cases b <;> cases c <;> simp only [Buf.base] <;> first | exact absurd rfl apart | omega

/-- One more byte is put into the buffer being filled. -/
theorem Inv.of_put (queue : Queue s) (known : ReaderAt s) {bytes : List UInt8} {actual : UInt32} {put : Nat}
    (current : s.ppBuf.currentWrite = slot s.writes.length) (room : s.writes.length < s.reads.length + 2)
    (short : bytes.length ≤ BUF_LEN.toNat) (more : put < bytes.length)
    (same : bytes.take put = held s (slot s.writes.length) put) :
    Inv
      { s with
        ppBuf := { s.ppBuf with
          mem := s.ppBuf.mem.write ((s.ppBuf.buf (slot s.writes.length)).addr + put)
            ((bytes.drop put).take 1) }
        writer := .memcpy (slot s.writes.length) bytes.length (put + 1) bytes actual } := by
  have single : (bytes.drop put).take 1 = [bytes[put]] := by
    rw [List.drop_eq_getElem_cons more]
    rfl
  rw [single, queue.layout.addr]
  -- what waits to be read is in the other buffer
  have inside : put + [bytes[put]].length ≤ BUF_LEN.toNat := by
    rw [List.length_singleton]
    omega
  have frame : ∀ b n, Unread s b → n ≤ BUF_LEN.toNat →
      (s.ppBuf.mem.write ((slot s.writes.length).base + put) [bytes[put]]).read b.base n =
        held s b n := fun b n waiting n_le => held_write room waiting n_le inside
  constructor
  · exact queue.quiet ⟨rfl, rfl, id, fun _ => rfl, fun _ => rfl, frame, fun _ _ => rfl⟩
  · exact known.frame (Nat.le_refl _) (fun _ => rfl) frame (fun _ _ => rfl)
  · refine ⟨rfl, current, room, short, rfl, more, ?_⟩
    rw [held, Mem.read_write_snoc, List.take_add_one, List.getElem?_eq_getElem more, same]
    rfl

theorem inv_stepWriter (inv : Inv s) : Inv (stepWriter s) := by
  obtain ⟨queue, reader, known⟩ := inv
  cases pc : s.writer with
  | idle => simpa only [stepWriter, pc] using Inv.mk queue reader known
  | writeSwitch bytes actual =>
    simp only [stepWriter, WriterAt, pc] at known ⊢
    refine .of_writer queue reader ?_
    split <;> simp_all [WriterAt]
  | moveWrite bytes actual =>
    simp only [stepWriter, WriterAt, pc] at known ⊢
    refine .of_writer queue reader ?_
    simpa only [WriterAt, queue.layout.next] using known
  | clearSwitch bytes actual =>
    simp only [stepWriter, WriterAt, pc] at known ⊢
    refine .of_writer queue reader ?_
    exact ⟨known.1, rfl, known.2⟩
  | takeCurrent bytes actual =>
    simp only [stepWriter, WriterAt, pc] at known ⊢
    refine .of_writer queue reader ?_
    exact ⟨known.1, known⟩
  | writeEnable b bytes actual =>
    simp only [stepWriter, WriterAt, pc] at known ⊢
    obtain ⟨rfl, current, switch, short⟩ := known
    refine .of_writer queue reader ?_
    -- the flag says whether fewer than two writes are waiting
    split
    · next writable => exact ⟨rfl, current, (writeEnable_iff queue).mp writable, short⟩
    · simp only [WriterAt, switch]
      exact current
  | minLen b bytes actual =>
    simp only [stepWriter, WriterAt, pc] at known ⊢
    obtain ⟨rfl, current, room, short⟩ := known
    refine .of_writer queue reader ?_
    exact ⟨rfl, current, room, short, Nat.min_eq_right short, Nat.zero_le _, rfl⟩
  | memcpy b len put bytes actual =>
    simp only [stepWriter, WriterAt, pc] at known ⊢
    obtain ⟨rfl, current, room, short, rfl, put_le, same⟩ := known
    split
    · next more => exact .of_put queue reader current room short more same
    · next done =>
      refine .of_writer queue reader ?_
      have all : put = bytes.length := by omega
      subst all
      rw [List.take_length] at same
      exact ⟨rfl, current, room, short, same⟩
  | setActual b bytes actual =>
    simp only [stepWriter, WriterAt, pc] at known ⊢
    obtain ⟨rfl, current, room, short, same⟩ := known
    have frame : ∀ b, Unread s b →
        ((s.ppBuf.modify (slot s.writes.length) fun b => { b with actual := actual }).buf b).actual =
          (s.ppBuf.buf b).actual := by
      intro b waiting
      rw [modify_buf, if_neg]
      rintro rfl
      have full := queue.unread_last.mp waiting
      omega
    refine ⟨queue.quiet (.of_modify rfl rfl rfl rfl rfl frame), reader.frame (Nat.le_refl _)
      (fun b => field_update BuffStr.offset b rfl) (fun _ _ _ _ => rfl) frame, ?_⟩
    refine ⟨rfl, current, room, short, same, ?_⟩
    simp only [modify_buf, if_true]
  | finish b bytes actual =>
    simp only [stepWriter, WriterAt, pc] at known ⊢
    obtain ⟨rfl, current, room, short, same, size⟩ := known
    refine ⟨queue.finishWrite room short same size, ?_, ?_⟩
    · refine reader.frame ?_ (fun b => field_update BuffStr.offset b rfl) (fun _ _ _ _ => rfl)
        (fun b _ => field_update BuffStr.actual b rfl)
      simp only [List.length_append]
      omega
    · simp only [WriterAt, List.length_append, List.length_singleton, if_true]
      rw [← next_slot, ← current]
      rfl

theorem inv_step (inv : Inv s) {e : Event} (fine : e.Admissible) : Inv (step s e) := by
  cases e with
  | callRead count =>
    obtain ⟨queue, known, writer⟩ := inv
    cases pc : s.reader with
    | idle =>
      simp only [step, ReaderAt, pc] at known ⊢
      exact .of_reader queue writer ⟨known.1, known.2, fine⟩
    | _ => simpa only [step, pc] using Inv.mk queue known writer
  | callWrite bytes actual =>
    obtain ⟨queue, reader, known⟩ := inv
    cases pc : s.writer with
    | idle =>
      simp only [step, WriterAt, pc] at known ⊢
      exact .of_writer queue reader ⟨known, fine⟩
    | _ => simpa only [step, pc] using Inv.mk queue reader known
  | reader => exact inv_stepReader inv
  | writer => exact inv_stepWriter inv

theorem inv_start {gPpBuf ppBuf : PingpongBuffer} {mem : Option (Mem UInt8)}
    (ready : pingpongInit gPpBuf mem = some ppBuf) : Inv (start ppBuf) := by
  obtain ⟨mem, rfl⟩ : ∃ m, mem = some m := by
    cases mem with
    | none => simp [pingpongInit] at ready
    | some m => exact ⟨m, rfl⟩
  simp only [pingpongInit, Option.some.injEq] at ready
  subst ready
  -- nothing is written yet
  have empty (b : Buf) : ¬ ∃ k, 0 ≤ k ∧ k < 0 ∧ slot k = b := by
    rintro ⟨k, -, none, -⟩
    omega
  refine ⟨⟨⟨?_, ?_, ?_⟩, Nat.le_refl _, Nat.zero_le _, ?_, ?_, ?_, .nil⟩, ⟨rfl, ?_⟩, rfl⟩
  · rintro (_ | _) <;> rfl
  · rintro (_ | _) <;> rfl
  · rintro (_ | _) <;> rfl
  · rintro (_ | _) <;> exact iff_of_false Bool.false_ne_true (empty _)
  · rintro (_ | _) <;> exact iff_of_true rfl (empty _)
  · intro k w _ found
    exact absurd found (by simp [start])
  · rintro (_ | _) <;> rfl

theorem inv_run {gPpBuf ppBuf : PingpongBuffer} {mem : Option (Mem UInt8)}
    (ready : pingpongInit gPpBuf mem = some ppBuf) {events : List Event}
    (fine : ∀ e ∈ events, e.Admissible) : Inv (events.foldl step (start ppBuf)) := by
  have initial := inv_start ready
  generalize start ppBuf = s at initial ⊢
  induction events generalizing s with
  | nil => exact initial
  | cons e events ih =>
    exact ih (fun e' member => fine e' (List.mem_cons_of_mem _ member)) _
      (inv_step initial (fine e List.mem_cons_self))

/-! ### What the two parties see -/

theorem Inv.refuses (inv : Inv s) (refused : Refuses s) :
    s.writes.length = s.reads.length + 2 := by
  obtain ⟨b, bytes, actual, pc, closed⟩ := refused
  have known := inv.writer
  simp only [WriterAt, pc] at known
  obtain ⟨rfl, -⟩ := known
  have open_iff := writeEnable_iff inv.queue
  have ahead := inv.queue.ahead
  rw [closed] at open_iff
  simp only [Bool.false_eq_true, false_iff] at open_iff
  omega

/-- The reader finds a write exactly when one is waiting. -/
theorem Inv.readable (inv : Inv s) {count : UInt32} {b : Buf} (pc : s.reader = .readEnable count b) :
    (s.ppBuf.buf b).readEnable = true ↔ s.reads.length < s.writes.length := by
  have known := inv.reader
  simp only [ReaderAt, pc] at known
  obtain ⟨rfl, -⟩ := known
  exact readEnable_iff inv.queue

theorem Inv.copies (inv : Inv s) {b : Buf} (copies : s.reader.Copies b) :
    b = slot s.reads.length ∧ s.reads.length < s.writes.length := by
  have known := inv.reader
  cases pc : s.reader <;> simp only [pc, Reader.Copies] at copies <;> simp only [ReaderAt, pc] at known <;>
    exact ⟨copies ▸ known.1, known.2.2.1⟩

theorem Inv.fills (inv : Inv s) {b : Buf} (fills : s.writer.Fills b) :
    b = slot s.writes.length ∧ s.writes.length < s.reads.length + 2 := by
  have known := inv.writer
  cases pc : s.writer <;> simp only [pc, Writer.Fills] at fills <;> simp only [WriterAt, pc] at known <;>
    exact ⟨fills ▸ known.1, known.2.2.1⟩

theorem Inv.apart (inv : Inv s) (b : Buf) : ¬ (s.writer.Fills b ∧ s.reader.Copies b) := by
  rintro ⟨fills, copies⟩
  obtain ⟨rfl, behind⟩ := inv.copies copies
  obtain ⟨same, room⟩ := inv.fills fills
  have parity := (slot_eq_iff _ _).mp same
  omega

/-- In whatever order the statements of the two parties come, the reads are the accepted writes in their
order. Only with two of them unread is a write refused, and only with none is a read. -/
theorem pingpong_exactly_once (gPpBuf ppBuf : PingpongBuffer) (mem : Option (Mem UInt8))
    (ready : pingpongInit gPpBuf mem = some ppBuf) (events : List Event)
    (fine : ∀ e ∈ events, e.Admissible) :
    let s := events.foldl step (start ppBuf)
    List.Forall₂ Returns (s.writes.take s.reads.length) s.reads ∧
      s.reads.length ≤ s.writes.length ∧
      (∀ count b, s.reader = .readEnable count b →
        ((s.ppBuf.buf b).readEnable = true ↔ s.reads.length < s.writes.length)) ∧
      (Refuses s → s.writes.length = s.reads.length + 2) ∧
      ∀ b, ¬ (s.writer.Fills b ∧ s.reader.Copies b) := by
  have inv := inv_run ready fine
  exact ⟨inv.queue.returned, inv.queue.behind, fun _ _ => inv.readable, inv.refuses, inv.apart⟩

/-- The zeroed `g_pp_buf` of the image. -/
def gPpBuf : PingpongBuffer :=
  ⟨fun _ => ⟨0, .buf1, false, false, 0, 0, 0⟩, fun _ => 0, .buf1, false, .buf1, false⟩

/-- A write of two bytes and a read, one call after the other. -/
def beacon : List Event :=
  [.callWrite [8, 0] 60] ++ List.replicate 10 .writer ++ [.callRead 24] ++ List.replicate 33 .reader

theorem pingpong_exactly_once_beacon :
    ∃ ppBuf, pingpongInit gPpBuf (some fun _ => 0) = some ppBuf ∧
      (beacon.foldl step (start ppBuf)).reads.map Returned.actual = [(60 : UInt32)] ∧
      ¬ Refuses (beacon.foldl step (start ppBuf)) := by
  obtain ⟨-, -, -, refused, -⟩ := pingpong_exactly_once gPpBuf _ (some fun _ => 0) rfl beacon
    (by simp [beacon, Event.Admissible, BUF_LEN])
  exact ⟨_, rfl, by decide, fun full => absurd (refused full) (by decide)⟩

end Bk7251.Airkiss
