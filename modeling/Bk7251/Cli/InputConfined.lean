import Bk7251.Cli.GetInput
import Bk7251.Lib.Machine

/-!
# The input stays in its buffer

A run of `cli_main` is confined exactly as long as every fetch is fine in the state that it finds.
-/
namespace Bk7251.Cli

open Lib UartDebug

theorem putInbuf_of_le (inbuf : Mem UInt8) {i : Nat} {bytes : List UInt8}
    (inside : i + bytes.length ≤ INBUF_SIZE) : putInbuf inbuf i bytes = .ok (inbuf.write i bytes) :=
  Mem.storeWithin_of_le _ _ inside

theorem putInbuf_of_lt (inbuf : Mem UInt8) {i : Nat} {bytes : List UInt8}
    (outside : INBUF_SIZE < i + bytes.length) : putInbuf inbuf i bytes = .error .inbuf :=
  Mem.storeWithin_of_lt _ _ outside

/-! ### Frames -/

theorem toNat_signExtend {ch : UInt8} : (signExtend ch).toNat = ch.toNat ↔ ch < 0x80 := by
  unfold signExtend
  split
  next plain => exact iff_of_true (UInt8.toNat_toUInt32 ch) plain
  next negative =>
    refine iff_of_false ?_ negative
    have bound := ch.toNat_lt
    have large : 128 ≤ ch.toNat := Nat.not_lt.mp fun less => negative (UInt8.lt_iff_toNat_lt.mpr less)
    rw [UInt32.toNat_sub, UInt8.toNat_toUInt32]
    simp only [UInt32.reduceToNat]
    omega

section

variable {s : CliSt} {chip : Chip} {f : Frame}

theorem len_of_lt (plain : f.announced < 0x80) : f.len = UInt32.ofNat (4 + f.announced.toNat) := by
  have value : signExtend f.announced = UInt32.ofNat f.announced.toNat := by
    apply UInt32.toNat_inj.mp
    have bound := f.announced.toNat_lt
    rw [toNat_signExtend.mpr plain, UInt32.toNat_ofNat']
    omega
  rw [Frame.len, value, UInt32.ofNat_add]
  rfl

/-- Once the loop is over, the frame is run and is among those served. -/
theorem served_of_loopFrame {t : CliSt} (turns : f.left = 0) (ran : s.loopFrame chip f = .ok t) :
    ∃ sent, bkregRunCommand chip s.inbuf f.len = .ok sent ∧
      t.served = s.served ++ [⟨f.announced, f.read, sent⟩] := by
  rw [CliSt.loopFrame, if_pos turns] at ran
  cases sends : bkregRunCommand chip s.inbuf f.len with
  | error beyond =>
    rw [sends] at ran
    cases ran
  | ok sent =>
    rw [sends] at ran
    cases cleared : putInbuf s.inbuf 0 (List.replicate f.len.toNat 0) with
    | error beyond =>
      rw [cleared] at ran
      cases ran
    | ok inbuf =>
      rw [cleared] at ran
      cases ran
      exact ⟨sent, rfl, rfl⟩

/-- Whatever comes of the loop, the turns that are left are for bytes that were announced and not read. -/
theorem turns_of_loopFrame (kept : Keeps Confined (s.loopFrame chip f)) :
    f.read + f.left.toNat = f.announced.toNat := by
  obtain ⟨t, ran, confined⟩ := kept
  by_cases turns : f.left = 0
  · obtain ⟨sent, _, behind⟩ := served_of_loopFrame turns ran
    have right : Served.Right ⟨f.announced, f.read, sent⟩ := by
      apply confined.served
      rw [behind]
      exact List.mem_append_right _ (List.mem_singleton_self _)
    rw [turns]
    exact right.read
  · rw [CliSt.loopFrame, if_neg turns] at ran
    cases ran
    exact (confined.loop f rfl).turns

/-- The loop goes on. -/
theorem loopFrame_next (turns : f.left ≠ 0) (served : ∀ v ∈ s.served, v.Right) (place : s.bp = 4 + f.read) :
    Keeps Confined (s.loopFrame chip f) ↔
      s.bp < INBUF_SIZE ∧ f.read + f.left.toNat = f.announced.toNat := by
  have some : 0 < f.left.toNat := Nat.pos_of_ne_zero ((toNat_ne_zero _).mp turns)
  refine ⟨fun kept => ⟨?_, turns_of_loopFrame kept⟩, ?_⟩
  · rw [CliSt.loopFrame, if_neg turns, keeps_ok] at kept
    exact kept.place
  · rintro ⟨inside, all⟩
    rw [CliSt.loopFrame, if_neg turns, keeps_ok]
    refine ⟨inside, ?_, served⟩
    intro g same
    cases same
    exact ⟨by omega, place, all⟩

/-- The loop is over. -/
theorem loopFrame_end (turns : f.left = 0) (served : ∀ v ∈ s.served, v.Right) (place : s.bp = 4 + f.read)
    (most : s.bp ≤ INBUF_SIZE) :
    Keeps Confined (s.loopFrame chip f) ↔
      f.read = f.announced.toNat ∧ Answers s.inbuf f.announced.toNat := by
  have plain (all : f.read = f.announced.toNat) : f.announced.toNat < 128 := by
    simp only [INBUF_SIZE] at most
    omega
  have len (all : f.read = f.announced.toNat) : f.len = UInt32.ofNat (4 + f.announced.toNat) :=
    len_of_lt (UInt8.lt_iff_toNat_lt.mpr (plain all))
  constructor
  · rintro ⟨t, ran, confined⟩
    obtain ⟨sent, sends, behind⟩ := served_of_loopFrame turns ran
    have right : Served.Right ⟨f.announced, f.read, sent⟩ := by
      apply confined.served
      rw [behind]
      exact List.mem_append_right _ (List.mem_singleton_self _)
    rw [len right.read] at sends
    have answered := bkregRunCommand_sends_iff chip s.inbuf (plain right.read)
    exact ⟨right.read, answered.mp ⟨sent, sends, right.responses⟩⟩
  · rintro ⟨all, answers⟩
    obtain ⟨sent, sends, inside⟩ := (bkregRunCommand_sends_iff chip s.inbuf (plain all)).mpr answers
    have clear : 0 + (List.replicate f.len.toNat (0 : UInt8)).length ≤ INBUF_SIZE := by
      rw [List.length_replicate, len all, UInt32.toNat_ofNat']
      simp only [INBUF_SIZE] at most ⊢
      omega
    rw [CliSt.loopFrame, if_pos turns, putInbuf_of_le _ clear, len all, sends]
    refine ⟨_, rfl, Nat.succ_pos 127, fun _ member => absurd member (Option.not_mem_none _), ?_⟩
    intro v member
    rcases List.mem_append.mp member with before | last
    · exact served v before
    · rw [List.mem_singleton.mp last]
      exact ⟨all, inside⟩

/-- A length byte is the number of turns of its loop exactly where it has no sign. -/
theorem length_confined_iff {ch : UInt8} (place : s.bp = 4 + 0) (served : ∀ v ∈ s.served, v.Right) :
    Keeps Confined (s.loopFrame chip ⟨ch, ch, signExtend ch, 0⟩) ↔ ch < 0x80 := by
  have inside : s.bp < INBUF_SIZE := by
    rw [place]
    decide
  rw [← toNat_signExtend]
  by_cases turns : signExtend ch = 0
  · have zero : (signExtend ch).toNat = 0 := congrArg UInt32.toNat turns
    rw [loopFrame_end turns served place (Nat.le_of_lt inside), zero]
    refine and_iff_left_of_imp fun none => ?_
    dsimp only at none ⊢
    rw [← none]
    exact ⟨fun _ => by decide, fun _ => by decide⟩
  · rw [loopFrame_next turns served place, Nat.zero_add]
    exact and_iff_right inside

/-- A turn of the loop over a payload. -/
theorem payload_confined_iff (cli : Commands) {char : Option UInt8} (confined : Confined s)
    (frame : s.frame = some f) : Keeps Confined (s.payload chip f char) ↔ s.Fine cli char := by
  obtain ⟨goesOn, place, turns⟩ := confined.loop f frame
  have some : f.left ≠ 0 := (toNat_ne_zero _).mpr (by omega)
  have next := toNat_pred f.left some
  have stored : putInbuf s.inbuf s.bp [char.getD f.ch] = .ok (s.inbuf.write s.bp [char.getD f.ch]) :=
    putInbuf_of_le _ confined.place
  simp only [CliSt.payload, stored, bind, Except.bind]
  cases char with
  | none =>
    -- the turn is made, and the byte is still to be read
    refine iff_of_false (fun kept => ?_) (by simp only [CliSt.Fine, frame, not_false_eq_true])
    have missing := turns_of_loopFrame kept
    simp only [Option.toList_none, List.length_nil, Nat.add_zero, next] at missing
    omega
  | some ch =>
    -- the buffer is filled behind the four bytes of the head
    have place' : s.bp + 1 = 4 + (f.read + (Option.some ch).toList.length) := by
      simp only [Option.toList_some, List.length_singleton]
      omega
    simp only [CliSt.Fine, frame]
    -- the last byte ends the loop, and the frame is run
    by_cases last : f.left = 1
    · have ended : f.left - 1 = 0 := by
        rw [last]
        rfl
      have all : f.read + (Option.some ch).toList.length = f.announced.toNat := by
        rw [last] at turns
        exact turns
      rw [if_pos last]
      exact Iff.trans (loopFrame_end ended confined.served place' confined.place) (and_iff_right all)
    · have more : f.left - 1 ≠ 0 := by
        rw [toNat_ne_zero, next]
        have other : f.left.toNat ≠ 1 := fun one => last (UInt32.toNat_inj.mp one)
        omega
      rw [if_neg last]
      refine Iff.trans (loopFrame_next more confined.served place') (and_iff_left ?_)
      simp only [Option.toList_some, List.length_singleton, next]
      omega

end

/-! ### Text -/

section

variable (cli : Commands)

/-- Only what is before `bp` is compared. -/
theorem matching_write (inbuf : Mem UInt8) (bp : Nat) (bytes : List UInt8) :
    matching cli (inbuf.write bp bytes) bp = matching cli inbuf bp := by
  have same := Mem.read_write_disjoint inbuf 0 bp bp bytes (.inl (Nat.le_of_eq (Nat.zero_add bp)))
  rw [matching, same, matching]

theorem completes_write (inbuf : Mem UInt8) (bp : Nat) (bytes : List UInt8) :
    Completes cli (inbuf.write bp bytes) bp ↔ Completes cli inbuf bp := by
  rw [Completes, matching_write, Completes]

theorem tabComplete_within_iff {inbuf : Mem UInt8} {bp : Nat} (inside : bp < INBUF_SIZE) :
    Keeps (fun r => r.2 < INBUF_SIZE) (tabComplete cli inbuf bp) ↔ Completes cli inbuf bp := by
  unfold tabComplete
  split
  next fm only =>
    -- with one name that matches, the question is about that name only
    have completes : Completes cli inbuf bp ↔
        INBUF_SIZE ≤ fm.length ∨ (bp ≤ fm.length ∧ fm.length + 2 ≤ INBUF_SIZE) := by
      rw [Completes, only]
      exact ⟨fun all => all fm rfl, fun fits name same => by cases same; exact fits⟩
    rw [completes]
    -- a name as long as the buffer is not completed
    by_cases short : fm.length < INBUF_SIZE
    · have taken : (bp : Int) + (fm.length - bp) < INBUF_SIZE := by omega
      have space (m : Mem UInt8) : putInbuf m fm.length [SPACE] = .ok (m.write fm.length [SPACE]) :=
        putInbuf_of_le m short
      simp only [if_pos taken]
      -- a name shorter than what was typed is copied with a negative length
      by_cases negative : (fm.length : Int) - bp < 0
      · rw [if_pos negative]
        exact iff_of_false (not_keeps_error _) (by omega)
      · have copied : putInbuf inbuf bp (fm.drop bp) = .ok (inbuf.write bp (fm.drop bp)) := by
          apply putInbuf_of_le
          rw [List.length_drop]
          omega
        rw [if_neg negative, copied]
        simp only [bind, Except.bind, space]
        -- behind the name come a space and a zero
        by_cases fits : fm.length + 2 ≤ INBUF_SIZE
        · rw [putInbuf_of_le _ fits]
          exact iff_of_true (keeps_ok.mpr fits) (.inr ⟨by omega, fits⟩)
        · rw [putInbuf_of_lt _ (Nat.not_le.mp fits)]
          exact iff_of_false (not_keeps_error _) (by omega)
    · have left : ¬ (bp : Int) + (fm.length - bp) < INBUF_SIZE := by omega
      simp only [if_neg left]
      exact iff_of_true (keeps_ok.mpr inside) (.inl (Nat.not_lt.mp short))
  next others =>
    refine iff_of_true (keeps_ok.mpr inside) ?_
    intro fm only
    exact absurd only (others fm)

end

section

variable {cli : Commands} {s : CliSt} {chip : Chip}

theorem Confined.moved (confined : Confined s) (text : s.frame = none) {bp : Nat} (place : bp < INBUF_SIZE)
    (inbuf : Mem UInt8) : Confined { s with inbuf, bp } := by
  refine ⟨place, ?_, confined.served⟩
  intro f same
  rw [text] at same
  cases same

theorem lengthNext_stored (ch : UInt8) :
    CliSt.lengthNext { s with inbuf := s.inbuf.write s.bp [ch] } = s.lengthNext := by
  by_cases three : s.bp = 3
  · simp only [CliSt.lengthNext, three, Mem.write_of_lt, Nat.reduceLT]
  · simp only [CliSt.lengthNext, beq_eq_false_iff_ne.mpr three, Bool.and_false]

theorem headNext_cases {ch : UInt8} (head : s.headNext ch) : s.bp < 3 ∧ ch ≠ TAB := by
  simp only [CliSt.headNext, Bool.or_eq_true, Bool.and_eq_true, beq_iff_eq] at head
  rcases head with (⟨rfl, place⟩ | ⟨rfl, place⟩) | ⟨rfl, place⟩ <;> exact ⟨by omega, by decide⟩

theorem place_of_lengthNext (length : s.lengthNext) : s.bp = 3 := by
  simp only [CliSt.lengthNext, Bool.and_eq_true, beq_iff_eq] at length
  exact length.2

/-- A character of a line stays in the buffer where the length of a frame and a completion do. -/
theorem character_confined_iff (cli : Commands) (chip : Chip) (confined : Confined s) (text : s.frame = none)
    (ch : UInt8) :
    Keeps (fun r => Confined r.1) (s.character cli chip ch) ↔
      if s.lengthNext then ch < 0x80 else ch = TAB → Completes cli s.inbuf s.bp := by
  have inside := confined.place
  have ended : putInbuf s.inbuf s.bp [0] = .ok (s.inbuf.write s.bp [0]) := putInbuf_of_le _ inside
  unfold CliSt.character
  split
  next head =>
    obtain ⟨early, other⟩ := headNext_cases head
    have short : ¬ s.lengthNext := fun length => by
      have place := place_of_lengthNext length
      omega
    rw [if_neg short, keeps_ok]
    refine iff_of_true (confined.moved text ?_ s.inbuf) (absurd · other)
    simp only [INBUF_SIZE]
    omega
  next =>
    split
    next length =>
      have place := place_of_lengthNext length
      have four : s.bp + 1 = 4 + 0 := by omega
      exact Iff.trans keeps_map (length_confined_iff four confined.served)
    next =>
      split
      next ret =>
        rw [keeps_ok]
        exact iff_of_true confined fun tab => absurd (ret.symm.trans tab) (by decide)
      next =>
        split
        next ends =>
          rw [ended]
          exact iff_of_true (keeps_ok.mpr (confined.moved text (by decide) _))
            fun tab => absurd (ends.symm.trans tab) (by decide)
        next =>
          split
          next back =>
            rw [keeps_ok]
            refine iff_of_true (confined.moved text (by omega) s.inbuf) ?_
            rintro rfl
            exact absurd back (by decide)
          next =>
            split
            next tab =>
              -- the zero at `bp` is behind what the completion compares
              rw [ended, forall_prop_of_true tab, ← completes_write cli _ _ [0],
                ← tabComplete_within_iff cli inside]
              refine Iff.trans keeps_map (keeps_congr fun r => ?_)
              exact ⟨fun after => after.place, fun place => confined.moved text place r.1⟩
            next other =>
              -- a full buffer starts a new line; otherwise the place moves by one
              split
              next =>
                rw [keeps_ok]
                exact iff_of_true (confined.moved text (by decide) s.inbuf) (absurd · other)
              next room =>
                rw [keeps_ok]
                exact iff_of_true (confined.moved text (Nat.not_le.mp room) s.inbuf) (absurd · other)

/-- One call of `cli_getchar` and what `get_input` does with what it finds. -/
theorem getInput_confined_iff (confined : Confined s) (char : Option UInt8) :
    Keeps (fun r => Confined r.1) (s.getInput cli chip char) ↔ s.Fine cli char := by
  cases frame : s.frame with
  | some f =>
    simp only [CliSt.getInput, frame]
    exact Iff.trans keeps_map (payload_confined_iff cli confined frame)
  | none =>
    simp only [CliSt.getInput, CliSt.Fine, frame]
    cases char with
    | none => exact iff_of_true (keeps_ok.mpr confined) trivial
    | some ch =>
      have stored : putInbuf s.inbuf s.bp [ch] = .ok (s.inbuf.write s.bp [ch]) :=
        putInbuf_of_le _ confined.place
      have after := confined.moved frame confined.place (s.inbuf.write s.bp [ch])
      simp only [stored, bind, Except.bind]
      have character := character_confined_iff cli chip after frame ch
      rwa [lengthNext_stored, completes_write, frame] at character

theorem line_confined_iff (handled : Mem UInt8 → Mem UInt8) : Confined (s.line handled) ↔ Confined s := by
  unfold CliSt.line
  split <;> exact ⟨fun after => ⟨after.place, after.loop, after.served⟩,
    fun before => ⟨before.place, before.loop, before.served⟩⟩

theorem cliMain_confined_iff (confined : Confined s) (e : Fetch) :
    Keeps Confined (cliMain cli s e) ↔ (s.exited = false → s.Fine cli e.char) := by
  unfold cliMain
  by_cases exited : s.exited = true
  · rw [if_pos exited, keeps_ok]
    exact iff_of_true confined fun running => absurd exited (by rw [running]; decide)
  · rw [if_neg exited, forall_prop_of_true (Bool.eq_false_iff.mpr exited), ← getInput_confined_iff confined]
    refine Iff.trans keeps_map (keeps_congr fun r => ?_)
    split
    · exact line_confined_iff e.handled
    · exact Iff.rfl

/-- A fetch keeps a run confined exactly where it is fine. -/
theorem fetch_confined_iff (r : Except Beyond CliSt) (e : Fetch) (confined : Keeps Confined r) :
    Keeps Confined (fetch cli r e) ↔ Fine cli r e := by
  obtain ⟨s, rfl, now⟩ := confined
  rw [Fine]
  refine (cliMain_confined_iff now e).trans ⟨fun fine t same => ?_, fun fine => fine s rfl⟩
  cases same
  exact fine

end

theorem start_confined : Confined .start :=
  ⟨by decide, fun _ member => (nomatch member), fun _ member => (nomatch member)⟩

/-- Whatever comes from the UART and when, and whatever the commands are called: until the first fetch that is
not fine, no store leaves `inbuf` and `bp` is inside of it, the loops over payloads read what is announced, and
the responses stay inside of `tx_buf`. -/
theorem cli_input_confined_iff (cli : Commands) (fetches : List Fetch) :
    (∀ part, part <+: fetches → Keeps Confined (part.foldl (fetch cli) (.ok .start))) ↔
      Along (fetch cli) (Fine cli) (.ok .start) fetches :=
  always_iff_along fetch_confined_iff (keeps_ok.mpr start_confined) fetches

/-! ### Fetches that are not fine -/

/-- The characters arrive one after the other, and the UART has none where there is `none`. -/
def arrive (cli : Commands) (chars : List (Option UInt8)) : Except Beyond CliSt :=
  let chip : Chip := ⟨fun _ => 0, false, fun _ => 0, 0, fun _ => 0xFF, fun _ _ _ => 0⟩
  (chars.map fun char => ⟨char, chip, id⟩).foldl (fetch cli) (.ok .start)

def frameOf (length : UInt8) (payload : List UInt8) : List (Option UInt8) :=
  ([0x01, 0xE0, 0xFC, length] ++ payload).map some

/-- The buffer that was left, or else the frames with the bytes that were read of them. -/
def outcome (r : Except Beyond CliSt) : Beyond ⊕ List (UInt8 × Nat) :=
  match r with
  | .error beyond => .inl beyond
  | .ok s => .inr (s.served.map fun v => (v.announced, v.read))

theorem not_confined_of_beyond {r : Except Beyond CliSt} (beyond : Beyond) (left : outcome r = .inl beyond) :
    ¬ Keeps Confined r := by
  rintro ⟨s, rfl, _⟩
  cases left

theorem not_confined_of_read {r : Except Beyond CliSt} (announced : UInt8) (read : Nat)
    (served : outcome r = .inr [(announced, read)]) (short : read ≠ announced.toNat) : ¬ Keeps Confined r := by
  rintro ⟨s, rfl, confined⟩
  have frames : s.served.map (fun v => (v.announced, v.read)) = [(announced, read)] := Sum.inr.inj served
  obtain ⟨v, member, same⟩ : ∃ v ∈ s.served, (v.announced, v.read) = (announced, read) := by
    apply List.mem_map.mp
    rw [frames]
    exact List.mem_singleton_self _
  cases same
  exact short (confined.served v member).read

/-- A payload of 125 bytes leaves `inbuf`, and so does the completion to a name of 127; the response to a
register write of 123 bytes leaves `tx_buf`; and of a frame that is cut short, a byte is used that was not
read. -/
theorem frames_not_confined :
    ¬ Keeps Confined (arrive ⟨[], 0⟩ (frameOf 125 (List.replicate 125 0))) ∧
      ¬ Keeps Confined (arrive ⟨[some (List.replicate 127 0x61)], 1⟩ [some TAB]) ∧
      ¬ Keeps Confined (arrive ⟨[], 0⟩ (frameOf 123 (BEKEN_UART_REGISTER_WRITE_CMD :: List.replicate 122 0))) ∧
      ¬ Keeps Confined (arrive ⟨[], 0⟩ (frameOf 2 [0] ++ [none])) := by
  -- what is left to show is where each of the runs goes wrong
  refine ⟨not_confined_of_beyond .inbuf ?_, not_confined_of_beyond .inbuf ?_, not_confined_of_beyond .txBuf ?_,
    not_confined_of_read 2 1 ?_ (by decide)⟩
  · decide +kernel
  · decide +kernel
  · decide +kernel
  · decide +kernel

end Bk7251.Cli
