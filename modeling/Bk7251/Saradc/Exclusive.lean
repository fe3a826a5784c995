import Bk7251.Lib.Machine
import Bk7251.Saradc.Clients

/-!
# One client at a time

The detect task and the single reads wait for each other, but nobody waits for the handler of the ADC
objects, which waits for nobody; and a single read that times out leaves its handle open. In the runs in
which neither happens, and no two single reads overlap, the ADC has one holder at a time.
-/
namespace Bk7251.Saradc

open Lib

/-- Computed from two samples taken at `begin` or later. -/
def Fresh (begin : Nat) (x : Datum) : Prop :=
  ∃ p q : Sample, begin ≤ p.time ∧ begin ≤ q.time ∧
    x = { value := singleSum p.value q.value, sources := [p, q] }

/-- A call that has returned left its handle closed, and stored a value of its own samples with a 0. -/
def Call.Good (c : Call) : Prop :=
  ∀ ret value closed, c.phase = .returned ret value closed → closed = true ∧ (ret = 0 → Fresh c.begin value)

/-- The sessions on the ADC exclude each other. -/
structure Exclusive (s : Adc) : Prop where
  one : ∀ c c', s.hdl c = true → s.hdl c' = true → c = c'
  /-- two overlapping calls would open one handle twice -/
  use : s.useCnt = 0 ∨ s.useCnt = 1
  fills : ∀ c, s.hdl c = true → s.saradcDesc = some c
  returned : ∀ call ∈ s.calls, call.Good

namespace Adc

/-- A single read that finds no detect session may open the ADC. -/
def Free (s : Adc) : Prop :=
  s.hdl .detect = false → s.hdl .tadc = false ∧ ∀ call ∈ s.calls, call.phase ≠ .waiting

instance (s : Adc) : Decidable s.Free := inferInstanceAs (Decidable (_ → _))

/-- No client opens the ADC while the handler of the ADC objects has it open, nor that handler while
another client has; a single read begins no session while another one waits; none times out with its
handle open. -/
def Sound (s : Adc) : Event → Prop
  | .detectEnable => s.hdl .detect = false → s.hdl .single = false → s.hdl .tadc = false
  | .singleBegin => s.Free
  | .singleDelayed i => (∃ call ∈ s.calls[i]?, call.phase = .delaying) → s.Free
  | .singleTimeout i =>
    (∃ call ∈ s.calls[i]?, call.phase = .waiting) → s.tmpSingleSemaphore = false → s.hdl .single = false
  | .tadcBegin _ => s.hdl .tadc = false → s.hdl .detect = false ∧ s.hdl .single = false
  | _ => True

instance (s : Adc) : (e : Event) → Decidable (s.Sound e)
  | .detectEnable => inferInstanceAs (Decidable (_ → _))
  | .singleBegin => inferInstanceAs (Decidable s.Free)
  | .singleDelayed _ => inferInstanceAs (Decidable (_ → _))
  | .singleTimeout _ => inferInstanceAs (Decidable (_ → _))
  | .tadcBegin _ => inferInstanceAs (Decidable (_ → _))
  | .detectIntPoll | .singleTake _ | .tadcEnd _ | .isr .. => isTrue trivial

end Adc

/-! ### Sessions -/

/-- The ADC has one holder, or none. -/
structure Held (s : Adc) (holder : Option Client) : Prop where
  hdl : ∀ c, s.hdl c = true ↔ holder = some c
  use : s.useCnt = if holder.isSome then 1 else 0
  opened : s.opened = holder.isSome
  desc : ∀ c, holder = some c → s.saradcDesc = some c
  running : s.running = true → holder.isSome = true

/-- The samples stored so far were taken at `begin` or later, and more are to come. -/
structure Filling (begin : Nat) (d : Desc) : Prop where
  short : d.currentSampleDataCnt < ADC_TEMP_BUFFER_SIZE
  stored : ∀ k < d.currentSampleDataCnt, ∃ x : Sample, begin ≤ x.time ∧ d.pData k = x.datum

/-- One single read waits, or none: for its samples, or with its value and the semaphore there. -/
structure Session (s : Adc) (waiter : Option Nat) : Prop where
  waits : ∀ i begin, s.calls[i]? = some ⟨begin, .waiting⟩ → waiter = some i
  begun : ∀ call ∈ s.calls, call.begin ≤ s.now
  returned : ∀ call ∈ s.calls, call.Good
  idle : waiter = none → s.hdl .single = false ∧ s.tmpSingleSemaphore = false
  busy : ∀ i, waiter = some i → ∃ begin, s.calls[i]? = some ⟨begin, .waiting⟩ ∧
    (s.hdl .single = true ∧ s.tmpSingleSemaphore = false ∧ Filling begin (s.desc .single) ∨
      s.hdl .single = false ∧ s.tmpSingleSemaphore = true ∧ Fresh begin ((s.desc .single).pData 0))

def Inv (s : Adc) : Prop := ∃ holder waiter, Held s holder ∧ Session s waiter

theorem Inv.exclusive {s : Adc} (inv : Inv s) : Exclusive s := by
  obtain ⟨holder, waiter, held, session⟩ := inv
  refine ⟨fun c c' first second => ?_, ?_, fun c open' => ?_, session.returned⟩
  · exact Option.some.inj (((held.hdl c).mp first).symm.trans ((held.hdl c').mp second))
  · rw [held.use]
    cases holder with
    | none => exact .inl rfl
    | some c => exact .inr rfl
  · exact held.desc c ((held.hdl c).mp open')

theorem inv_start (desc : Client → Desc) : Inv (Adc.start desc) := by
  refine ⟨none, none, ⟨?_, rfl, rfl, nofun, nofun⟩, ⟨nofun, nofun, nofun, fun _ => ⟨rfl, rfl⟩, nofun⟩⟩
  exact fun c => iff_of_false nofun nofun

section

variable {s : Adc}

/-! ### The device and its holder -/

theorem Held.not_hdl {holder : Option Client} (held : Held s holder) {c : Client}
    (other : holder ≠ some c) : s.hdl c = false := by
  rw [← Bool.not_eq_true, held.hdl]
  exact other

/-- The first opening; the driver sets the count of samples to 0 unless the channel does not exist. -/
theorem ddevOpen_closed (closed : s.opened = false) (c : Client) : ∃ count running,
    (count = (s.desc c).currentSampleDataCnt ∨ count = 0) ∧
    s.ddevOpen c = { s with
      opened := true, useCnt := 1, saradcDesc := some c, running := running
      hdl := Function.update s.hdl c true
      desc := Function.update s.desc c { s.desc c with currentSampleDataCnt := count } } := by
  by_cases missing : (s.desc c).channel > SARADC_ADC_CHNL_MAX
  · refine ⟨(s.desc c).currentSampleDataCnt, s.running, .inl rfl, ?_⟩
    have same : Function.update s.desc c { s.desc c with
        currentSampleDataCnt := (s.desc c).currentSampleDataCnt } = s.desc := Function.update_eq_self c s.desc
    rw [same]
    simp [Adc.ddevOpen, Adc.saradcOpen, closed, missing]
  · refine ⟨0, true, .inr rfl, ?_⟩
    simp [Adc.ddevOpen, Adc.saradcOpen, Adc.setDesc, closed, missing]

/-- A client whose handle is open holds the ADC alone, and closing it closes the ADC. -/
theorem ddevClose_held {c : Client} (held : Held s (some c)) :
    s.ddevClose c = { s with
      opened := false, useCnt := 0, running := false, hdl := Function.update s.hdl c false } := by
  have valid : s.hdl c = true := (held.hdl c).mpr rfl
  have use : s.useCnt - 1 = 0 := by
    rw [held.use, Option.isSome_some, if_pos rfl]
    rfl
  rw [Adc.ddevClose, if_pos valid]
  simp only [use, if_true, Adc.saradcClose]

theorem ddevClose_other {holder : Option Client} {c : Client} (held : Held s holder)
    (other : holder ≠ some c) : s.ddevClose c = s := by
  rw [Adc.ddevClose, held.not_hdl other]
  rfl

theorem Held.take {t : Adc} {c : Client} (held : Held s none) (hdl : t.hdl = Function.update s.hdl c true)
    (use : t.useCnt = 1) (opened : t.opened = true) (desc : t.saradcDesc = some c) : Held t (some c) where
  hdl := by
    intro c'
    rw [hdl]
    by_cases same : c' = c
    · rw [same, Function.update_self]
      simp
    · rw [Function.update_of_ne same, held.hdl]
      exact iff_of_false nofun fun found => same (Option.some.inj found).symm
  use := use
  opened := opened
  desc := fun c' found => found ▸ desc
  running := fun _ => rfl

theorem Held.release {t : Adc} {c : Client} (held : Held s (some c))
    (hdl : t.hdl = Function.update s.hdl c false) (use : t.useCnt = 0) (opened : t.opened = false)
    (running : t.running = false) : Held t none where
  hdl := by
    intro c'
    rw [hdl]
    by_cases same : c' = c
    · rw [same, Function.update_self]
      exact iff_of_false nofun nofun
    · rw [Function.update_of_ne same, held.hdl]
      exact iff_of_false (fun found => same (Option.some.inj found).symm) nofun
  use := use
  opened := opened
  desc := nofun
  running := fun started => absurd started (by rw [running]; decide)

/-- What a single read does not see. -/
theorem Session.frame {t : Adc} {waiter : Option Nat} (session : Session s waiter) (calls : t.calls = s.calls)
    (sema : t.tmpSingleSemaphore = s.tmpSingleSemaphore) (hdl : t.hdl .single = s.hdl .single)
    (desc : t.desc .single = s.desc .single) (now : s.now ≤ t.now) : Session t waiter where
  waits := by rw [calls]; exact session.waits
  begun := by rw [calls]; exact fun call member => Nat.le_trans (session.begun call member) now
  returned := by rw [calls]; exact session.returned
  idle := by rw [hdl, sema]; exact session.idle
  busy := by rw [calls, hdl, sema, desc]; exact session.busy

theorem Held.frame {t : Adc} {holder : Option Client} (held : Held s holder) (hdl : t.hdl = s.hdl)
    (use : t.useCnt = s.useCnt) (opened : t.opened = s.opened) (desc : t.saradcDesc = s.saradcDesc)
    (running : t.running = true → holder.isSome = true) : Held t holder where
  hdl := by rw [hdl]; exact held.hdl
  use := use.trans held.use
  opened := opened.trans held.opened
  desc := by rw [desc]; exact held.desc
  running := running

theorem Held.eq_none {holder : Option Client} (held : Held s holder) (detect : s.hdl .detect = false)
    (single : s.hdl .single = false) (tadc : s.hdl .tadc = false) : holder = none := by
  cases holder with
  | none => rfl
  | some c =>
    have valid := (held.hdl c).mpr rfl
    cases c <;> simp_all

/-- A client that is not the single read takes the free ADC. -/
theorem inv_open {waiter : Option Nat} (held : Held s none) (session : Session s waiter) {c : Client}
    (other : c ≠ .single) : Inv (s.ddevOpen c) := by
  obtain ⟨count, running, _, opened⟩ := ddevOpen_closed held.opened c
  rw [opened]
  refine ⟨some c, waiter, held.take rfl rfl rfl rfl, session.frame rfl rfl ?_ ?_ (Nat.le_refl _)⟩
  · exact Function.update_of_ne other.symm _ _
  · exact Function.update_of_ne other.symm _ _

/-- A client that is not the single read closes its handle. -/
theorem inv_close {holder : Option Client} {waiter : Option Nat} (held : Held s holder)
    (session : Session s waiter) {c : Client} (other : c ≠ .single) : Inv (s.ddevClose c) := by
  by_cases mine : holder = some c
  · subst mine
    rw [ddevClose_held held]
    refine ⟨none, waiter, held.release rfl rfl rfl rfl, session.frame rfl rfl ?_ rfl (Nat.le_refl _)⟩
    exact Function.update_of_ne other.symm _ _
  · rw [ddevClose_other held mine]
    exact ⟨holder, waiter, held, session⟩

theorem setDesc_of_ne {c c' : Client} {d : Desc} (other : c' ≠ c) : (s.setDesc c d).desc c' = s.desc c' := by
  rw [Adc.setDesc]
  exact Function.update_of_ne other d s.desc

/-! ### The detect task and the ADC objects -/

theorem inv_detectEnable (inv : Inv s) (sound : s.Sound .detectEnable) : Inv s.detectEnable := by
  rw [Adc.detectEnable]
  split
  · exact inv
  next closed =>
    obtain ⟨holder, waiter, held, session⟩ := inv
    split
    · exact ⟨holder, waiter, held.frame rfl rfl rfl rfl held.running, session.frame rfl rfl rfl rfl (Nat.le_refl _)⟩
    next closed' =>
      have detect := (Bool.not_eq_true _).mp closed
      have single := (Bool.not_eq_true _).mp closed'
      obtain rfl := held.eq_none detect single (sound detect single)
      refine @inv_open _ waiter ?_ ?_ .detect (by decide)
      · exact held.frame rfl rfl rfl rfl held.running
      · exact session.frame rfl rfl rfl (setDesc_of_ne (by decide)) (Nat.le_refl _)

theorem inv_detectIntPoll (inv : Inv s) : Inv s.detectIntPoll := by
  rw [Adc.detectIntPoll]
  split
  · exact inv
  · obtain ⟨holder, waiter, held, session⟩ := inv
    refine @inv_close _ holder waiter ?_ ?_ .detect (by decide)
    · exact held.frame rfl rfl rfl rfl held.running
    · exact session.frame rfl rfl rfl rfl (Nat.le_refl _)

theorem inv_tadcBegin {channel : UInt8} (inv : Inv s) (sound : s.Sound (.tadcBegin channel)) :
    Inv (s.tadcBegin channel) := by
  rw [Adc.tadcBegin]
  split
  · exact inv
  next closed =>
    obtain ⟨holder, waiter, held, session⟩ := inv
    have tadc := (Bool.not_eq_true _).mp closed
    obtain ⟨detect, single⟩ := sound tadc
    obtain rfl := held.eq_none detect single tadc
    refine @inv_open _ waiter ?_ ?_ .tadc (by decide)
    · exact held.frame rfl rfl rfl rfl held.running
    · exact session.frame rfl rfl rfl (setDesc_of_ne (by decide)) (Nat.le_refl _)

theorem inv_tadcEnd {timeout : Bool} (inv : Inv s) : Inv (s.tadcEnd timeout) := by
  rw [Adc.tadcEnd]
  split
  · obtain ⟨holder, waiter, held, session⟩ := inv
    refine @inv_close _ holder waiter ?_ ?_ .tadc (by decide)
    · exact held.frame rfl rfl rfl rfl held.running
    · exact session.frame rfl rfl rfl rfl (Nat.le_refl _)
  · exact inv

/-! ### Single reads -/

theorem Session.waiting {waiter : Option Nat} (session : Session s waiter) {i begin : Nat}
    (at' : s.calls[i]? = some ⟨begin, .waiting⟩) :
    s.hdl .single = true ∧ s.tmpSingleSemaphore = false ∧ Filling begin (s.desc .single) ∨
      s.hdl .single = false ∧ s.tmpSingleSemaphore = true ∧ Fresh begin ((s.desc .single).pData 0) := by
  obtain ⟨begin', same, sessions⟩ := session.busy i (session.waits i begin at')
  obtain rfl : begin = begin' := by
    rw [at'] at same
    exact congrArg Call.begin (Option.some.inj same)
  exact sessions

/-- A call that does not wait any more, or not yet; the rest of the session stays as it is. -/
theorem Session.ended {t : Adc} {waiter : Option Nat} {i begin : Nat} {phase : Phase}
    (session : Session s waiter) (at' : s.calls[i]? = some ⟨begin, .waiting⟩)
    (calls : t.calls = s.calls.set i ⟨begin, phase⟩) (other : phase ≠ .waiting)
    (good : Call.Good ⟨begin, phase⟩) (hdl : t.hdl .single = false) (sema : t.tmpSingleSemaphore = false)
    (now : s.now ≤ t.now) : Session t none where
  waits := by
    intro j begin' found
    rw [calls, List.getElem?_set] at found
    split at found
    next same =>
      split at found
      · exact absurd (congrArg Call.phase (Option.some.inj found)) other
      · cases found
    next apart =>
      have mine := session.waits i begin at'
      rw [session.waits j begin' found] at mine
      exact absurd (Option.some.inj mine).symm apart
  begun := by
    rw [calls]
    intro call member
    obtain old | rfl := List.mem_or_eq_of_mem_set member
    · exact Nat.le_trans (session.begun call old) now
    · exact Nat.le_trans (session.begun ⟨begin, .waiting⟩ (List.mem_of_getElem? at')) now
  returned := by
    rw [calls]
    intro call member
    obtain old | rfl := List.mem_or_eq_of_mem_set member
    · exact session.returned call old
    · exact good
  idle := fun _ => ⟨hdl, sema⟩
  busy := nofun

theorem inv_singleGetEnable {i begin : Nat} (inv : Inv s) (at' : s.calls[i]? = some ⟨begin, .delaying⟩)
    (free : s.Free) : Inv (s.singleGetEnable i begin) := by
  obtain ⟨holder, waiter, held, session⟩ := inv
  rw [Adc.singleGetEnable]
  split
  next =>
    obtain ⟨bound, found⟩ := List.getElem?_eq_some_iff.mp at'
    have same : s.calls.set i { begin := begin, phase := .delaying } = s.calls := by
      rw [← found]
      exact List.set_getElem_self bound
    exact ⟨holder, waiter, held.frame rfl rfl rfl rfl held.running, session.frame same rfl rfl rfl (Nat.le_refl _)⟩
  next closed =>
    have detect := (Bool.not_eq_true _).mp closed
    obtain ⟨tadc, quiet⟩ := free detect
    have alone : ∀ j begin', s.calls[j]? ≠ some (Call.mk begin' .waiting) :=
      fun j begin' found => quiet _ (List.mem_of_getElem? found) rfl
    -- the semaphore and the handle then belong to nobody, and the new session starts clean
    obtain rfl : waiter = none := by
      refine Option.eq_none_iff_forall_ne_some.mpr fun j found => ?_
      obtain ⟨begin', other, _⟩ := session.busy j found
      exact alone j begin' other
    obtain ⟨single, absent⟩ := session.idle rfl
    obtain rfl := held.eq_none detect single tadc
    let init : Desc :=
      { pData := fun _ => .zero, currentSampleDataCnt := 0, channel := ADC_TEMP_SENSER_CHANNEL }
    obtain ⟨count, running, zero, opened⟩ := @ddevOpen_closed (s.setDesc .single init) held.opened .single
    show Inv (((s.setDesc .single init).ddevOpen .single).setCall i begin .waiting)
    rw [opened]
    refine ⟨some .single, some i, held.take rfl rfl rfl rfl, ?_⟩
    constructor
    case waits =>
      intro j begin' found
      change (s.calls.set i _)[j]? = _ at found
      rw [List.getElem?_set] at found
      split at found
      next same => exact congrArg some same
      next => exact absurd found (alone j begin')
    case begun =>
      intro call member
      obtain old | rfl := List.mem_or_eq_of_mem_set member
      · exact session.begun call old
      · exact session.begun ⟨begin, .delaying⟩ (List.mem_of_getElem? at')
    case returned =>
      intro call member
      obtain old | rfl := List.mem_or_eq_of_mem_set member
      · exact session.returned call old
      · exact nofun
    case idle => exact nofun
    case busy =>
      rintro _ ⟨⟩
      obtain ⟨bound, _⟩ := List.getElem?_eq_some_iff.mp at'
      have fresh : (s.setDesc .single init).desc .single = init := by simp [Adc.setDesc]
      rw [fresh] at zero
      obtain rfl : count = 0 := zero.elim id id
      have stored : Filling begin { init with currentSampleDataCnt := 0 } := ⟨by decide, nofun⟩
      refine ⟨begin, List.getElem?_set_self bound, .inl ⟨?_, absent, ?_⟩⟩
      · simp [Adc.setCall]
      · simpa [Adc.setCall, fresh] using stored

theorem inv_singleTake {i : Nat} (inv : Inv s) : Inv (s.singleTake i) := by
  rw [Adc.singleTake]
  split
  next begin at' =>
    split
    next there =>
      obtain ⟨holder, waiter, held, session⟩ := inv
      obtain ⟨_, absent, _⟩ | ⟨closed, _, fresh⟩ := session.waiting at'
      · exact absurd there (by rw [absent]; decide)
      · refine ⟨holder, none, held.frame rfl rfl rfl rfl held.running, ?_⟩
        refine session.ended at' rfl nofun ?_ closed rfl (Nat.le_refl _)
        intro ret value done returned
        obtain ⟨rfl, rfl, rfl⟩ := Phase.returned.inj returned
        exact ⟨by rw [closed]; rfl, fun _ => fresh⟩
    next => exact inv
  next => exact inv

theorem inv_singleTimeout {i : Nat} (inv : Inv s) (sound : s.Sound (.singleTimeout i)) :
    Inv (s.singleTimeout i) := by
  rw [Adc.singleTimeout]
  split
  next begin at' =>
    split
    next => exact inv
    next absent =>
      obtain ⟨holder, waiter, held, session⟩ := inv
      have closed := sound ⟨_, at', rfl⟩ ((Bool.not_eq_true _).mp absent)
      -- a waiting call has its handle open or its semaphore there, so this one never times out
      obtain ⟨stillOpen, _, _⟩ | ⟨_, there, _⟩ := session.waiting at'
      · exact absurd stillOpen (by rw [closed]; decide)
      · exact absurd there absent
  next => exact inv

/-- A new call, which has not looked at the ADC yet. -/
theorem Session.begins {waiter : Option Nat} (session : Session s waiter) :
    Session { s with calls := s.calls ++ [{ begin := s.now, phase := .delaying }] } waiter where
  waits := by
    intro i begin found
    rw [List.getElem?_append] at found
    split at found
    · exact session.waits i begin found
    · have last := List.mem_of_getElem? found
      rw [List.mem_singleton] at last
      cases last
  begun := by
    intro call member
    obtain old | new := List.mem_append.mp member
    · exact session.begun call old
    · exact Nat.le_of_eq (congrArg Call.begin (List.mem_singleton.mp new))
  returned := by
    intro call member
    obtain old | new := List.mem_append.mp member
    · exact session.returned call old
    · rw [List.mem_singleton.mp new]
      exact nofun
  idle := session.idle
  busy := by
    intro i mine
    obtain ⟨begin, at', sessions⟩ := session.busy i mine
    refine ⟨begin, ?_, sessions⟩
    obtain ⟨bound, _⟩ := List.getElem?_eq_some_iff.mp at'
    rw [List.getElem?_append_left bound]
    exact at'

theorem inv_singleBegin (inv : Inv s) (free : s.Free) : Inv s.singleBegin := by
  obtain ⟨holder, waiter, held, session⟩ := inv
  rw [Adc.singleBegin]
  refine inv_singleGetEnable ?_ List.getElem?_concat_length ?_
  · exact ⟨holder, waiter, held.frame rfl rfl rfl rfl held.running, session.begins⟩
  · intro detect
    obtain ⟨tadc, quiet⟩ := free detect
    refine ⟨tadc, fun call member => ?_⟩
    obtain old | new := List.mem_append.mp member
    · exact quiet call old
    · rw [List.mem_singleton.mp new]
      exact nofun

theorem inv_singleDelayed {i : Nat} (inv : Inv s) (sound : s.Sound (.singleDelayed i)) :
    Inv (s.singleDelayed i) := by
  rw [Adc.singleDelayed]
  split
  next begin at' => exact inv_singleGetEnable inv at' (sound ⟨_, at', rfl⟩)
  next => exact inv

/-! ### The interrupt -/

/-- The cells up to the count hold samples taken at `begin` or later. -/
def Stored (begin : Nat) (d : Desc) : Prop :=
  ∀ k < d.currentSampleDataCnt, ∃ x : Sample, begin ≤ x.time ∧ d.pData k = x.datum

/-- The samples of one interrupt go into one descriptor. -/
theorem fill_spec (c : Client) (samples : List UInt16) (s : Adc) : ∃ d running,
    Adc.fill c samples s = { s with desc := Function.update s.desc c d, running := running } ∧
      ∀ begin, begin ≤ s.now → Stored begin (s.desc c) → Stored begin d := by
  -- by induction on the samples: the descriptor and the enable bit are all that changes
  induction samples generalizing s with
  | nil =>
    refine ⟨s.desc c, s.running, ?_, fun _ _ stored => stored⟩
    rw [Function.update_eq_self]
    rfl
  | cons dacVal rest ih =>
    rw [Adc.fill]
    by_cases short : (s.desc c).currentSampleDataCnt < ADC_TEMP_BUFFER_SIZE
    · let x : Sample := { time := s.now, value := dacVal }
      let d : Desc := { s.desc c with
        pData := Function.update (s.desc c).pData (s.desc c).currentSampleDataCnt x.datum
        currentSampleDataCnt := (s.desc c).currentSampleDataCnt + 1 }
      have stored : ∀ begin, begin ≤ s.now → Stored begin (s.desc c) → Stored begin d := by
        intro begin begun before k bound
        by_cases last : k = (s.desc c).currentSampleDataCnt
        · refine ⟨x, begun, ?_⟩
          rw [last]
          exact Function.update_self _ _ _
        · obtain ⟨y, later, cell⟩ := before k (Nat.lt_of_le_of_ne (Nat.le_of_lt_succ bound) last)
          refine ⟨y, later, ?_⟩
          rw [← cell]
          exact Function.update_of_ne last _ _
      rw [if_pos short]
      by_cases full : (s.desc c).currentSampleDataCnt + 1 = ADC_TEMP_BUFFER_SIZE
      · rw [if_pos full]
        exact ⟨d, false, rfl, stored⟩
      · rw [if_neg full]
        obtain ⟨d', running, filled, kept⟩ := ih (s.setDesc c d)
        have here : (s.setDesc c d).desc c = d := by simp [Adc.setDesc]
        refine ⟨d', running, ?_, fun begin begun before => ?_⟩
        · rw [filled]
          simp [Adc.setDesc, Function.update_idem]
        · apply kept begin begun
          rw [here]
          exact stored begin begun before
    · rw [if_neg short]
      exact ih s

/-- The last sample of a single read: the handle is closed, the value computed, the semaphore set. -/
theorem tempSingleDetectHandler_spec (held : Held s (some .single)) {begin : Nat}
    (full : ADC_TEMP_BUFFER_SIZE ≤ (s.desc .single).currentSampleDataCnt)
    (stored : Stored begin (s.desc .single)) : ∃ t, s.tempSingleDetectHandler = t ∧ Held t none ∧
      t.calls = s.calls ∧ t.now = s.now ∧ t.hdl .single = false ∧ t.tmpSingleSemaphore = true ∧
      Fresh begin ((t.desc .single).pData 0) := by
  obtain ⟨p, first, cell1⟩ := stored 1 (Nat.lt_of_lt_of_le (by decide) full)
  obtain ⟨q, second, cell2⟩ := stored 2 (Nat.lt_of_lt_of_le (by decide) full)
  refine ⟨_, rfl, ?_⟩
  rw [Adc.tempSingleDetectHandler, ddevClose_held held]
  refine ⟨held.release rfl rfl rfl rfl, rfl, rfl, by simp [Adc.setDesc], rfl, p, q, first, second, ?_⟩
  simp [Adc.setDesc, cell1, cell2, Sample.datum]

theorem sadcDetectHandler_desc (s : Adc) : s.sadcDetectHandler.desc .single = s.desc .single := by
  simp [Adc.sadcDetectHandler, Adc.setDesc]

/-- The waiting call, at the next stage of its session. -/
theorem Session.stage {t : Adc} {i begin : Nat} (session : Session s (some i))
    (at' : s.calls[i]? = some ⟨begin, .waiting⟩) (calls : t.calls = s.calls) (now : t.now = s.now)
    (stage : t.hdl .single = true ∧ t.tmpSingleSemaphore = false ∧ Filling begin (t.desc .single) ∨
      t.hdl .single = false ∧ t.tmpSingleSemaphore = true ∧ Fresh begin ((t.desc .single).pData 0)) :
    Session t (some i) where
  waits := by
    rw [calls]
    exact session.waits
  begun := by
    rw [calls, now]
    exact session.begun
  returned := by
    rw [calls]
    exact session.returned
  idle := nofun
  busy := by
    rintro _ ⟨⟩
    exact ⟨begin, calls ▸ at', stage⟩

/-- The detect task and the handler of the ADC objects are told of their samples. -/
theorem inv_intHandler_other {c : Client} {room : Bool} {waiter : Option Nat} (other : c ≠ .single)
    (held : Held s (some c)) (session : Session s waiter) : Inv (s.intHandler c room) := by
  cases c with
  | detect =>
    unfold Adc.intHandler
    split
    · cases room with
      | false => exact ⟨_, waiter, held, session⟩
      | true =>
        refine ⟨_, waiter, held.frame rfl rfl rfl rfl held.running, ?_⟩
        exact session.frame rfl rfl rfl rfl (Nat.le_refl _)
    · exact ⟨_, waiter, held, session⟩
  | tadc =>
    unfold Adc.intHandler
    split
    · refine ⟨_, waiter, held.frame rfl rfl rfl rfl held.running, ?_⟩
      exact session.frame rfl rfl rfl (sadcDetectHandler_desc s) (Nat.le_refl _)
    · exact ⟨_, waiter, held, session⟩
  | single => exact absurd rfl other

/-- After `fill`, a single read that waits has its value, or fewer samples than it needs. -/
theorem inv_intHandler_single {t : Adc} {i begin : Nat} {room : Bool} (held : Held t (some .single))
    (session : Session s (some i)) (at' : s.calls[i]? = some ⟨begin, .waiting⟩)
    (calls : t.calls = s.calls) (now : t.now = s.now) (absent : t.tmpSingleSemaphore = false)
    (stored : Stored begin (t.desc .single)) : Inv (t.intHandler .single room) := by
  unfold Adc.intHandler
  split
  next full =>
    obtain ⟨u, handled, free, calls', now', stage⟩ := tempSingleDetectHandler_spec held full stored
    simp only [handled]
    refine ⟨none, some i, free, ?_⟩
    exact session.stage at' (calls'.trans calls) (now'.trans now) (.inr stage)
  next short =>
    refine ⟨some .single, some i, held, session.stage at' calls now (.inl ⟨?_, absent, ?_⟩)⟩
    · exact (held.hdl .single).mpr rfl
    · exact ⟨Nat.not_le.mp short, stored⟩

theorem inv_saradcIsr {samples : List UInt16} {room : Bool} (inv : Inv s) :
    Inv (s.saradcIsr samples room) := by
  rw [Adc.saradcIsr]
  split
  next c pointed =>
    split
    next running =>
      obtain ⟨holder, waiter, held, session⟩ := inv
      -- the interrupt is enabled for the holder only, and it is its descriptor that is filled
      obtain ⟨c', rfl⟩ := Option.isSome_iff_exists.mp (held.running running)
      obtain rfl : c = c' := Option.some.inj (pointed.symm.trans (held.desc c' rfl))
      obtain ⟨d, running', filled, stored⟩ := fill_spec c samples s
      rw [filled]
      have held' : Held { s with desc := Function.update s.desc c d, running := running' } (some c) :=
        held.frame rfl rfl rfl rfl fun _ => rfl
      by_cases other : c = .single
      · subst other
        have openHdl : s.hdl .single = true := (held.hdl .single).mpr rfl
        cases waiter with
        | none => exact absurd openHdl (by rw [(session.idle rfl).1]; decide)
        | some i =>
          obtain ⟨begin, at', sessions⟩ := session.busy i rfl
          obtain ⟨_, absent, filling⟩ | ⟨closed, _, _⟩ := sessions
          · have begun := session.begun ⟨begin, .waiting⟩ (List.mem_of_getElem? at')
            apply inv_intHandler_single held' session at' rfl rfl absent
            show Stored begin (Function.update s.desc .single d .single)
            rw [Function.update_self]
            exact stored begin begun filling.stored
          · exact absurd openHdl (by rw [closed]; decide)
      · refine inv_intHandler_other other held' (session.frame rfl rfl rfl ?_ (Nat.le_refl _))
        exact Function.update_of_ne (Ne.symm other) _ _
    next => exact inv
  next => exact inv

/-! ### Runs -/

/-- A step that meets its condition keeps the sessions apart. -/
theorem inv_step (s : Adc) (event : Event) (inv : Inv s) (sound : s.Sound event) : Inv (s.step event) := by
  have acted : Inv (s.act event) := by
    cases event with
    | detectEnable => exact inv_detectEnable inv sound
    | detectIntPoll => exact inv_detectIntPoll inv
    | singleBegin => exact inv_singleBegin inv sound
    | singleDelayed i => exact inv_singleDelayed inv sound
    | singleTake i => exact inv_singleTake inv
    | singleTimeout i => exact inv_singleTimeout inv sound
    | tadcBegin channel => exact inv_tadcBegin inv sound
    | tadcEnd timeout => exact inv_tadcEnd inv
    | isr samples room => exact inv_saradcIsr inv
  obtain ⟨holder, waiter, held, session⟩ := acted
  refine ⟨holder, waiter, held.frame rfl rfl rfl rfl held.running, ?_⟩
  exact session.frame rfl rfl rfl rfl (Nat.le_succ _)

end

/-- In every state of every run whose steps meet the condition: at most one client has the ADC open, the
interrupt fills its descriptor, and every single read that has returned has left its handle closed and,
where it returned 0, stored a value computed from samples of its own time. -/
theorem sessions_exclusive (desc : Client → Desc) (events : List Event)
    (sound : Along Adc.step Adc.Sound (Adc.start desc) events) :
    ∀ part, part <+: events → Exclusive (part.foldl Adc.step (Adc.start desc)) := by
  rintro part ⟨rest, rfl⟩
  exact ((along_append part rest).mp sound).1.invariant inv_step (inv_start desc) |>.exclusive

def emptyDesc : Client → Desc := fun _ =>
  { pData := fun _ => .zero, currentSampleDataCnt := 0, channel := ADC_TEMP_SENSER_CHANNEL }

def fiveSamples : Event := .isr [400, 401, 402, 403, 404] true

/-- Each client in turn, a single read that has to wait for the detect task, and a run of the handler of
the ADC objects that times out. -/
def inTurn : List Event :=
  [.detectEnable, .singleBegin, fiveSamples, .detectIntPoll, .singleDelayed 0, .detectEnable,
    .isr [300, 301] true, fiveSamples, .singleTake 0, .detectEnable, fiveSamples, .detectIntPoll,
    .tadcBegin 4, .tadcEnd true, .singleBegin, fiveSamples, .singleTake 1]

theorem sessions_exclusive_in_turn : Exclusive (inTurn.foldl Adc.step (Adc.start emptyDesc)) :=
  sessions_exclusive emptyDesc inTurn (by decide +kernel) inTurn (List.prefix_refl inTurn)

/-- The handler of the ADC objects beside a single read, and the detect task beside that handler; a time-out
that leaves the handle open; its late semaphore, on which the next call returns 0 before any sample. -/
theorem sessions_overlap :
    ¬Exclusive ([.singleBegin, .tadcBegin 4].foldl Adc.step (Adc.start emptyDesc)) ∧
    ¬Exclusive ([.tadcBegin 4, .detectEnable].foldl Adc.step (Adc.start emptyDesc)) ∧
    ¬Exclusive ([.singleBegin, .singleTimeout 0].foldl Adc.step (Adc.start emptyDesc)) ∧
    ¬∀ call ∈ ([.singleBegin, .singleTimeout 0, fiveSamples, .singleBegin, .singleTake 1].foldl
        Adc.step (Adc.start emptyDesc)).calls[1]?, call.Good := by
  refine ⟨fun apart => ?_, fun apart => ?_, fun apart => ?_, fun good => ?_⟩
  · cases apart.one .single .tadc (by decide) (by decide)
  · cases apart.one .tadc .detect (by decide) (by decide)
  · have call := apart.returned { begin := 0, phase := .returned 1 .zero false } (by decide)
    cases (call 1 .zero false rfl).1
  · have call := good { begin := 3, phase := .returned 0 .zero false } (by decide)
    obtain ⟨p, q, _, _, computed⟩ := (call 0 .zero false rfl).2 rfl
    cases congrArg Datum.sources computed

end Bk7251.Saradc
