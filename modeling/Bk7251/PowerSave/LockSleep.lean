import Bk7251.PowerSave.PowerSave

/-!
# The lock and the sleep flag

`ps_lock` and `ps_real_sleep` say the same thing, until a disable handler clears the flag of a MAC
that is still asleep.
-/
namespace Bk7251.PowerSave

open Lib

/-- `ps_lock` is 1 exactly when `ps_real_sleep` is 0, and 0 exactly when it is 1. -/
structure PsState.Agree (s : PsState) : Prop where
  values : s.psLock = 0 ∨ s.psLock = 1
  awake : s.psLock = 1 ↔ s.psRealSleep = 0
  asleep : s.psLock = 0 ↔ s.psRealSleep = 1

instance (s : PsState) : Decidable s.Agree :=
  decidable_of_iff ((s.psLock = 0 ∨ s.psLock = 1) ∧ (s.psLock = 1 ↔ s.psRealSleep = 0) ∧
    (s.psLock = 0 ↔ s.psRealSleep = 1))
    ⟨fun ⟨values, awake, asleep⟩ => ⟨values, awake, asleep⟩,
      fun agree => ⟨agree.values, agree.awake, agree.asleep⟩⟩

/-- The MAC is shut down while it sleeps. -/
def PsState.DisabledAsleep (s : PsState) (e : PsEvent) : Prop := e = .disable ∧ s.psRealSleep = 1

instance (s : PsState) (e : PsEvent) : Decidable (s.DisabledAsleep e) :=
  inferInstanceAs (Decidable (e = .disable ∧ s.psRealSleep = 1))

/-- The agreement is about two fields. -/
theorem PsState.Agree.congr {s s' : PsState} (agree : s.Agree) (lock : s'.psLock = s.psLock)
    (sleep : s'.psRealSleep = s.psRealSleep) : s'.Agree := by
  constructor
  · rw [lock]
    exact agree.values
  · rw [lock, sleep]
    exact agree.awake
  · rw [lock, sleep]
    exact agree.asleep

private theorem agree_awake {s : PsState} (lock : s.psLock = 1) (sleep : s.psRealSleep = 0) :
    s.Agree := by
  constructor <;> simp [lock, sleep]

private theorem agree_asleep {s : PsState} (lock : s.psLock = 0) (sleep : s.psRealSleep = 1) :
    s.Agree := by
  constructor <;> simp [lock, sleep]

/-- Asleep or awake, there is nothing else. -/
theorem PsState.Agree.awake_or_asleep {s : PsState} (agree : s.Agree) :
    (s.psLock = 1 ∧ s.psRealSleep = 0) ∨ (s.psLock = 0 ∧ s.psRealSleep = 1) := by
  rcases agree.values with zero | one
  · exact .inr ⟨zero, agree.asleep.mp zero⟩
  · exact .inl ⟨one, agree.awake.mp one⟩

/-- Going to sleep from an agreeing state. -/
theorem agree_powerSaveSleep {s : PsState} (agree : s.Agree) (inputs : SleepInputs) :
    (s.powerSaveSleep inputs).1.Agree ∧ (s.powerSaveSleep inputs).2 ≠ .errorPs ∧
      (s.powerSaveSleep inputs).2 ≠ .assertFailed := by
  rcases agree.awake_or_asleep with ⟨lock, sleep⟩ | ⟨lock, sleep⟩
  · rw [PsState.powerSaveSleep]
    split
    · exact ⟨agree, by simp⟩
    · split
      · exact ⟨agree, by simp⟩
      · split
        · exact ⟨agree, by simp⟩
        · split
          · exact ⟨agree, by simp⟩
          · -- the MAC may go to sleep; the lock is there to take
            simp only [lock]
            split
            · exact ⟨agree_awake rfl sleep, by simp⟩
            · rw [if_neg (by decide)]
              exact ⟨agree_asleep (by rfl) rfl, by simp⟩
  · rw [PsState.powerSaveSleep, if_pos sleep]
    exact ⟨agree, by simp⟩

theorem agree_powerSaveIeeeDtimWakeup {s : PsState} (agree : s.Agree) :
    s.powerSaveIeeeDtimWakeup.1.Agree ∧ s.powerSaveIeeeDtimWakeup.2 ≠ .errorPs ∧
      s.powerSaveIeeeDtimWakeup.2 ≠ .assertFailed := by
  rw [PsState.powerSaveIeeeDtimWakeup]
  split
  next due =>
    -- the MAC sleeps, so the lock is taken
    rcases agree.awake_or_asleep with ⟨lock, sleep⟩ | ⟨lock, sleep⟩
    · exact absurd sleep due.2
    · simp only [PsState.powerSaveWakeup, lock]
      rw [if_neg (by decide)]
      exact ⟨agree_awake (by rfl) rfl, by simp⟩
  · exact ⟨agree, by simp⟩

/-- One step keeps the agreement exactly when it does not disable power save of a sleeping MAC, and
no step fails. -/
theorem agree_step {s : PsState} (agree : s.Agree) (e : PsEvent) :
    ((s.next e).Agree ↔ ¬ s.DisabledAsleep e) ∧ (s.step e).2 ≠ .errorPs ∧
      (s.step e).2 ≠ .assertFailed := by
  have keep {e : PsEvent} (other : e ≠ .disable)
      (kept : (s.step e).1.Agree ∧ (s.step e).2 ≠ .errorPs ∧ (s.step e).2 ≠ .assertFailed) :
      ((s.next e).Agree ↔ ¬ s.DisabledAsleep e) ∧ (s.step e).2 ≠ .errorPs ∧
        (s.step e).2 ≠ .assertFailed :=
    ⟨iff_of_true kept.1 fun bad => other bad.1, kept.2⟩
  cases e with
  | sleep inputs => exact keep (by simp) (agree_powerSaveSleep agree inputs)
  | ieeeDtimWakeup => exact keep (by simp) (agree_powerSaveIeeeDtimWakeup agree)
  | dtimWake status =>
    refine keep (by simp) ?_
    simp only [PsState.step, PsState.powerSaveDtimWake]
    split
    · exact agree_powerSaveIeeeDtimWakeup (agree.congr rfl rfl)
    · exact ⟨agree, by simp⟩
  | enable connected =>
    refine keep (by simp) ⟨?_, by simp [PsState.step]⟩
    simp only [PsState.step, PsState.powerSaveDtimEnableHandler]
    split
    · exact agree.congr rfl rfl
    · exact agree
  | disable =>
    refine ⟨?_, by simp [PsState.step]⟩
    -- the flag is cleared whatever it was, the lock is left alone
    have lockKept : (s.next .disable).psLock = s.psLock := rfl
    have cleared : (s.next .disable).psRealSleep = 0 := rfl
    rcases agree.awake_or_asleep with ⟨lock, sleep⟩ | ⟨lock, sleep⟩
    · refine iff_of_true (agree_awake (lockKept.trans lock) cleared) fun bad => ?_
      have flag := bad.2
      rw [sleep] at flag
      exact absurd flag (by decide)
    · refine iff_of_false (fun still => ?_) (not_not.mpr ⟨rfl, sleep⟩)
      have one := still.awake.mpr cleared
      rw [lockKept, lock] at one
      exact absurd one (by decide)
  | beaconUpdate roleSta =>
    refine keep (by simp) ⟨?_, by simp [PsState.step]⟩
    simp only [PsState.step, PsState.powerSaveBeaconStateUpdate]
    split
    · exact agree.congr rfl rfl
    · exact agree
  | beaconSet state => exact keep (by simp) ⟨agree.congr rfl rfl, by simp [PsState.step]⟩
  | modeSet mode => exact keep (by simp) ⟨agree.congr rfl rfl, by simp [PsState.step]⟩

/-- No step of the run takes the `error ps` exit or fails the assertion. -/
def PsState.NoFailure (s : PsState) (e : PsEvent) : Prop :=
  (s.step e).2 ≠ .errorPs ∧ (s.step e).2 ≠ .assertFailed

/-- `ps_lock` agrees with `ps_real_sleep` throughout a run exactly when the run never disables power
save while the MAC sleeps. In such a run no step fails. -/
theorem lock_agrees_iff (interruptEnable : UInt32) (events : List PsEvent) :
    ((∀ part, part <+: events → (part.foldl PsState.next (.init interruptEnable)).Agree) ↔
      Along PsState.next (fun s e => ¬ s.DisabledAsleep e) (.init interruptEnable) events) ∧
    (Along PsState.next (fun s e => ¬ s.DisabledAsleep e) (.init interruptEnable) events →
      Along PsState.next PsState.NoFailure (.init interruptEnable) events) := by
  have start : (PsState.init interruptEnable).Agree := agree_awake rfl rfl
  refine ⟨always_iff_along (P := PsState.Agree) (fun _ e agree => (agree_step agree e).1) start events,
    fun fine => ?_⟩
  generalize PsState.init interruptEnable = s at start fine
  -- a run that keeps the agreement meets no failure at any of its steps
  induction events generalizing s with
  | nil => trivial
  | cons e events ih =>
    obtain ⟨kept, safe⟩ := agree_step start e
    exact ⟨safe, ih (s.next e) (kept.mpr fine.1) fine.2⟩

/-- The MAC falls asleep, power save is disabled and enabled again: the next attempt to sleep ends
in `error ps` with the interrupts of the MAC masked. -/
theorem lock_agrees_fails :
    let sleep : PsEvent := .sleep ⟨true, false, 0, true⟩
    let s := [.enable true, .beaconUpdate true, sleep, .disable].foldl PsState.next (.init MAC_MASKED)
    let again := [.enable true, .beaconUpdate true].foldl PsState.next s
    ¬ s.Agree ∧ (again.step sleep).2 = .errorPs ∧ (again.next sleep).interruptEnable &&& MAC_MASKED = 0 := by
  decide +kernel

end Bk7251.PowerSave
