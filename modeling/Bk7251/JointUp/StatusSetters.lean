import Bk7251.JointUp.RoleLaunch

/-!
# The status setters and the interrupts

`rl_pre_sta_set_status` and `rl_pre_ap_set_status` with the interrupt switches around them:
`GLOBAL_INT_DISABLE` and `GLOBAL_INT_RESTORE` (`driver/entry/arch.h`) over the two mask bits of the status
register (`rttos/source/port_asm.S`).
-/
namespace Bk7251.JointUp

/-- The F and the I bit of `CPSR`; a set bit keeps the interrupt out. -/
structure Cpsr where
  fiq : Bool
  irq : Bool
  deriving DecidableEq

namespace Cpsr

def masked : Cpsr := ⟨true, true⟩

/-- The new register and whether the interrupt was kept out before. -/
def portDISABLE_FIQ (c : Cpsr) : Cpsr × Bool := ({ c with fiq := true }, c.fiq)

def portDISABLE_IRQ (c : Cpsr) : Cpsr × Bool := ({ c with irq := true }, c.irq)

def portENABLE_FIQ (c : Cpsr) : Cpsr := { c with fiq := false }

def portENABLE_IRQ (c : Cpsr) : Cpsr := { c with irq := false }

/-- `GLOBAL_INT_DISABLE`: the new register, `fiq_tmp` and `irq_tmp`. -/
def globalIntDisable (c : Cpsr) : Cpsr × Bool × Bool :=
  let (c, fiqTmp) := c.portDISABLE_FIQ
  let (c, irqTmp) := c.portDISABLE_IRQ
  (c, fiqTmp, irqTmp)

/-- `GLOBAL_INT_RESTORE` -/
def globalIntRestore (c : Cpsr) (fiqTmp irqTmp : Bool) : Cpsr :=
  let c := if !fiqTmp then c.portENABLE_FIQ else c
  if !irqTmp then c.portENABLE_IRQ else c

/-- Between the two switches nothing gets in, -/
@[simp] theorem globalIntDisable_masked (c : Cpsr) : c.globalIntDisable.1 = masked := rfl

/-- and behind them the register is as it was. -/
@[simp] theorem globalIntRestore_disable (c : Cpsr) :
    masked.globalIntRestore c.globalIntDisable.2.1 c.globalIntDisable.2.2 = c := by
  obtain ⟨fiq, irq⟩ := c
  cases fiq <;> cases irq <;> rfl

end Cpsr

/-- The words of the role launch and the register. -/
structure Cpu where
  words : PreStatus
  cpsr : Cpsr

namespace Cpu

variable (s : Cpu) (status : UInt32)

/-- `rl_pre_sta_set_status`; a `goto set_out` ends it behind `GLOBAL_INT_RESTORE`. -/
def rlPreStaSetStatus : Cpu × UInt32 :=
  let tmp := s.cpsr.globalIntDisable
  if status = rlStatusStaScanning ∧ s.words.preStaStatus ≠ rlStatusStaIniting ∧
      s.words.preStaStatus ≠ rlStatusStaScanOver then ({ s with cpsr := tmp.1 }, 6)
  else if status = rlStatusStaScanning ∧ s.words.preStaCancel then ({ s with cpsr := tmp.1 }, 8)
  else
    let words := { s.words with preStaStatus := status }
    let cancel := if words.preStaCancel then 1 else 0
    ({ words := words, cpsr := tmp.1.globalIntRestore tmp.2.1 tmp.2.2 }, cancel)

/-- `rl_pre_ap_set_status` -/
def rlPreApSetStatus : Cpu × UInt32 :=
  let tmp := s.cpsr.globalIntDisable
  let words := { s.words with preApStatus := status }
  let cancel := if words.preApCancel then 1 else 0
  let words :=
    if words.preApCancel then { words with preApStatus := words.preApStatus + rlStatusCancel } else words
  ({ words := words, cpsr := tmp.1.globalIntRestore tmp.2.1 tmp.2.2 }, cancel)

def setStatus : Role → Cpu → UInt32 → Cpu × UInt32
  | .sta => rlPreStaSetStatus
  | .ap => rlPreApSetStatus

end Cpu

/-- The two values of `cancel` that say that the status was not taken over. -/
def Refusal (cancel : UInt32) : Prop := cancel = 6 ∨ cancel = 8

/-- A scan in an unexpected status or with a pending cancel. -/
def Refused (role : Role) (words : PreStatus) (status : UInt32) : Prop :=
  role = .sta ∧ status = rlStatusStaScanning ∧
    (words.preStaStatus ≠ rlStatusStaIniting ∧ words.preStaStatus ≠ rlStatusStaScanOver ∨
      words.preStaCancel)

instance (role : Role) (words : PreStatus) (status : UInt32) : Decidable (Refused role words status) := by
  unfold Refused
  infer_instance

/-- The setter leaves the interrupts as it finds them, and the words where it refuses. -/
structure Balanced (role : Role) (s : Cpu) (status : UInt32) : Prop where
  interrupts : (s.setStatus role status).1.cpsr = s.cpsr
  words : Refusal (s.setStatus role status).2 → (s.setStatus role status).1.words = s.words

namespace Cpu

variable {role : Role} {s : Cpu} {status : UInt32}

/-! ### A call of a setter -/

theorem setStatus_refused (refused : Refused role s.words status) :
    (s.setStatus role status).1 = { s with cpsr := .masked } ∧ Refusal (s.setStatus role status).2 := by
  obtain ⟨rfl, scan, why⟩ := refused
  simp only [setStatus, rlPreStaSetStatus]
  by_cases unexpected : s.words.preStaStatus ≠ rlStatusStaIniting ∧
      s.words.preStaStatus ≠ rlStatusStaScanOver
  · rw [if_pos ⟨scan, unexpected⟩]
    exact ⟨rfl, .inl rfl⟩
  · rw [if_neg fun taken => unexpected taken.2, if_pos ⟨scan, why.resolve_left unexpected⟩]
    exact ⟨rfl, .inr rfl⟩

theorem not_refusal_flag (flag : Bool) : ¬Refusal (if flag then 1 else 0) := by
  cases flag <;> rintro (h | h) <;> exact absurd h (by decide)

theorem setStatus_taken (taken : ¬Refused role s.words status) :
    (s.setStatus role status).1.cpsr = s.cpsr ∧ ¬Refusal (s.setStatus role status).2 := by
  cases role with
  | sta =>
    simp only [setStatus, rlPreStaSetStatus]
    rw [if_neg, if_neg]
    · exact ⟨s.cpsr.globalIntRestore_disable, not_refusal_flag _⟩
    · exact fun cancelled => taken ⟨rfl, cancelled.1, .inr cancelled.2⟩
    · exact fun unexpected => taken ⟨rfl, unexpected.1, .inl unexpected.2⟩
  | ap => exact ⟨s.cpsr.globalIntRestore_disable, not_refusal_flag _⟩

/-- The words are those of the setters without their switches. -/
theorem setStatus_words (role : Role) (s : Cpu) (status : UInt32) :
    (s.setStatus role status).1.words =
      match role with
      | .sta => (s.words.rlPreStaSetStatus status).1
      | .ap => (s.words.rlPreApSetStatus status).1 := by
  cases role with
  | sta =>
    rw [setStatus, rlPreStaSetStatus, PreStatus.rlPreStaSetStatus]
    dsimp only
    split
    · rfl
    · split
      · rfl
      · rfl
  | ap =>
    rw [setStatus, rlPreApSetStatus, PreStatus.rlPreApSetStatus]
    dsimp only
    split
    · rfl
    · rfl

/-- Whatever is called, masked interrupts stay masked. -/
theorem setStatus_masked (role : Role) (status : UInt32) (masked : s.cpsr = .masked) :
    (s.setStatus role status).1.cpsr = .masked := by
  by_cases refused : Refused role s.words status
  · rw [(setStatus_refused refused).1]
  · exact (setStatus_taken refused).1.trans masked

/-- After a refusal no call of a setter lets the interrupts in again. -/
theorem refused_freezes (refused : Refused role s.words status) (calls : List (Role × UInt32)) :
    (calls.foldl (fun s call => (s.setStatus call.1 call.2).1) (s.setStatus role status).1).cpsr =
      .masked := by
  have masked : (s.setStatus role status).1.cpsr = .masked := by rw [(setStatus_refused refused).1]
  generalize (s.setStatus role status).1 = s' at masked
  induction calls generalizing s' with
  | nil => exact masked
  | cons call calls ih =>
    rw [List.foldl_cons]
    exact ih _ (setStatus_masked call.1 call.2 masked)

end Cpu

/-- A setter is balanced exactly where it does not refuse a scan, or where nothing could get in before. -/
theorem setters_balanced_iff (role : Role) (s : Cpu) (status : UInt32) :
    Balanced role s status ↔ ¬Refused role s.words status ∨ s.cpsr = .masked := by
  by_cases refused : Refused role s.words status
  · obtain ⟨after, -⟩ := Cpu.setStatus_refused refused
    constructor
    · intro balanced
      have same := balanced.interrupts
      rw [after] at same
      exact .inr same.symm
    · rintro (taken | masked)
      · exact absurd refused taken
      · refine ⟨?_, fun _ => ?_⟩
        · rw [after, masked]
        · rw [after]
  · obtain ⟨same, taken⟩ := Cpu.setStatus_taken refused
    exact iff_of_true ⟨same, fun refusal => absurd refusal taken⟩ (.inl refused)

/-- A scan while the station is connecting. -/
theorem setters_balanced_fails :
    ¬Balanced .sta ⟨⟨false, rlStatusStaConnecting, false, 0, 0⟩, ⟨false, false⟩⟩ rlStatusStaScanning :=
  fun balanced => absurd balanced.interrupts (by decide)

end Bk7251.JointUp
