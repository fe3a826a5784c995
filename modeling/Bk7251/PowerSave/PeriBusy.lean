import Bk7251.Flash.FlashDriver
import Bk7251.PowerSave.McuPs
import Bk7251.SdCard.SdCard
import Bk7251.Sdio.Sdio

/-!
# The count of busy peripherals

`peri_busy_count` of `func/power_save/mcu_ps.c` under the calls of the SDIO, SD-card and flash drivers that
raise it when they are entered and lower it when they return. While it is not zero the MCU does not sleep.
-/
namespace Bk7251.PowerSave

open Lib Clock Sdio

namespace PeriBusy

/-- The flash with the line mode of `flash_current_config` and the one that is set. -/
structure FlashDev where
  chip : Flash.Chip
  configLineMode : UInt8
  lineMode : UInt8
  cells : Mem UInt8

def LINE_MODE_TWO : UInt8 := 2
def LINE_MODE_FOUR : UInt8 := 4

def FLASH_SUCCESS : UInt32 := 0

/-- A call with its arguments and with what it meets: memory, a card. -/
inductive Call
  | sdioRead (userBuf : Bool) (count opFlag : UInt32)
  | sdioWrite (malloc : Bool) (userBuf : Option Nat) (count opFlag : UInt32)
  | sdioCtrl (malloc : Bool) (cmd : Ctrl)
  | sdcardRead (card : SdCard.Card) (byteAddressed : Bool) (userBuf : Mem UInt8) (count opFlag : UInt32)
  | flashWrite (userBuf : Mem UInt8) (count address : UInt32)

/-- The count is `mcu.periBusyCount`, the one in `sdio` is not used. `running` are the calls that have been
entered and have not returned, `returned` those that have. -/
structure Board where
  mcu : McuPs
  sdio : SdioS
  flash : FlashDev
  running : List Call
  returned : List Call

namespace Board

variable (b : Board)

/-- `peri_busy_count_get` -/
def periBusyCountGet : UInt32 := b.mcu.periBusyCount

def setCount (count : UInt32) : Board := { b with mcu := { b.mcu with periBusyCount := count } }

def periBusyCountAdd : Board := b.setCount (b.periBusyCountGet + 1)

def periBusyCountDec : Board := b.setCount (b.periBusyCountGet - 1)

/-- The SDIO driver with the count that it shares. -/
def sdioS : SdioS := { b.sdio with periBusyCount := b.periBusyCountGet }

def setSdio (s : SdioS) : Board := { b.setCount s.periBusyCount with sdio := s }

def flashSetLineMode (mode : UInt8) : Board := { b with flash := { b.flash with lineMode := mode } }

def flashWriteData (userBuf : Mem UInt8) (address count : UInt32) : Board :=
  { b with flash := { b.flash with
      cells := Flash.flashWriteData b.flash.chip b.flash.cells userBuf address.toNat count.toNat } }

/-- `sdcard_read`; the buffer is the caller's. -/
def sdcardRead (card : SdCard.Card) (byteAddressed : Bool) (userBuf : Mem UInt8) (count opFlag : UInt32) :
    Board × UInt32 :=
  let b := b.periBusyCountAdd
  -- The exit for a card that fails goes past nothing.
  let (count, _) := SdCard.sdcardRead card byteAddressed userBuf count opFlag
  (b.periBusyCountDec, count)

/-- `flash_write` -/
def flashWrite (userBuf : Mem UInt8) (count address : UInt32) : Board × UInt32 :=
  let b := b.periBusyCountAdd
  let b := if b.flash.configLineMode = 4 then b.flashSetLineMode LINE_MODE_TWO else b
  let b := b.flashWriteData userBuf address count
  let b := if b.flash.configLineMode = 4 then b.flashSetLineMode LINE_MODE_FOUR else b
  (b.periBusyCountDec, FLASH_SUCCESS)

end Board

/-- The call from beginning to end. -/
def Call.run (b : Board) : Call → Except Stop (Board × Ret)
  | .sdioRead userBuf count opFlag => do
    let (s, ret) ← Sdio.sdioRead b.sdioS userBuf count opFlag
    .ok (b.setSdio s, ret)
  | .sdioWrite malloc userBuf count opFlag =>
    let (s, ret) := Sdio.sdioWrite b.sdioS malloc userBuf count opFlag
    .ok (b.setSdio s, ret)
  | .sdioCtrl malloc cmd => do
    let (s, ret) ← Sdio.sdioCtrl b.sdioS malloc cmd
    .ok (b.setSdio s, ret)
  | .sdcardRead card byteAddressed userBuf count opFlag =>
    let (b, count) := b.sdcardRead card byteAddressed userBuf count opFlag
    .ok (b, .value count)
  | .flashWrite userBuf count address =>
    let (b, ret) := b.flashWrite userBuf count address
    .ok (b, .value ret)

/-! ### Calls one inside another

Tasks interrupt one another, so that several calls are under way at a time. Raising and lowering the count is
done with the interrupts disabled. -/

/-- A call is entered, the call number `i` of those under way returns, or the devices and the rest of
`mcu_ps_info` change under another hand. -/
inductive Event
  | enter (c : Call)
  | leave (i : Nat)
  | others (mcu : McuPs) (sdio : SdioS) (flash : FlashDev)

/-- What is left of a call behind its `peri_busy_count_add`: the call on the count without the one that it
has added. -/
def Call.rest (c : Call) (b : Board) : Except Stop (Board × Ret) := c.run b.periBusyCountDec

def step (b : Board) : Event → Except Stop Board
  | .enter c => .ok { b.periBusyCountAdd with running := c :: b.running }
  | .leave i =>
    match b.running[i]? with
    | none => .ok b
    | some c => do
      let (b', _) ← c.rest b
      .ok { b' with running := b.running.eraseIdx i, returned := b.returned ++ [c] }
  | .others mcu sdio flash =>
    .ok { b with mcu := { mcu with periBusyCount := b.periBusyCountGet }, sdio, flash }

/-- `mcu_ps_info` and the drivers at the start. -/
def init (mcu : McuPs) (flash : FlashDev) : Board where
  mcu := { mcu with periBusyCount := 0 }
  sdio := sdioInit
  flash
  running := []
  returned := []

def run (b : Board) (events : List Event) : Except Stop Board := events.foldlM step b

/-! ### What a call adds to the count -/

/-- The calls that `sdio_read` and `sdio_write` refuse for their arguments: these exits go past
`peri_busy_count_dec`. -/
def Call.Refused : Call → Prop
  | .sdioRead userBuf count opFlag => (opFlag = S2H_RD_SYNC ∨ opFlag = H2S_RD_SYNC) ∧ (!userBuf ∨ count = 0)
  | .sdioWrite _ userBuf count opFlag =>
    (opFlag = S2H_WR_SYNC ∨ opFlag = S2H_WR_SPECIAL ∨ opFlag = H2S_WR_SYNC) ∧ (userBuf.isNone ∨ count = 0)
  | _ => False

instance : DecidablePred Call.Refused
  | .sdioRead _ _ _ | .sdioWrite _ _ _ _ => inferInstanceAs (Decidable (_ ∧ _))
  | .sdioCtrl _ _ | .sdcardRead _ _ _ _ _ | .flashWrite _ _ _ => isFalse id

/-- What the call leaves on the count. -/
def Call.surplus (c : Call) : UInt32 := if c.Refused then 1 else 0

section

variable {s s' : SdioS} {ret : Ret}

theorem idle_busy (s : SdioS) : idle (busy s) = s := by
  simp only [idle, busy, UInt32.add_sub_cancel]

/-- `sdio_write` makes the new frame known by a call of its own, which leaves nothing on the count. -/
theorem sdioCtrl_setTxValid (s : SdioS) (malloc : Bool) :
    sdioCtrl s malloc .setTxValid = .ok ({ s with txValid := true }, .value SDIO_SUCCESS) := by
  have same := idle_busy { s with txValid := true }
  exact congrArg (fun s => Except.ok (s, Ret.value SDIO_SUCCESS)) same

theorem count_free {node : Nat} (freed : sdioFreeValidNode s node = .ok s') :
    s'.periBusyCount = s.periBusyCount := by
  simp only [sdioFreeValidNode] at freed
  cases heap : osFree s.heap (s.snode node).origAddr with
  | error stop =>
    rw [heap] at freed
    cases freed
  | ok heap' =>
    rw [heap] at freed
    cases freed
    rfl

theorem count_alloc (s : SdioS) (malloc : Bool) (size : UInt32) :
    (sdioAllocValidNode s malloc size).1.periBusyCount = s.periBusyCount := by
  unfold sdioAllocValidNode
  split
  · rfl
  · split
    · rfl
    · cases malloc <;> rfl

theorem count_readNode {node : Nat} (read : readNode s node = .ok (s', ret)) :
    s'.periBusyCount = s.periBusyCount - 1 := by
  simp only [readNode] at read
  cases freed : sdioFreeValidNode s node with
  | error stop =>
    rw [freed] at read
    cases read
  | ok s₁ =>
    rw [freed] at read
    cases read
    rw [idle, count_free freed]

theorem surplus_of_refused {c : Call} (refused : c.Refused) : c.surplus = 1 := if_pos refused

theorem surplus_of_not {c : Call} (taken : ¬ c.Refused) : c.surplus = 0 := if_neg taken

theorem count_sdioRead {userBuf : Bool} {count opFlag : UInt32}
    (read : sdioRead s userBuf count opFlag = .ok (s', ret)) :
    s'.periBusyCount = s.periBusyCount + (Call.sdioRead userBuf count opFlag).surplus := by
  have back : s.periBusyCount + 1 - 1 = s.periBusyCount + 0 := by rw [UInt32.add_sub_cancel, UInt32.add_zero]
  -- the refused calls return before the count is taken back
  by_cases refused : (Call.sdioRead userBuf count opFlag).Refused
  · obtain ⟨sync, bad⟩ := id refused
    rw [surplus_of_refused refused]
    rcases sync with rfl | rfl
    · rw [sdioRead, if_pos rfl, if_pos bad] at read
      cases read
      rfl
    · rw [sdioRead, if_neg (by decide), if_pos rfl, if_pos bad] at read
      cases read
      rfl
  · rw [surplus_of_not refused, ← back]
    simp only [sdioRead] at read
    split at read
    next sync =>
      rw [if_neg fun bad => refused ⟨.inl sync, bad⟩] at read
      split at read
      · exact count_readNode read
      · cases read
        rfl
    next =>
      split at read
      next sync =>
        rw [if_neg fun bad => refused ⟨.inr sync, bad⟩] at read
        split at read
        · exact count_readNode read
        · cases read
          rfl
      next =>
        split at read
        · split at read <;> cases read <;> rfl
        · cases read
          rfl

theorem count_sdioWrite (s : SdioS) (malloc : Bool) (userBuf : Option Nat) (count opFlag : UInt32) :
    (sdioWrite s malloc userBuf count opFlag).1.periBusyCount =
      s.periBusyCount + (Call.sdioWrite malloc userBuf count opFlag).surplus := by
  have back : s.periBusyCount + 1 - 1 = s.periBusyCount + 0 := by rw [UInt32.add_sub_cancel, UInt32.add_zero]
  have alloc := count_alloc (busy s) malloc count
  -- the same returns, in three branches here
  by_cases refused : (Call.sdioWrite malloc userBuf count opFlag).Refused
  · obtain ⟨sync, bad⟩ := id refused
    rw [surplus_of_refused refused]
    unfold sdioWrite
    rcases sync with rfl | rfl | rfl
    · rw [if_pos rfl, if_pos bad]
      rfl
    · rw [if_neg (by decide), if_pos rfl]
      cases userBuf with
      | none => rfl
      | some node =>
        obtain rfl : count = 0 := by simpa using bad
        rfl
    · rw [if_neg (by decide), if_neg (by decide), if_pos rfl, if_pos bad]
      rfl
  · rw [surplus_of_not refused, ← back]
    simp only [sdioWrite]
    split
    next sync =>
      rw [if_neg fun bad => refused ⟨.inl sync, bad⟩]
      split <;> (rename_i found; rw [found] at alloc; exact congrArg (· - 1) alloc)
    next =>
      split
      next special =>
        split
        next node =>
          rw [if_neg fun zero => refused ⟨.inr (.inl special), .inr zero⟩]
          rfl
        next => exact absurd ⟨.inr (.inl special), .inl rfl⟩ refused
      next =>
        split
        next sync =>
          rw [if_neg fun bad => refused ⟨.inr (.inr sync), bad⟩]
          split <;> (rename_i found; rw [found] at alloc; exact congrArg (· - 1) alloc)
        next => rfl

theorem count_sdioCtrl {malloc : Bool} {cmd : Ctrl} (called : sdioCtrl s malloc cmd = .ok (s', ret)) :
    s'.periBusyCount = s.periBusyCount := by
  have back : s.periBusyCount + 1 - 1 = s.periBusyCount := UInt32.add_sub_cancel _ _
  simp only [sdioCtrl] at called
  cases cmd with
  | pushFreeNode node =>
    simp only at called
    cases freed : sdioFreeValidNode { busy s with held := (busy s).held.erase node } node with
    | error stop =>
      rw [freed] at called
      cases called
    | ok s₁ =>
      rw [freed] at called
      cases called
      rw [idle, count_free freed]
      exact back
  | getFreeNode size =>
    cases called
    exact (congrArg (· - 1) (count_alloc (busy s) malloc size)).trans back
  | _ =>
    cases called
    exact back

end

theorem count_flashWrite (b : Board) (userBuf : Mem UInt8) (count address : UInt32) :
    (b.flashWrite userBuf count address).1.periBusyCountGet = b.periBusyCountGet + 1 - 1 := by
  unfold Board.flashWrite
  by_cases four : b.periBusyCountAdd.flash.configLineMode = 4
  · simp only [if_pos four]
    split <;> rfl
  · simp only [if_neg four]
    split <;> rfl

/-- Every call adds its surplus, whatever it finds and whatever comes of it. -/
theorem Call.count_run {c : Call} {b b' : Board} {ret : Ret} (ran : c.run b = .ok (b', ret)) :
    b'.periBusyCountGet = b.periBusyCountGet + c.surplus := by
  have back : b.periBusyCountGet + 1 - 1 = b.periBusyCountGet + 0 := by
    rw [UInt32.add_sub_cancel, UInt32.add_zero]
  cases c with
  | sdioRead userBuf count opFlag =>
    simp only [Call.run] at ran
    cases read : Sdio.sdioRead b.sdioS userBuf count opFlag with
    | error stop =>
      rw [read] at ran
      cases ran
    | ok r =>
      rw [read] at ran
      cases ran
      exact count_sdioRead read
  | sdioWrite malloc userBuf count opFlag =>
    cases ran
    exact count_sdioWrite b.sdioS malloc userBuf count opFlag
  | sdioCtrl malloc cmd =>
    simp only [Call.run] at ran
    cases called : Sdio.sdioCtrl b.sdioS malloc cmd with
    | error stop =>
      rw [called] at ran
      cases ran
    | ok r =>
      rw [called] at ran
      cases ran
      exact (count_sdioCtrl called).trans (UInt32.add_zero _).symm
  | sdcardRead card byteAddressed userBuf count opFlag =>
    cases ran
    exact back
  | flashWrite userBuf count address =>
    cases ran
    exact (count_flashWrite b userBuf count address).trans back

/-! ### Runs -/

variable {b b' : Board}

/-- How many of the calls that have returned were refused. -/
def Board.refusals (b : Board) : Nat := b.returned.countP (fun c => c.Refused)

/-- The count is that of the calls under way, and of those whose share was never taken back. -/
def Board.Accounted (b : Board) : Prop :=
  b.periBusyCountGet = UInt32.ofNat (b.running.length + b.refusals)

theorem surplus_eq (c : Call) : c.surplus = UInt32.ofNat ([c].countP (fun c => c.Refused)) := by
  by_cases refused : c.Refused
  · rw [surplus_of_refused refused, List.countP_singleton, if_pos (decide_eq_true refused)]
    rfl
  · rw [surplus_of_not refused, List.countP_singleton, if_neg (by simpa using refused)]
    rfl

theorem accounted_step {e : Event} (accounted : b.Accounted) (stepped : step b e = .ok b') :
    b'.Accounted := by
  cases e with
  | enter c =>
    cases stepped
    calc b.periBusyCountGet + 1
      _ = UInt32.ofNat (b.running.length + b.refusals) + UInt32.ofNat 1 := by rw [accounted]; rfl
      _ = UInt32.ofNat ((b.running.length + 1) + b.refusals) := by
        rw [← UInt32.ofNat_add, Nat.add_right_comm]
  | leave i =>
    simp only [step] at stepped
    cases found : b.running[i]? with
    | none =>
      rw [found] at stepped
      cases stepped
      exact accounted
    | some c =>
      rw [found] at stepped
      cases ran : c.rest b with
      | error stop =>
        simp only [ran] at stepped
        cases stepped
      | ok r =>
        simp only [ran] at stepped
        cases stepped
        obtain ⟨inside, -⟩ := List.getElem?_eq_some_iff.mp found
        -- one call less is under way, and one more has returned
        obtain ⟨n, length⟩ : ∃ n, b.running.length = n + 1 := Nat.exists_eq_succ_of_ne_zero (by omega)
        have erased : (b.running.eraseIdx i).length = n := by
          rw [List.length_eraseIdx_of_lt inside, length, Nat.add_sub_cancel]
        have one : b.periBusyCountGet - 1 = UInt32.ofNat (n + b.refusals) := by
          rw [accounted, length, Nat.add_right_comm, UInt32.ofNat_add]
          exact UInt32.add_sub_cancel _ _
        -- what the call adds is one for a refusal, and the count was raised when it began
        calc r.1.periBusyCountGet
          _ = b.periBusyCountGet - 1 + c.surplus := c.count_run ran
          _ = UInt32.ofNat (n + b.refusals + [c].countP (fun c => c.Refused)) := by
            rw [one, surplus_eq, ← UInt32.ofNat_add]
          _ = _ := by
            rw [Board.refusals, Board.refusals, List.countP_append, erased, Nat.add_assoc]
  | others mcu sdio flash =>
    cases stepped
    exact accounted

theorem accounted_run (events : List Event) (accounted : b.Accounted) (ran : run b events = .ok b') :
    b'.Accounted := by
  -- by induction on the events, each of which keeps the account
  induction events generalizing b with
  | nil =>
    cases ran
    exact accounted
  | cons e events ih =>
    simp only [run, List.foldlM_cons] at ran
    cases stepped : step b e with
    | error stop =>
      rw [stepped] at ran
      cases ran
    | ok b₁ =>
      rw [stepped] at ran
      exact ih (accounted_step accounted stepped) ran

theorem accounted_init (mcu : McuPs) (flash : FlashDev) : (init mcu flash).Accounted := rfl

theorem ofNat_eq_zero_iff (n : Nat) : UInt32.ofNat n = 0 ↔ 2 ^ 32 ∣ n := by
  rw [← UInt32.toNat_inj, UInt32.toNat_ofNat, Nat.dvd_iff_mod_eq_zero]
  rfl

/-- With no call under way the count is zero only if nothing was refused, up to a wrap. -/
theorem count_zero_iff (accounted : b.Accounted) (quiet : b.running = []) :
    b.periBusyCountGet = 0 ↔ 2 ^ 32 ∣ b.refusals := by
  rw [accounted, quiet, ofNat_eq_zero_iff, List.length_nil, Nat.zero_add]

/-- A call leaves the count as it was exactly when its arguments are not refused. With no call under way
the count is zero exactly when the number of the refused ones is one that wraps; where none was, the sleep is
up to the other conditions. -/
theorem peri_busy_balanced_iff (mcu : McuPs) (flash : FlashDev) (events : List Event) :
    (∀ (c : Call) (b b' : Board) (ret : Ret), c.run b = .ok (b', ret) →
      (b'.periBusyCountGet = b.periBusyCountGet ↔ ¬ c.Refused)) ∧
    ∀ b, run (init mcu flash) events = .ok b → b.running = [] →
      (b.periBusyCountGet = 0 ↔ 2 ^ 32 ∣ b.refusals) ∧
      ((∀ c ∈ b.returned, ¬ c.Refused) → b.periBusyCountGet = 0 ∧
        ∀ w, b.mcu.maySleep w ↔ b.mcu.mcuPsOn = 1 ∧ b.mcu.mcuPrevent = 0 ∧ w.txlSleepCheck) := by
  constructor
  · intro c b b' ret ran
    rw [c.count_run ran]
    by_cases refused : c.Refused
    · rw [surplus_of_refused refused]
      simp [refused]
    · rw [surplus_of_not refused]
      simp [refused]
  · intro b ran quiet
    have zero := count_zero_iff (accounted_run events (accounted_init mcu flash) ran) quiet
    refine ⟨zero, fun taken => ?_⟩
    -- where nothing was refused there is nothing to wrap
    have none : b.refusals = 0 := by
      rw [Board.refusals, List.countP_eq_zero]
      intro c member
      simpa using taken c member
    have count : b.periBusyCountGet = 0 := by
      rw [zero, none]
      exact Nat.dvd_zero _
    refine ⟨count, fun w => ?_⟩
    rw [Board.periBusyCountGet] at count
    simp [McuPs.maySleep, count]

/-- Power save is on and nothing else keeps the MCU awake. -/
def sleepy : McuPs := ⟨FakeClock.start, 1, 0, 0, 0, 0, 0, 0, 0⟩

def blank : FlashDev := ⟨Flash.defaultChip, 2, 2, fun _ => 0xFF⟩

theorem peri_busy_balanced_peek :
    ∃ b ret, (Call.sdioCtrl false .peekS2hCount).run (init sleepy blank) = .ok (b, ret) ∧
      (b.periBusyCountGet = 0 ↔ ¬ (Call.sdioCtrl false .peekS2hCount).Refused) ∧
      ∃ b, run (init sleepy blank) [.enter (.sdioCtrl false .peekS2hCount), .leave 0] = .ok b ∧
        b.periBusyCountGet = 0 :=
  ⟨_, _, rfl, (peri_busy_balanced_iff sleepy blank []).1 _ (init sleepy blank) _ _ rfl,
    _, rfl, (((peri_busy_balanced_iff sleepy blank [.enter (.sdioCtrl false .peekS2hCount), .leave 0]).2
      _ rfl rfl).2 (List.forall_mem_singleton.mpr id)).1⟩

/-- One read without a buffer, and the MCU never sleeps again. -/
theorem refused_read_blocks_sleep :
    ∃ b, run (init sleepy blank) [.enter (.sdioRead false 0 S2H_RD_SYNC), .leave 0] = .ok b ∧
      b.running = [] ∧ b.periBusyCountGet = 1 ∧ ∀ w, b.mcu.maySleep w = false :=
  ⟨_, rfl, rfl, rfl, fun _ => rfl⟩

end PeriBusy

end Bk7251.PowerSave
