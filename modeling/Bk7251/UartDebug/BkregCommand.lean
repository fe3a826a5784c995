import Bk7251.Lib.Bytes

/-!
# Register commands from the UART

`bkreg_run_command` and `bkreg_tx` of `func/uart_debug/command_line.c`, with the two calls into
`manual_cal_bk7231U.c`. A response is built in a buffer on the stack and is sent from there.
-/
namespace Bk7251.UartDebug

open Lib

def BKREG_TX_FIFO_THRD : Nat := 128
def HCI_EVENT_HEAD_LENGTH : Nat := 3
def HCI_COMMAND_HEAD_LENGTH : Nat := 4
def OTP_CMD_RET_LEN : Nat := 12
def OTP_READ_MAX_LEN : Nat := BKREG_TX_FIFO_THRD - HCI_EVENT_HEAD_LENGTH - OTP_CMD_RET_LEN
def BK_FLASH_SECTOR_SIZE : UInt32 := 0x1000

def TRA_HCIT_EVENT : UInt8 := 4
def HCI_COMMAND_COMPLETE_EVENT : UInt8 := 0x0E

def BEKEN_UART_REGISTER_WRITE_CMD : UInt8 := 0x01
def BEKEN_UART_REGISTER_READ_CMD : UInt8 := 0x03
def BEKEN_READ_OTP_CMD : UInt8 := 0xA7
def BEKEN_WRITE_OTP_CMD : UInt8 := 0xA8

/-- Where `param` begins in an `HCI_EVENT_PACKET`. -/
def PARAM : Nat := 3

/-- The buffer that a byte was stored in, or sent from, beyond its end. -/
inductive Beyond
  | inbuf
  | txBuf
  deriving DecidableEq

/-- What a command finds: the stack under `tx_buf`, the registers, the flash, and how writing to it goes. -/
structure Chip where
  stack : Mem UInt8
  ateModeState : Bool
  regRead : UInt32 → UInt32
  partitionStartAddr : UInt32
  flash : UInt32 → UInt8
  manualCalWirteOtpFlash : UInt32 → UInt32 → Mem UInt8 → UInt8

section

variable (chip : Chip) (content : Mem UInt8)

/-- `pHCIrxBuf->cmd` -/
def rxCmd : UInt8 := content 4

/-- `rx_param->addr` -/
def rxAddr : UInt32 := content.load32 5

/-- `rx_param->value` -/
def rxValue : UInt32 := content.load32 9

def putTx (txBuf : Mem UInt8) (i : Nat) (bytes : List UInt8) : Except Beyond (Mem UInt8) :=
  txBuf.storeWithin BKREG_TX_FIFO_THRD .txBuf i bytes

/-- `bkreg_tx`, with the bytes that it sends. -/
def bkregTx (txBuf : Mem UInt8) : Except Beyond (List UInt8) := do
  let txLen := HCI_EVENT_HEAD_LENGTH + (txBuf 2).toNat
  let txBuf ← putTx txBuf 0 [TRA_HCIT_EVENT]
  let txBuf ← putTx txBuf 1 [HCI_COMMAND_COMPLETE_EVENT]
  if txLen ≤ BKREG_TX_FIFO_THRD then .ok (txBuf.read 0 txLen) else .error .txBuf

/-- The total length, the head of the command and the register, as all commands on a register answer. -/
def putRegister (txBuf : Mem UInt8) (total : UInt8) (addr value : UInt32) : Except Beyond (Mem UInt8) := do
  let txBuf ← putTx txBuf 2 [total]
  let txBuf ← putTx txBuf PARAM (content.read 0 HCI_EVENT_HEAD_LENGTH)
  let txBuf ← putTx txBuf (PARAM + 3) [rxCmd content]
  let txBuf ← putTx txBuf (PARAM + HCI_COMMAND_HEAD_LENGTH) (toLe32 addr)
  putTx txBuf (PARAM + HCI_COMMAND_HEAD_LENGTH + 4) (toLe32 value)

/-- `manual_cal_read_otp_flash` into `read_buf`; what it returns is an `UINT8`. -/
def manualCalReadOtpFlash (txBuf : Mem UInt8) (addr : UInt32) (len : Nat) : Except Beyond (Mem UInt8 × Nat) :=
  if BK_FLASH_SECTOR_SIZE < addr then .ok (txBuf, 0)
  else do
    let from' := chip.partitionStartAddr + addr
    let txBuf ← putTx txBuf (PARAM + OTP_CMD_RET_LEN)
      ((List.range len).map fun i => chip.flash (from' + UInt32.ofNat i))
    .ok (txBuf, len % 256)

/-- The loop of `BEKEN_READ_OTP_CMD`: one response for each part of the flash. -/
def readOtp (lenLeft : Nat) (addr : UInt32) (txBuf : Mem UInt8) : Except Beyond (List (List UInt8)) :=
  if lenLeft = 0 then .ok []
  else do
    let (txBuf, len) ← manualCalReadOtpFlash chip txBuf addr (min lenLeft OTP_READ_MAX_LEN)
    if _failed : len = 0 then .ok []
    else
      let total := UInt8.ofNat (OTP_CMD_RET_LEN + len)
      let txBuf ← putRegister content txBuf total (rxAddr content + addr) (UInt32.ofNat len)
      let sent ← bkregTx txBuf
      let others ← readOtp (lenLeft - len) (addr + UInt32.ofNat len) txBuf
      .ok (sent :: others)
termination_by lenLeft
decreasing_by omega

/-- `bkreg_run_command`, with the responses that it sends. -/
def bkregRunCommand (cnt : UInt32) : Except Beyond (List (List UInt8)) := do
  let txBuf ← putTx chip.stack 2 [1]
  let txBuf ← putTx txBuf PARAM [rxCmd content]
  let addr := rxAddr content
  if rxCmd content = BEKEN_UART_REGISTER_WRITE_CMD then
    let txBuf ← putRegister content txBuf (cnt - 1).toUInt8 addr (rxValue content)
    let sent ← bkregTx txBuf
    .ok [sent]
  else if rxCmd content = BEKEN_UART_REGISTER_READ_CMD then
    let value :=
      if addr = 0x00800014 then if chip.ateModeState then 0x1B190104 else 0x0B190104
      else chip.regRead addr
    let txBuf ← putRegister content txBuf (UInt32.ofNat HCI_EVENT_HEAD_LENGTH + cnt).toUInt8 addr value
    let sent ← bkregTx txBuf
    .ok [sent]
  else if rxCmd content = BEKEN_WRITE_OTP_CMD then
    let flag := chip.manualCalWirteOtpFlash addr (rxValue content) (content.shift 13)
    let txBuf ← putRegister content txBuf (UInt8.ofNat (OTP_CMD_RET_LEN + 1)) addr (rxValue content)
    let txBuf ← putTx txBuf (PARAM + OTP_CMD_RET_LEN) [flag]
    let sent ← bkregTx txBuf
    .ok [sent]
  else if rxCmd content = BEKEN_READ_OTP_CMD then
    readOtp chip content (rxValue content).toNat (addr - chip.partitionStartAddr) txBuf
  else
    -- The other commands are answered by themselves.
    let sent ← bkregTx txBuf
    .ok [sent]

end

/-! ### What is sent -/

/-- No byte was stored or sent beyond its buffer, and `p` holds of what came out. -/
def Keeps {α : Type} (p : α → Prop) (r : Except Beyond α) : Prop := ∃ a, r = .ok a ∧ p a

/-- The responses are built and sent from inside of `tx_buf`. -/
def Sends (ran : Except Beyond (List (List UInt8))) : Prop :=
  Keeps (fun sent => ∀ response ∈ sent, response.length ≤ BKREG_TX_FIFO_THRD) ran

/-- The response to a command of a frame with `announced` bytes fits: the commands on a register are answered
with more bytes than the frame has. -/
def Answers (content : Mem UInt8) (announced : Nat) : Prop :=
  (rxCmd content = BEKEN_UART_REGISTER_WRITE_CMD → announced + 6 ≤ BKREG_TX_FIFO_THRD) ∧
    (rxCmd content = BEKEN_UART_REGISTER_READ_CMD → announced + 10 ≤ BKREG_TX_FIFO_THRD)

instance (content : Mem UInt8) (announced : Nat) : Decidable (Answers content announced) :=
  inferInstanceAs (Decidable (_ ∧ _))

section

variable {α β : Type} {p : α → Prop}

theorem keeps_ok {a : α} : Keeps p (.ok a) ↔ p a := by
  constructor
  · rintro ⟨b, same, holds⟩
    cases same
    exact holds
  · exact fun holds => ⟨a, rfl, holds⟩

theorem not_keeps_error (beyond : Beyond) : ¬ Keeps p (.error beyond) := by
  rintro ⟨a, same, _⟩
  cases same

theorem keeps_congr {q : α → Prop} {r : Except Beyond α} (same : ∀ a, p a ↔ q a) : Keeps p r ↔ Keeps q r :=
  exists_congr fun a => and_congr_right fun _ => same a

theorem keeps_map {f : β → α} {r : Except Beyond β} :
    Keeps p (do .ok (f (← r))) ↔ Keeps (fun b => p (f b)) r := by
  cases r with
  | error beyond => exact iff_of_false (not_keeps_error beyond) (not_keeps_error beyond)
  | ok b =>
    rw [keeps_ok]
    exact keeps_ok

end

section

variable (chip : Chip) (content txBuf : Mem UInt8)

theorem putTx_of_le {i : Nat} {bytes : List UInt8} (inside : i + bytes.length ≤ BKREG_TX_FIFO_THRD) :
    putTx txBuf i bytes = .ok (txBuf.write i bytes) :=
  Mem.storeWithin_of_le _ _ inside

/-- What is stored behind the total length leaves it. -/
theorem putTx_behind {i : Nat} {bytes : List UInt8} (behind : 2 < i)
    (inside : i + bytes.length ≤ BKREG_TX_FIFO_THRD) :
    ∃ stored, putTx txBuf i bytes = .ok stored ∧ stored 2 = txBuf 2 :=
  ⟨_, putTx_of_le txBuf inside, Mem.write_of_lt _ _ _ _ behind⟩

theorem putTx_total (total : UInt8) : ∃ stored, putTx txBuf 2 [total] = .ok stored ∧ stored 2 = total :=
  ⟨_, putTx_of_le txBuf (by simp [BKREG_TX_FIFO_THRD]), Mem.write_getElem txBuf 2 0 [total] (by simp)⟩

/-- A register is answered inside of `tx_buf`, and nothing of it is stored over the total length. -/
theorem putRegister_total (total : UInt8) (addr value : UInt32) :
    ∃ stored, putRegister content txBuf total addr value = .ok stored ∧ stored 2 = total := by
  have head : PARAM + (content.read 0 HCI_EVENT_HEAD_LENGTH).length ≤ BKREG_TX_FIFO_THRD := by
    rw [Mem.length_read]
    decide
  have cmd : PARAM + 3 + [rxCmd content].length ≤ BKREG_TX_FIFO_THRD := by
    rw [List.length_singleton]
    decide
  have first : PARAM + HCI_COMMAND_HEAD_LENGTH + (toLe32 addr).length ≤ BKREG_TX_FIFO_THRD := by
    rw [length_toLe32]
    decide
  have second : PARAM + HCI_COMMAND_HEAD_LENGTH + 4 + (toLe32 value).length ≤ BKREG_TX_FIFO_THRD := by
    rw [length_toLe32]
    decide
  obtain ⟨tx₀, stored₀, total₀⟩ := putTx_total txBuf total
  obtain ⟨tx₁, stored₁, total₁⟩ := putTx_behind tx₀ (by decide) head
  obtain ⟨tx₂, stored₂, total₂⟩ := putTx_behind tx₁ (by decide) cmd
  obtain ⟨tx₃, stored₃, total₃⟩ := putTx_behind tx₂ (by decide) first
  obtain ⟨tx₄, stored₄, total₄⟩ := putTx_behind tx₃ (by decide) second
  refine ⟨tx₄, ?_, ?_⟩
  · simp only [putRegister, stored₀, stored₁, stored₂, stored₃, stored₄, bind, Except.bind]
  · rw [total₄, total₃, total₂, total₁, total₀]

/-- What `bkreg_tx` sends, where the total length is small. -/
theorem bkregTx_eq :
    bkregTx txBuf =
      if HCI_EVENT_HEAD_LENGTH + (txBuf 2).toNat ≤ BKREG_TX_FIFO_THRD then
        .ok (((txBuf.write 0 [TRA_HCIT_EVENT]).write 1 [HCI_COMMAND_COMPLETE_EVENT]).read 0
          (HCI_EVENT_HEAD_LENGTH + (txBuf 2).toNat))
      else .error .txBuf := by
  have code : putTx txBuf 0 [TRA_HCIT_EVENT] = .ok (txBuf.write 0 [TRA_HCIT_EVENT]) :=
    putTx_of_le _ (by decide)
  have event (tx : Mem UInt8) :
      putTx tx 1 [HCI_COMMAND_COMPLETE_EVENT] = .ok (tx.write 1 [HCI_COMMAND_COMPLETE_EVENT]) :=
    putTx_of_le _ (by decide)
  simp only [bkregTx, code, event, bind, Except.bind]

theorem bkregTx_short (short : HCI_EVENT_HEAD_LENGTH + (txBuf 2).toNat ≤ BKREG_TX_FIFO_THRD) :
    ∃ sent, bkregTx txBuf = .ok sent ∧ sent.length ≤ BKREG_TX_FIFO_THRD := by
  refine ⟨_, (bkregTx_eq txBuf).trans (if_pos short), ?_⟩
  rw [Mem.length_read]
  exact short

/-- The one response of a command is sent from inside of `tx_buf` exactly where the total length is small. -/
theorem bkregTx_sends_iff :
    Sends (do .ok [← bkregTx txBuf]) ↔ HCI_EVENT_HEAD_LENGTH + (txBuf 2).toNat ≤ BKREG_TX_FIFO_THRD := by
  by_cases short : HCI_EVENT_HEAD_LENGTH + (txBuf 2).toNat ≤ BKREG_TX_FIFO_THRD
  · obtain ⟨sent, ran, inside⟩ := bkregTx_short txBuf short
    rw [ran]
    exact iff_of_true ⟨[sent], rfl, by simpa using inside⟩ short
  · rw [bkregTx_eq, if_neg short]
    exact iff_of_false (not_keeps_error _) short

/-- A part of the flash is read into `tx_buf` behind the register. -/
theorem manualCalReadOtpFlash_reads (addr : UInt32) {len : Nat} (part : len ≤ OTP_READ_MAX_LEN) :
    ∃ stored read, manualCalReadOtpFlash chip txBuf addr len = .ok (stored, read) ∧ read ≤ len := by
  unfold manualCalReadOtpFlash
  split
  next => exact ⟨txBuf, 0, rfl, Nat.zero_le _⟩
  next =>
    -- the longest part still ends inside of the buffer
    have inside (bytes : List UInt8) (same : bytes.length = len) :
        PARAM + OTP_CMD_RET_LEN + bytes.length ≤ BKREG_TX_FIFO_THRD := by
      rw [same]
      simp only [OTP_READ_MAX_LEN, PARAM, HCI_EVENT_HEAD_LENGTH, OTP_CMD_RET_LEN, BKREG_TX_FIFO_THRD] at part ⊢
      omega
    dsimp only
    rw [putTx_of_le _ (inside _ (by rw [List.length_map, List.length_range]))]
    exact ⟨_, _, rfl, Nat.mod_le _ _⟩

/-- However much of the flash is asked for, its parts are answered from inside of `tx_buf`. -/
theorem readOtp_sends (lenLeft : Nat) (addr : UInt32) : Sends (readOtp chip content lenLeft addr txBuf) := by
  -- by strong induction on what is left; a part that was read makes it less
  induction lenLeft using Nat.strong_induction_on generalizing addr txBuf with
  | _ lenLeft ih =>
    rw [readOtp]
    by_cases done : lenLeft = 0
    · rw [if_pos done]
      exact ⟨[], rfl, by simp⟩
    · obtain ⟨tx₁, len, read, part⟩ :=
        manualCalReadOtpFlash_reads chip txBuf addr (Nat.min_le_right lenLeft OTP_READ_MAX_LEN)
      simp only [if_neg done, read, bind, Except.bind]
      by_cases failed : len = 0
      · rw [dif_pos failed]
        exact ⟨[], rfl, by simp⟩
      · obtain ⟨tx₂, stored, total⟩ :=
          putRegister_total content tx₁ (UInt8.ofNat (OTP_CMD_RET_LEN + len)) (rxAddr content + addr)
            (UInt32.ofNat len)
        -- a part is small, and a wrap only makes the byte smaller
        have short : HCI_EVENT_HEAD_LENGTH + (tx₂ 2).toNat ≤ BKREG_TX_FIFO_THRD := by
          have most : len ≤ OTP_READ_MAX_LEN := part.trans (Nat.min_le_right _ _)
          have wraps := Nat.mod_le (OTP_CMD_RET_LEN + len) 256
          rw [total, UInt8.toNat_ofNat']
          simp only [OTP_READ_MAX_LEN, HCI_EVENT_HEAD_LENGTH, OTP_CMD_RET_LEN, BKREG_TX_FIFO_THRD] at most wraps
          simp only [HCI_EVENT_HEAD_LENGTH, OTP_CMD_RET_LEN, BKREG_TX_FIFO_THRD]
          omega
        obtain ⟨sent, ran, inside⟩ := bkregTx_short tx₂ short
        obtain ⟨others, rest, all⟩ := ih (lenLeft - len) (by omega) tx₂ (addr + UInt32.ofNat len)
        rw [dif_neg failed, stored]
        simp only [ran, rest]
        exact ⟨_, rfl, List.forall_mem_cons.mpr ⟨inside, all⟩⟩

section

variable {content} {announced : Nat}

theorem answers_of_write (write : rxCmd content = BEKEN_UART_REGISTER_WRITE_CMD) :
    Answers content announced ↔ announced + 6 ≤ BKREG_TX_FIFO_THRD := by
  rw [Answers, write]
  exact ⟨fun both => both.1 rfl, fun fits => ⟨fun _ => fits, fun read => absurd read (by decide)⟩⟩

theorem answers_of_read (read : rxCmd content = BEKEN_UART_REGISTER_READ_CMD) :
    Answers content announced ↔ announced + 10 ≤ BKREG_TX_FIFO_THRD := by
  rw [Answers, read]
  exact ⟨fun both => both.2 rfl, fun fits => ⟨fun write => absurd write (by decide), fun _ => fits⟩⟩

theorem answers_of_other (write : rxCmd content ≠ BEKEN_UART_REGISTER_WRITE_CMD)
    (read : rxCmd content ≠ BEKEN_UART_REGISTER_READ_CMD) : Answers content announced :=
  ⟨fun same => absurd same write, fun same => absurd same read⟩

end

/-- The total lengths of the answers on a register, as bytes. -/
theorem toNat_total_write {announced : Nat} (small : announced < 128) :
    (UInt32.ofNat (4 + announced) - 1).toUInt8.toNat = 3 + announced := by
  have less : UInt32.ofNat (4 + announced) - 1 = UInt32.ofNat (3 + announced) := by
    rw [show 4 + announced = 3 + announced + 1 by omega, UInt32.ofNat_add]
    exact UInt32.add_sub_cancel _ _
  rw [less, UInt32.toNat_toUInt8, UInt32.toNat_ofNat']
  omega

theorem toNat_total_read {announced : Nat} (small : announced < 128) :
    (UInt32.ofNat HCI_EVENT_HEAD_LENGTH + UInt32.ofNat (4 + announced)).toUInt8.toNat = 7 + announced := by
  rw [← UInt32.ofNat_add, UInt32.toNat_toUInt8, UInt32.toNat_ofNat', HCI_EVENT_HEAD_LENGTH]
  omega

/-- A command that writes a register is answered with its own length, and one that reads with more. -/
theorem bkregRunCommand_sends_iff {announced : Nat} (small : announced < 128) :
    Sends (bkregRunCommand chip content (UInt32.ofNat (4 + announced))) ↔ Answers content announced := by
  obtain ⟨tx₀, stored₀, total₀⟩ := putTx_total chip.stack 1
  obtain ⟨tx₁, stored₁, total₁⟩ : ∃ stored, putTx tx₀ PARAM [rxCmd content] = .ok stored ∧ stored 2 = tx₀ 2 :=
    putTx_behind tx₀ (by decide) (by simp [PARAM, BKREG_TX_FIFO_THRD])
  simp only [bkregRunCommand, stored₀, stored₁, bind, Except.bind]
  split
  next write =>
    -- a write is answered with one byte less than it has
    obtain ⟨tx, stored, total⟩ := putRegister_total content tx₁ (UInt32.ofNat (4 + announced) - 1).toUInt8
      (rxAddr content) (rxValue content)
    have sends := bkregTx_sends_iff tx
    rw [total, toNat_total_write small] at sends
    rw [stored, answers_of_write write]
    refine sends.trans ?_
    simp only [HCI_EVENT_HEAD_LENGTH]
    omega
  next write =>
    split
    next read =>
      -- a read is answered with the head of an event more
      obtain ⟨tx, stored, total⟩ := putRegister_total content tx₁
        (UInt32.ofNat HCI_EVENT_HEAD_LENGTH + UInt32.ofNat (4 + announced)).toUInt8 (rxAddr content)
        (if rxAddr content = 0x00800014 then if chip.ateModeState then 0x1B190104 else 0x0B190104
          else chip.regRead (rxAddr content))
      have sends := bkregTx_sends_iff tx
      rw [total, toNat_total_read small] at sends
      rw [stored, answers_of_read read]
      refine sends.trans ?_
      simp only [HCI_EVENT_HEAD_LENGTH]
      omega
    next read =>
      -- the others do not take their length from the command
      refine iff_of_true ?_ (answers_of_other write read)
      split
      next =>
        obtain ⟨tx₂, stored₂, total₂⟩ := putRegister_total content tx₁ (UInt8.ofNat (OTP_CMD_RET_LEN + 1))
          (rxAddr content) (rxValue content)
        obtain ⟨tx₃, stored₃, total₃⟩ :
            ∃ stored, putTx tx₂ (PARAM + OTP_CMD_RET_LEN) [chip.manualCalWirteOtpFlash (rxAddr content)
              (rxValue content) (content.shift 13)] = .ok stored ∧ stored 2 = tx₂ 2 :=
          putTx_behind tx₂ (by decide) (by simp [PARAM, OTP_CMD_RET_LEN, BKREG_TX_FIFO_THRD])
        rw [stored₂]
        dsimp only
        rw [stored₃]
        refine (bkregTx_sends_iff tx₃).mpr ?_
        rw [total₃, total₂]
        decide
      next =>
        split
        next => exact readOtp_sends chip content tx₁ _ _
        next =>
          refine (bkregTx_sends_iff tx₁).mpr ?_
          rw [total₁, total₀]
          decide

end

end Bk7251.UartDebug
