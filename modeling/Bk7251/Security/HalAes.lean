import Bk7251.Lib.Bytes

/-!
# The AES engine

The registers of the AES unit, the functions of `security.c` that write and read them, and those of
`hal_aes.c` that the users call. There is one set of key registers; `ctx` is passed along and never
looked at. The engine itself is hardware: its transform is a parameter.
-/
namespace Bk7251.Security

open Lib

/-- `AES_RETURN`. -/
inductive AesReturn where
  | AES_OK
  | AES_BUSY
  | AES_KEYLEN_ERR
  deriving DecidableEq

/-- `enum AES_ENCODE`. -/
inductive AesEncode where
  | DECODE
  | ENCODE
  deriving DecidableEq

/-! `enum AES_MODE`, the values of the mode field in CONFIG. -/

def AES128 : UInt32 := 0
def AES256 : UInt32 := 1
def AES192 : UInt32 := 2

def SECURITY_AES_MODE_POSI : UInt32 := 1
def SECURITY_AES_MODE_MASK : UInt32 := 3
def SECURITY_AES_ENCODE_BIT : UInt32 := 1
def SECURITY_AES_AUTEO_BIT : UInt32 := 4

abbrev Block := Fin (4 * 4) → UInt8

/-- The registers of the AES unit; its STATUS is read only to wait for the end of a computation. -/
structure AesRegs where
  key : Fin 8 → UInt32
  ctrl : UInt32
  config : UInt32
  block : Fin 4 → UInt32
  result : Fin 4 → UInt32

/-! ### The engine -/

/-- Byte `n` of a row of registers, the most significant byte of each first. -/
def byteAt {k : Nat} (w : Fin k → UInt32) (n : Fin (4 * k)) : UInt8 :=
  (toLe32 (w ⟨n / 4, by omega⟩)).getD (3 - n % 4) 0

/-- Four bytes to a register, copied through a pointer because they need not be aligned. -/
def wordsOf {k : Nat} (b : Fin (4 * k) → UInt8) (i : Fin k) : UInt32 :=
  ofLe32 (b ⟨4 * i + 3, by omega⟩) (b ⟨4 * i + 2, by omega⟩) (b ⟨4 * i + 1, by omega⟩) (b ⟨4 * i, by omega⟩)

/-- The bytes of a key under the mode field of CONFIG. -/
def keySize (config : UInt32) : Nat :=
  let mode := config >>> SECURITY_AES_MODE_POSI &&& SECURITY_AES_MODE_MASK
  if mode = AES128 then 16 else if mode = AES192 then 24 else 32

/-- The key in the key registers. -/
def AesRegs.keyBytes (r : AesRegs) : List UInt8 := (List.ofFn (byteAt r.key)).take (keySize r.config)

def AesRegs.direction (r : AesRegs) : AesEncode :=
  if r.config &&& SECURITY_AES_ENCODE_BIT = 0 then .DECODE else .ENCODE

/-- The transform of a block under a key of 16, 24 or 32 bytes. -/
abbrev Aes := List UInt8 → AesEncode → Block → Block

/-- What a started engine leaves in the result registers. -/
def AesRegs.compute (aes : Aes) (r : AesRegs) : AesRegs :=
  { r with result := wordsOf (aes r.keyBytes r.direction (byteAt r.block)) }

/-! ### `security.c` -/

/-- `security_aes_start`, up to the end of the computation it waits for. -/
def securityAesStart (aes : Aes) (r : AesRegs) (mode : AesEncode) : AesRegs :=
  let config := if mode = .ENCODE then r.config ||| SECURITY_AES_ENCODE_BIT
    else r.config &&& ~~~SECURITY_AES_ENCODE_BIT
  let r := { r with config := config }
  { r with ctrl := r.ctrl ||| SECURITY_AES_AUTEO_BIT }.compute aes

/-- `security_aes_init`; the callbacks that are passed to it do nothing. -/
def securityAesInit (r : AesRegs) : AesRegs := { r with ctrl := 0 }

/-- `mode` and `end_reg_pos`. -/
def keyMode (keybits : Nat) : Option (UInt32 × Nat) :=
  if keybits = 128 then some (AES128, 3)
  else if keybits = 192 then some (AES192, 5)
  else if keybits = 256 then some (AES256, 7)
  else none

def securityAesSetKey (r : AesRegs) (key : Mem UInt8) (keybits : Nat) : AesRegs × AesReturn :=
  match keyMode keybits with
  | none => (r, .AES_KEYLEN_ERR)
  | some (mode, endRegPos) =>
    -- `j` counts along with `i` up to `end_reg_pos`
    let word (i : Fin 8) : UInt32 :=
      if i ≤ endRegPos then wordsOf (fun n => key n) i else 0
    let config := r.config &&& ~~~(SECURITY_AES_MODE_MASK <<< SECURITY_AES_MODE_POSI)
    ({ r with
        key := word
        config := config ||| (mode &&& SECURITY_AES_MODE_MASK) <<< SECURITY_AES_MODE_POSI }, .AES_OK)

def securityAesSetBlockData (r : AesRegs) (blockData : Block) : AesRegs × AesReturn :=
  ({ r with block := wordsOf blockData }, .AES_OK)

def securityAesGetResultData (r : AesRegs) : Block × AesReturn := (byteAt r.result, .AES_OK)

/-! ### `hal_aes.c` -/

/-- The registers, and whether there is a `hal_aes_mutex`. -/
structure HalAes where
  mutex : Bool
  regs : AesRegs

/-- `hal_aes_init`; `created` is what the creation of the mutex comes to. -/
def halAesInit (created : Bool) (s : HalAes) (_ctx : Nat) : HalAes :=
  if s.mutex then s
  else if created then { s with mutex := true, regs := securityAesInit s.regs }
  else s

def retOf (ret : AesReturn) : Int := if ret = .AES_OK then 0 else -1

/-- `hal_aes_setkey_dec`; taking a mutex that is not there has no result. -/
def halAesSetkeyDec (s : HalAes) (_ctx : Nat) (key : Mem UInt8) (keybits : Nat) : Option (HalAes × Int) :=
  if s.mutex then
    let (regs, ret) := securityAesSetKey s.regs key keybits
    some ({ s with regs := regs }, retOf ret)
  else none

/-- `hal_aes_setkey_enc`. -/
def halAesSetkeyEnc (s : HalAes) (_ctx : Nat) (key : Mem UInt8) (keybits : Nat) : Option (HalAes × Int) :=
  if s.mutex then
    let (regs, ret) := securityAesSetKey s.regs key keybits
    some ({ s with regs := regs }, retOf ret)
  else none

/-- What the integer `mode` asks for. -/
def requested (mode : Int) : AesEncode := if mode = 0 then .DECODE else .ENCODE

/-- `hal_aes_crypt_ecb`, with the contents of `output`, which a failure leaves as they are. -/
def halAesCryptEcb (aes : Aes) (s : HalAes) (_ctx : Nat) (mode : Int) (input output : Block) :
    Option (HalAes × Int × Block) :=
  if s.mutex then
    let (regs, ret) := securityAesSetBlockData s.regs input
    if ret ≠ .AES_OK then some ({ s with regs := regs }, -1, output)
    else
      let regs := securityAesStart aes regs (requested mode)
      let (output, ret) := securityAesGetResultData regs
      some ({ s with regs := regs }, retOf ret, output)
  else none

/-- `hal_aes_free`: the mutex goes, the key registers stay as they are. -/
def halAesFree (s : HalAes) (_ctx : Nat) : HalAes :=
  { s with mutex := false, regs := securityAesInit s.regs }

/-! ### What the engine finds in its registers -/

theorem byteAt_of_word {k : Nat} {w : Fin k → UInt32} {b : Fin (4 * k) → UInt8} {n : Fin (4 * k)}
    (word : w ⟨n / 4, by omega⟩ = wordsOf b ⟨n / 4, by omega⟩) : byteAt w n = b n := by
  rw [byteAt, word, wordsOf, toLe32_ofLe32]
  have cases : (n : Nat) % 4 = 0 ∨ (n : Nat) % 4 = 1 ∨ (n : Nat) % 4 = 2 ∨ (n : Nat) % 4 = 3 := by omega
  obtain last | last | last | last := cases
  all_goals
    rw [last]
    apply congrArg b
    apply Fin.ext
    show _ = (n : Nat)
    simp only
    omega

/-- The block registers hold the block that was put in, the result registers the one that came out. -/
theorem byteAt_wordsOf {k : Nat} (b : Fin (4 * k) → UInt8) : byteAt (wordsOf b) = b :=
  funext fun _ => byteAt_of_word rfl

private theorem mode_stored {mode : UInt32} (config : UInt32)
    (known : mode = AES128 ∨ mode = AES192 ∨ mode = AES256) :
    (config &&& ~~~(SECURITY_AES_MODE_MASK <<< SECURITY_AES_MODE_POSI) |||
        (mode &&& SECURITY_AES_MODE_MASK) <<< SECURITY_AES_MODE_POSI) >>> SECURITY_AES_MODE_POSI &&&
      SECURITY_AES_MODE_MASK = mode := by
  apply eq_of_bits
  intro i bound
  obtain rfl | rfl | rfl := known
  all_goals
    simp only [AES128, AES192, AES256, SECURITY_AES_MODE_MASK, SECURITY_AES_MODE_POSI, UInt32.toBitVec_or,
      UInt32.toBitVec_shiftLeft, UInt32.toBitVec_shiftRight, UInt32.toBitVec_and, UInt32.toBitVec_not]
    interval_cases i <;> simp

/-- The direction bit is not part of the mode field. -/
theorem keySize_encode (config : UInt32) :
    keySize (config ||| SECURITY_AES_ENCODE_BIT) = keySize config ∧
      keySize (config &&& ~~~SECURITY_AES_ENCODE_BIT) = keySize config := by
  have set : (config ||| SECURITY_AES_ENCODE_BIT) >>> SECURITY_AES_MODE_POSI &&& SECURITY_AES_MODE_MASK =
      config >>> SECURITY_AES_MODE_POSI &&& SECURITY_AES_MODE_MASK := by
    apply eq_of_bits
    intro i bound
    simp only [SECURITY_AES_MODE_MASK, SECURITY_AES_MODE_POSI, SECURITY_AES_ENCODE_BIT, UInt32.toBitVec_or,
      UInt32.toBitVec_shiftRight, UInt32.toBitVec_and]
    interval_cases i <;> simp
  have clear : (config &&& ~~~SECURITY_AES_ENCODE_BIT) >>> SECURITY_AES_MODE_POSI &&& SECURITY_AES_MODE_MASK =
      config >>> SECURITY_AES_MODE_POSI &&& SECURITY_AES_MODE_MASK := by
    apply eq_of_bits
    intro i bound
    simp only [SECURITY_AES_MODE_MASK, SECURITY_AES_MODE_POSI, SECURITY_AES_ENCODE_BIT, UInt32.toBitVec_not,
      UInt32.toBitVec_shiftRight, UInt32.toBitVec_and]
    interval_cases i <;> simp
  exact ⟨by rw [keySize, set, keySize], by rw [keySize, clear, keySize]⟩

/-- A key is taken at its three sizes only, and then the engine finds its bytes. -/
theorem securityAesSetKey_spec (r : AesRegs) (key : Mem UInt8) (keybits : Nat) :
    (keybits = 128 ∨ keybits = 192 ∨ keybits = 256) ∧ (securityAesSetKey r key keybits).2 = .AES_OK ∧
        (securityAesSetKey r key keybits).1.keyBytes = key.read 0 (keybits / 8) ∨
      ¬(keybits = 128 ∨ keybits = 192 ∨ keybits = 256) ∧
        securityAesSetKey r key keybits = (r, .AES_KEYLEN_ERR) := by
  have taken : ∀ mode endRegPos, keyMode keybits = some (mode, endRegPos) →
      (mode = AES128 ∨ mode = AES192 ∨ mode = AES256) →
      (if mode = AES128 then 16 else if mode = AES192 then 24 else 32) = keybits / 8 →
      4 * (endRegPos + 1) = keybits / 8 → endRegPos < 8 →
      (securityAesSetKey r key keybits).2 = .AES_OK ∧
        (securityAesSetKey r key keybits).1.keyBytes = key.read 0 (keybits / 8) := by
    intro mode endRegPos found known size count inside
    simp only [securityAesSetKey, found]
    refine ⟨trivial, ?_⟩
    rw [AesRegs.keyBytes, keySize, mode_stored r.config known, size]
    apply List.ext_getElem
    · rw [List.length_take, List.length_ofFn, Mem.length_read]
      omega
    · intro n left right
      rw [Mem.length_read] at right
      rw [Mem.getElem_read, List.getElem_take, List.getElem_ofFn, Nat.zero_add]
      apply @byteAt_of_word 8 _ (fun n => key n)
      exact if_pos (by simp only; omega)
  by_cases known : keybits = 128 ∨ keybits = 192 ∨ keybits = 256
  · left
    refine ⟨known, ?_⟩
    obtain rfl | rfl | rfl := known
    · exact taken AES128 3 rfl (.inl rfl) rfl rfl (by decide)
    · exact taken AES192 5 rfl (.inr (.inl rfl)) rfl rfl (by decide)
    · exact taken AES256 7 rfl (.inr (.inr rfl)) rfl rfl (by decide)
  · right
    refine ⟨known, ?_⟩
    obtain ⟨no128, no192, no256⟩ : keybits ≠ 128 ∧ keybits ≠ 192 ∧ keybits ≠ 256 := by
      simpa only [not_or] using known
    simp only [securityAesSetKey, keyMode, if_neg no128, if_neg no192, if_neg no256]

/-- One pass through the engine: the key registers stay as they are. -/
theorem securityAesStart_spec (aes : Aes) (r : AesRegs) (mode : AesEncode) :
    (securityAesStart aes r mode).keyBytes = r.keyBytes ∧
      byteAt (securityAesStart aes r mode).result = aes r.keyBytes mode (byteAt r.block) := by
  have size := keySize_encode r.config
  have set : (r.config ||| SECURITY_AES_ENCODE_BIT) &&& SECURITY_AES_ENCODE_BIT = 1 := by
    apply eq_of_bits
    intro i bound
    simp only [SECURITY_AES_ENCODE_BIT, UInt32.toBitVec_or, UInt32.toBitVec_and]
    interval_cases i <;> simp
  have clear : (r.config &&& ~~~SECURITY_AES_ENCODE_BIT) &&& SECURITY_AES_ENCODE_BIT = 0 := by
    apply eq_of_bits
    intro i bound
    simp only [SECURITY_AES_ENCODE_BIT, UInt32.toBitVec_not, UInt32.toBitVec_and]
    interval_cases i <;> simp
  simp only [securityAesStart, AesRegs.compute, byteAt_wordsOf, AesRegs.keyBytes, AesRegs.direction]
  cases mode with
  | DECODE => simp [size.2, clear]
  | ENCODE => simp [size.1, set]

end Bk7251.Security
