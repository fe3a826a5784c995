import Bk7251.Lib.Machine
import Bk7251.Security.HalAes

/-!
# Keys of other contexts

Contexts set keys and transform blocks in any order. The key of a context is whatever it set last; the
engine uses what anybody set last. The two agree along exactly the runs in which every context that
transforms a block was also the last one to set a key, or set the same one.
-/
namespace Bk7251.Security

open Lib

/-- A call, as one step: from taking the mutex to giving it back. -/
inductive AesCall where
  | init (ctx : Nat) (created : Bool)
  | setkeyDec (ctx : Nat) (key : Mem UInt8) (keybits : Nat)
  | setkeyEnc (ctx : Nat) (key : Mem UInt8) (keybits : Nat)
  | cryptEcb (ctx : Nat) (mode : Int) (input output : Block)
  | free (ctx : Nat)

/-- The unit, and the key each context set last with success. -/
structure Users where
  hal : HalAes
  keyOf : Nat → Option (List UInt8)

/-- A call of `hal_aes_crypt_ecb` that has returned. -/
structure Crypt where
  /-- the key of the context that called -/
  key : Option (List UInt8)
  mode : Int
  input : Block
  ret : Int
  output : Block

def Users.start (hal : HalAes) : Users := { hal := hal, keyOf := fun _ => none }

/-- Where 0 is returned, the output is the transform of the input under the key of the context. -/
def Crypt.Right (aes : Aes) (c : Crypt) : Prop :=
  c.ret = 0 → ∃ key, c.key = some key ∧ c.output = aes key (requested c.mode) c.input

/-- A key is the key of its context once setting it has returned 0. -/
def Users.setkey (s : Users) (ctx : Nat) (key : Mem UInt8) (keybits : Nat) :
    Option (HalAes × Int) → Option Users
  | none => none
  | some (hal, ret) =>
    some { hal := hal
           keyOf := if ret = 0 then Function.update s.keyOf ctx (some (key.read 0 (keybits / 8))) else s.keyOf }

/-- After a call without a result nothing happens any more. -/
def Users.step (aes : Aes) : Option Users → AesCall → Option Users × Option Crypt
  | none, _ => (none, none)
  | some s, .init ctx created => (some { s with hal := halAesInit created s.hal ctx }, none)
  | some s, .setkeyDec ctx key keybits =>
    (s.setkey ctx key keybits (halAesSetkeyDec s.hal ctx key keybits), none)
  | some s, .setkeyEnc ctx key keybits =>
    (s.setkey ctx key keybits (halAesSetkeyEnc s.hal ctx key keybits), none)
  | some s, .cryptEcb ctx mode input output =>
    match halAesCryptEcb aes s.hal ctx mode input output with
    | none => (none, none)
    | some (hal, ret, output) =>
      (some { s with hal := hal },
        some { key := s.keyOf ctx, mode := mode, input := input, ret := ret, output := output })
  | some s, .free ctx => (some { s with hal := halAesFree s.hal ctx }, none)

/-! ### Sessions -/

/-- What the calls come to without an engine: the key of every context and the key set last of all. -/
structure Sessions where
  mutex : Bool
  keyOf : Nat → Option (List UInt8)
  last : Option (List UInt8)

def Sessions.start (mutex : Bool) : Sessions := { mutex := mutex, keyOf := fun _ => none, last := none }

def Sessions.setkey (s : Sessions) (ctx : Nat) (key : Mem UInt8) (keybits : Nat) : Option Sessions :=
  if s.mutex then
    if keybits = 128 ∨ keybits = 192 ∨ keybits = 256 then
      let bytes := key.read 0 (keybits / 8)
      some { s with keyOf := Function.update s.keyOf ctx (some bytes), last := some bytes }
    else some s
  else none

def Sessions.step : Option Sessions → AesCall → Option Sessions
  | none, _ => none
  | some s, .init _ created => some { s with mutex := s.mutex || created }
  | some s, .setkeyDec ctx key keybits => s.setkey ctx key keybits
  | some s, .setkeyEnc ctx key keybits => s.setkey ctx key keybits
  | some s, .cryptEcb .. => if s.mutex then some s else none
  | some s, .free _ => some { s with mutex := false }

/-- A context that transforms a block has a key, and it is the one that was set last. -/
def Sessions.Own : Option Sessions → AesCall → Prop
  | some s, .cryptEcb ctx .. => s.mutex = true → ∃ key, s.keyOf ctx = some key ∧ s.last = some key
  | _, _ => True

/-- The same for one engine: its transform under the key set last is the one that was asked for. -/
def Sessions.Meets (aes : Aes) : Option Sessions → AesCall → Prop
  | some s, .cryptEcb ctx mode input _ =>
    s.mutex = true → ∃ key last, s.keyOf ctx = some key ∧ s.last = some last ∧
      aes last (requested mode) input = aes key (requested mode) input
  | _, _ => True

/-- The key registers hold the key that was set last. -/
structure Carries (u : Users) (s : Sessions) : Prop where
  mutex : u.hal.mutex = s.mutex
  keyOf : u.keyOf = s.keyOf
  last : ∀ key, s.last = some key → u.hal.regs.keyBytes = key
  /-- a context has a key only after a key was set -/
  set : ∀ ctx key, s.keyOf ctx = some key → ∃ last, s.last = some last

section

variable {aes : Aes} {u : Users} {s : Sessions}

private theorem halAesInit_spec (created : Bool) (hal : HalAes) (ctx : Nat) :
    (halAesInit created hal ctx).mutex = (hal.mutex || created) ∧
      (halAesInit created hal ctx).regs.keyBytes = hal.regs.keyBytes := by
  rw [halAesInit]
  cases present : hal.mutex
  · cases created
    · exact ⟨present, rfl⟩
    · exact ⟨rfl, rfl⟩
  · exact ⟨present, rfl⟩

private theorem carries_setkey (related : Carries u s) (ctx : Nat) (key : Mem UInt8) (keybits : Nat) :
    Option.Rel Carries (u.setkey ctx key keybits (halAesSetkeyDec u.hal ctx key keybits))
      (s.setkey ctx key keybits) := by
  rw [halAesSetkeyDec, Sessions.setkey, related.mutex]
  by_cases locked : s.mutex = true
  · rw [if_pos locked, if_pos locked]
    obtain ⟨known, ok, bytes⟩ | ⟨unknown, same⟩ := securityAesSetKey_spec u.hal.regs key keybits
    · rw [if_pos known]
      simp only [Users.setkey, retOf, ok, if_true]
      refine .some ⟨rfl, by rw [related.keyOf], fun other found => ?_, fun _ _ _ => ⟨_, rfl⟩⟩
      exact bytes.trans (Option.some.inj found)
    · rw [if_neg unknown]
      simp only [Users.setkey, retOf, same, reduceCtorEq, if_false]
      exact .some ⟨rfl, related.keyOf, related.last, related.set⟩
  · rw [if_neg locked, if_neg locked]
    exact .none

/-- A block that is transformed, by the key in the registers. -/
private theorem cryptEcb_eq (locked : u.hal.mutex = true) (ctx : Nat) (mode : Int) (input output : Block) :
    ∃ regs : AesRegs, halAesCryptEcb aes u.hal ctx mode input output =
        some ({ u.hal with regs := regs }, 0, aes u.hal.regs.keyBytes (requested mode) input) ∧
      regs.keyBytes = u.hal.regs.keyBytes := by
  let regs := (securityAesSetBlockData u.hal.regs input).1
  obtain ⟨kept, result⟩ := securityAesStart_spec aes regs (requested mode)
  refine ⟨securityAesStart aes regs (requested mode), ?_, kept⟩
  have block : byteAt regs.block = input := byteAt_wordsOf input
  rw [block] at result
  rw [halAesCryptEcb, if_pos locked]
  change _ = some (_, 0, aes regs.keyBytes (requested mode) input)
  rw [← result]
  rfl

/-- One call: the registers go on carrying the last key, and the output is right for exactly the calls
of the context that set it, or for keys the engine does not tell apart on this block. -/
theorem carries_step (u : Option Users) (s : Option Sessions) (call : AesCall)
    (related : Option.Rel Carries u s) :
    Option.Rel Carries (Users.step aes u call).1 (Sessions.step s call) ∧
      ((∀ c ∈ (Users.step aes u call).2, c.Right aes) ↔ Sessions.Meets aes s call) := by
  have silent : (∀ c ∈ (none : Option Crypt), c.Right aes) ↔ True := by simp
  cases related with
  | none => exact ⟨.none, silent⟩
  | @some u s related =>
    cases call with
    | init ctx created =>
      obtain ⟨mutex, kept⟩ := halAesInit_spec created u.hal ctx
      refine ⟨.some ⟨?_, related.keyOf, fun key found => ?_, related.set⟩, silent⟩
      · rw [← related.mutex]
        exact mutex
      · exact kept.trans (related.last key found)
    | setkeyDec ctx key keybits => exact ⟨carries_setkey related ctx key keybits, silent⟩
    | setkeyEnc ctx key keybits => exact ⟨carries_setkey related ctx key keybits, silent⟩
    | free ctx => exact ⟨.some ⟨rfl, related.keyOf, related.last, related.set⟩, silent⟩
    | cryptEcb ctx mode input output =>
      simp only [Users.step, Sessions.step, Sessions.Meets]
      by_cases locked : s.mutex = true
      · obtain ⟨regs, done, kept⟩ := @cryptEcb_eq aes u (related.mutex.trans locked) ctx mode input output
        rw [done, if_pos locked]
        refine ⟨.some ⟨related.mutex, related.keyOf, fun key found => ?_, related.set⟩, ?_⟩
        · exact kept.trans (related.last key found)
        · -- in the registers is the key set last, so the engine answers for that key
          constructor
          · intro right
            obtain ⟨key, own, same⟩ := right _ rfl rfl
            rw [related.keyOf] at own
            obtain ⟨last, found⟩ := related.set ctx key own
            refine fun _ => ⟨key, last, own, found, ?_⟩
            rw [← related.last last found]
            exact same
          · intro met c returned _
            obtain rfl := Option.some.inj returned
            obtain ⟨key, last, own, found, same⟩ := met locked
            refine ⟨key, (congrFun related.keyOf ctx).trans own, ?_⟩
            rw [← related.last last found] at same
            exact same
      · rw [halAesCryptEcb, related.mutex, if_neg locked, if_neg locked]
        exact ⟨.none, silent.trans (iff_of_true trivial fun taken => absurd taken locked)⟩

end

/-- An engine that tells two keys apart can always be thought of. -/
private theorem meets_all_iff (s : Option Sessions) (call : AesCall) :
    (∀ aes, Sessions.Meets aes s call) ↔ Sessions.Own s call := by
  cases s with
  | none => exact iff_of_true (fun _ => trivial) trivial
  | some s =>
    cases call with
    | cryptEcb ctx mode input output =>
      constructor
      · intro met locked
        obtain ⟨key, last, own, found, _⟩ := met (fun _ _ block => block) locked
        -- this one answers 0 for the key of the context and 1 for every other key
        let apart : Aes := fun k _ _ _ => if k = key then 0 else 1
        obtain ⟨key', last', own', found', same⟩ := met apart locked
        obtain rfl := Option.some.inj (own.symm.trans own')
        obtain rfl := Option.some.inj (found.symm.trans found')
        refine ⟨key, own, ?_⟩
        by_cases equal : last = key
        · rw [found, equal]
        · have first := congrFun same 0
          simp [apart, equal] at first
      · intro own aes locked
        obtain ⟨key, mine, found⟩ := own locked
        exact ⟨key, key, mine, found, rfl⟩
    | init | setkeyDec | setkeyEnc | free => exact iff_of_true (fun _ => trivial) trivial

theorem carries_start (hal : HalAes) :
    Option.Rel Carries (some (Users.start hal)) (some (Sessions.start hal.mutex)) :=
  .some ⟨rfl, rfl, (fun _ absent => nomatch absent), (fun _ _ absent => nomatch absent)⟩

private theorem outputs_iff (aes : Aes) (hal : HalAes) (calls : List AesCall) :
    (∀ out ∈ (Machine.run (Users.step aes) (some (Users.start hal)) calls).2, ∀ c ∈ out, c.Right aes) ↔
      Along Sessions.step (Sessions.Meets aes) (some (Sessions.start hal.mutex)) calls :=
  @Machine.run_outputs_iff_of_sim _ _ _ _ (Users.step aes) Sessions.step (Option.Rel Carries)
    (fun out => ∀ c ∈ out, c.Right aes) (Sessions.Meets aes) carries_step _ _ (carries_start hal) calls

/-- Over every order of calls of any number of contexts, from any contents of the registers: the outputs
of an engine are right exactly when it makes no difference, on the blocks transformed, between the key
of the context and the key that was set last; they are right whatever the engine computes exactly when
every context that transforms a block owns the key that was set last. -/
theorem isolation_iff (hal : HalAes) (calls : List AesCall) :
    (∀ aes : Aes, (∀ out ∈ (Machine.run (Users.step aes) (some (Users.start hal)) calls).2,
        ∀ c ∈ out, c.Right aes) ↔
      Along Sessions.step (Sessions.Meets aes) (some (Sessions.start hal.mutex)) calls) ∧
    ((∀ aes : Aes, ∀ out ∈ (Machine.run (Users.step aes) (some (Users.start hal)) calls).2,
        ∀ c ∈ out, c.Right aes) ↔
      Along Sessions.step Sessions.Own (some (Sessions.start hal.mutex)) calls) := by
  refine ⟨fun aes => outputs_iff aes hal calls, ?_⟩
  calc
    _ ↔ ∀ aes, Along Sessions.step (Sessions.Meets aes) _ calls :=
      forall_congr' fun aes => outputs_iff aes hal calls
    _ ↔ Along Sessions.step (fun s call => ∀ aes, Sessions.Meets aes s call) _ calls := along_forall _ calls
    _ ↔ _ := by simp only [meets_all_iff]

/-! ### Two contexts -/

def zeroKey : List UInt8 := List.replicate 16 0

def countingKey : List UInt8 := [0, 1, 2, 3, 4, 5, 6, 7, 8, 9, 10, 11, 12, 13, 14, 15]

/-- AES-128 of the zero block under two keys. -/
def knownAnswers : Aes := fun key mode block =>
  let answer : List UInt8 :=
    if key = zeroKey then
      [0x66, 0xe9, 0x4b, 0xd4, 0xef, 0x8a, 0x2c, 0x3b, 0x88, 0x4c, 0xfa, 0x59, 0xca, 0x34, 0x2b, 0x2e]
    else
      [0xc6, 0xa1, 0x3b, 0x37, 0x87, 0x8f, 0x5b, 0x82, 0x6f, 0x4f, 0x81, 0x62, 0xa1, 0xc8, 0xd8, 0x79]
  if mode = .ENCODE ∧ (key = zeroKey ∨ key = countingKey) ∧ ∀ i, block i = 0 then fun i => answer.getD i 0
  else block

def resetRegs : AesRegs :=
  { key := fun _ => 0, ctrl := 0, config := 0, block := fun _ => 0, result := fun _ => 0 }

/-- The second context sets its key before the first one encrypts. -/
def twoContexts : List AesCall :=
  [.init 1 true, .setkeyEnc 1 (Mem.ofList zeroKey) 128, .setkeyEnc 2 (Mem.ofList countingKey) 128,
    .cryptEcb 1 1 (fun _ => 0) (fun _ => 0)]

/-- The first context gets its block under the key of the second. -/
theorem isolation_fails :
    ¬∀ out ∈ (Machine.run (Users.step knownAnswers)
        (some (Users.start { mutex := false, regs := resetRegs })) twoContexts).2,
      ∀ c ∈ out, c.Right knownAnswers := by
  intro right
  have met := (outputs_iff knownAnswers _ twoContexts).mp right
  obtain ⟨key, last, own, found, same⟩ := met.2.2.2.1 rfl
  obtain rfl : zeroKey = key := Option.some.inj own
  obtain rfl : countingKey = last := Option.some.inj found
  have first := congrFun same 0
  revert first
  decide

end Bk7251.Security
