import Mathlib.Algebra.Group.Nat.Defs
import Mathlib.Data.List.Basic
import Mathlib.Tactic.Common

/-!
# The TFTP client

`TftpHandler`, `TftpSend`, `TftpTimeout` and `TftpStart` of `app/tftp/tftpclient.c`. One event is
one datagram read into `tftp_buf` or one timer callback; what the client hands to `store_block`
and to the socket is its output.
-/
namespace Bk7251.Ota

def TFTP_LEN : Nat := 1600
def TFTP_BLOCK_SIZE : Nat := 512
def TFTP_SEQUENCE_SIZE : Nat := 65536
def TIMEOUT_COUNT : Nat := 10
def WELL_KNOWN_PORT : Nat := 69

inductive TftpState where
  | RRQ
  | DATA
  | TOO_LARGE
  | BAD_MAGIC
  | OACK
deriving DecidableEq

structure Tftp where
  tftpServerPort : Nat
  tftpTimeoutCount : Nat
  tftpBlock : Nat
  tftpLastBlock : Nat
  tftpBlockWrap : Nat
  tftpBlockWrapOffset : Nat
  tftpState : TftpState
  tftpBlkSize : Nat
  /-- The receive buffer: the bytes of the last datagram, then what older ones left. -/
  tftpBuf : List UInt8
  /-- Cleared by `Tftp_Uninit`, which deletes the receiving thread. -/
  running : Bool

inductive Effect where
  | send (pkt : List UInt8)
  | storeBlock (block : Nat) (src : List UInt8) (len : Nat)

/-- `ntohs` of the two bytes at `i`. -/
def be16 (p : List UInt8) (i : Nat) : Nat := (p.getD i 0).toNat * 256 + (p.getD (i + 1) 0).toNat

def htons (n : Nat) : List UInt8 := [UInt8.ofNat (n / 256), UInt8.ofNat n]

/-- A string literal as C stores it, its terminator included. -/
def cString (s : String) : List UInt8 := s.toList.map (fun c => UInt8.ofNat c.toNat) ++ [0]

/-- `strtoul(p, NULL, 10)` on a 32-bit target. -/
def osStrtoul (p : List UInt8) : Nat :=
  let p := p.dropWhile fun c => c = 32 ∨ (9 ≤ c ∧ c ≤ 13)
  let negative := p.head? = some 45
  let p := if p.head? = some 45 ∨ p.head? = some 43 then p.tail else p
  let digits := p.takeWhile fun c => 48 ≤ c ∧ c ≤ 57
  let value := digits.foldl (fun n c => 10 * n + (c.toNat - 48)) 0
  if 2 ^ 32 ≤ value then 2 ^ 32 - 1
  else if negative then (2 ^ 32 - value) % 2 ^ 32
  else value

/-- The packet `TftpSend` builds in the client's present state. -/
def tftpSend (bootFile : String) (s : Tftp) : Effect :=
  match s.tftpState with
  | .RRQ => .send (htons 1 ++ cString bootFile ++ cString "octet" ++ cString "timeout" ++ cString "5" ++
      cString "blksize" ++ cString "1048")
  | .OACK | .DATA => .send (htons 4 ++ htons s.tftpBlock)
  | .TOO_LARGE => .send (htons 5 ++ htons 3 ++ cString "File too large")
  | .BAD_MAGIC => .send (htons 5 ++ htons 2 ++ cString "File has bad magic")

def tftpUninit (s : Tftp) : Tftp := { s with tftpBuf := [], running := false }

/-- Where the option list after the opcode spells `blksize`; `len` counts its bytes. -/
def blksizeOption (pkt : List UInt8) (len : Nat) : Option Nat :=
  (List.range (len - 8)).find? fun i => (pkt.drop i).take 8 = cString "blksize"

/-- The `TFTP_OACK` case. It is taken in every state, also while data is arriving. -/
def tftpOack (bootFile : String) (s : Tftp) (len port : Nat) : Tftp × List Effect :=
  let pkt := s.tftpBuf.drop 2
  let s := { s with tftpState := .OACK, tftpServerPort := port }
  let s := match blksizeOption pkt len with
    | some i => { s with tftpBlkSize := osStrtoul (pkt.drop (i + 8)) % 2 ^ 16 }
    | none => s
  (s, [tftpSend bootFile s])

/-- The block number is read, and a zero taken for a wrap of the 16-bit counter. -/
def tftpCount (s : Tftp) : Tftp :=
  let s := { s with tftpBlock := be16 s.tftpBuf 2 }
  if s.tftpBlock = 0 then
    { s with
      tftpBlockWrap := (s.tftpBlockWrap + 1) % 2 ^ 64
      tftpBlockWrapOffset :=
        (s.tftpBlockWrapOffset + s.tftpBlkSize * TFTP_SEQUENCE_SIZE) % 2 ^ 64 }
  else s

/-- The first data packet after the request or an option acknowledgement. -/
def tftpFirst (s : Tftp) (port : Nat) : Tftp :=
  { s with
    tftpState := .DATA
    tftpServerPort := port
    tftpLastBlock := 0
    tftpBlockWrap := 0
    tftpBlockWrapOffset := 0 }

/-- `TftpBlock - 1`, computed on 64 bits, as the 32-bit `unsigned block` of `store_block`. -/
def blockArg (tftpBlock : Nat) : Nat := (tftpBlock + (2 ^ 64 - 1)) % 2 ^ 64 % 2 ^ 32

/-- The block is new: it is stored and acknowledged, and a short one ends the transfer. -/
def tftpAccept (bootFile : String) (s : Tftp) (len : Nat) : Tftp × List Effect :=
  let s := { s with tftpLastBlock := s.tftpBlock }
  let effects := [.storeBlock (blockArg s.tftpBlock) (s.tftpBuf.drop 4) len, tftpSend bootFile s]
  (if len < s.tftpBlkSize then tftpUninit s else s, effects)

/-- The `TFTP_DATA` case; `len` counts the bytes after the block number. -/
def tftpData (bootFile : String) (s : Tftp) (len port : Nat) : Tftp × List Effect :=
  let s := tftpCount s
  let first := s.tftpState = .RRQ ∨ s.tftpState = .OACK
  let s := if first then tftpFirst s port else s
  -- the state stays `STATE_DATA` when the first block is refused
  if first ∧ s.tftpBlock ≠ 1 then (s, [])
  else if s.tftpBlock = s.tftpLastBlock then (s, [tftpSend bootFile s])
  else tftpAccept bootFile s len

def tftpHandler (bootFile : String) (s : Tftp) (len port : Nat) : Tftp × List Effect :=
  if s.tftpState ≠ .RRQ ∧ port ≠ s.tftpServerPort then (s, [])
  else if len < 2 then (s, [])
  else match be16 s.tftpBuf 0 with
    | 6 => tftpOack bootFile s (len - 2) port
    | 3 => if len - 2 < 2 then (s, []) else tftpData bootFile s (len - 4) port
    | _ => (s, [])

def tftpTimeout (bootFile : String) (s : Tftp) : Tftp × List Effect :=
  let s := { s with tftpTimeoutCount := s.tftpTimeoutCount + 1 }
  if TIMEOUT_COUNT < s.tftpTimeoutCount then (s, []) else (s, [tftpSend bootFile s])

/-- `TftpStart` in a new receiving thread. The last block number of an earlier transfer stays. -/
def tftpStart (s : Tftp) : Tftp :=
  { s with
    tftpServerPort := WELL_KNOWN_PORT
    tftpTimeoutCount := 0
    tftpState := .RRQ
    tftpBlock := 0
    tftpBlkSize := TFTP_BLOCK_SIZE
    running := true }

inductive Event where
  | datagram (bytes : List UInt8) (port : Nat)
  | timeout

/-- `recvfrom` into `tftp_buf`: a longer datagram is cut off, a shorter one leaves the rest. -/
def recvfrom (s : Tftp) (bytes : List UInt8) : Tftp :=
  { s with tftpBuf := bytes.take TFTP_LEN ++ s.tftpBuf.drop bytes.length }

/-- One round of the receiving thread, or one call of the timer. -/
def tftpStep (bootFile : String) (s : Tftp) (event : Event) : Tftp × List Effect :=
  if s.running then
    match event with
    | .datagram bytes port =>
      tftpHandler bootFile (recvfrom s bytes) (min bytes.length TFTP_LEN) port
    | .timeout => tftpTimeout bootFile s
  else (s, [])

/-! ### What the handler takes as a new block -/

/-- The tests a DATA datagram with block number `n` from `port` has to pass to be stored. -/
def Tftp.Takes (s : Tftp) (n port : Nat) : Prop :=
  s.running = true ∧ (s.tftpState = .RRQ ∨ port = s.tftpServerPort) ∧
    if s.tftpState = .RRQ ∨ s.tftpState = .OACK then n = 1 else n ≠ s.tftpLastBlock

instance (s : Tftp) (n port : Nat) : Decidable (s.Takes n port) := by
  unfold Tftp.Takes
  infer_instance

def Effect.stored : Effect → Option (Nat × List UInt8)
  | .storeBlock block src len => some (block, src.take len)
  | .send _ => none

@[simp] theorem stored_tftpSend (bootFile : String) (s : Tftp) :
    (tftpSend bootFile s).stored = none := by
  simp only [tftpSend]
  split <;> rfl

@[simp] theorem stored_storeBlock (block len : Nat) (src : List UInt8) :
    (Effect.storeBlock block src len).stored = some (block, src.take len) := rfl

theorem stored_tftpAccept (bootFile : String) (s : Tftp) (len : Nat) :
    (tftpAccept bootFile s len).2.filterMap Effect.stored =
      [(blockArg s.tftpBlock, (s.tftpBuf.drop 4).take len)] := by
  simp [tftpAccept]

theorem be16_cons (a b : UInt8) (p : List UInt8) :
    be16 (a :: b :: p) 0 = a.toNat * 256 + b.toNat := rfl

@[simp] theorem be16_htons (n : Nat) (bound : n < TFTP_SEQUENCE_SIZE) (p : List UInt8) :
    be16 (htons n ++ p) 0 = n := by
  have bytes : be16 (htons n ++ p) 0 = (UInt8.ofNat (n / 256)).toNat * 256 + (UInt8.ofNat n).toNat :=
    be16_cons _ _ _
  rw [TFTP_SEQUENCE_SIZE] at bound
  rw [bytes, UInt8.toNat_ofNat', UInt8.toNat_ofNat']
  omega

theorem tftpCount_fields (s : Tftp) :
    (tftpCount s).tftpBlock = be16 s.tftpBuf 2 ∧ (tftpCount s).tftpState = s.tftpState ∧
      (tftpCount s).tftpServerPort = s.tftpServerPort ∧ (tftpCount s).tftpLastBlock = s.tftpLastBlock ∧
        (tftpCount s).tftpBuf = s.tftpBuf := by
  simp only [tftpCount]
  split <;> exact ⟨rfl, rfl, rfl, rfl, rfl⟩

theorem tftpAccept_fields (bootFile : String) (s : Tftp) (len : Nat) :
    (tftpAccept bootFile s len).1.tftpState = s.tftpState ∧
      (tftpAccept bootFile s len).1.tftpServerPort = s.tftpServerPort ∧
        (tftpAccept bootFile s len).1.tftpLastBlock = s.tftpBlock := by
  simp only [tftpAccept]
  split <;> exact ⟨rfl, rfl, rfl⟩

/-- An opening DATA datagram fixes the port, and its number counts only if it is 1. -/
theorem tftpData_first (bootFile : String) (s : Tftp) (len port : Nat)
    (first : s.tftpState = .RRQ ∨ s.tftpState = .OACK) :
    (tftpData bootFile s len port).1.tftpState = .DATA ∧
      (tftpData bootFile s len port).1.tftpServerPort = port ∧
        (tftpData bootFile s len port).1.tftpLastBlock = if be16 s.tftpBuf 2 = 1 then 1 else 0 := by
  obtain ⟨block, state, -, -, -⟩ := tftpCount_fields s
  simp only [tftpData, state, first, if_true, true_and, tftpFirst, block]
  by_cases one : be16 s.tftpBuf 2 = 1
  · obtain ⟨state', port', last'⟩ := tftpAccept_fields bootFile (tftpFirst (tftpCount s) port) len
    simp only [tftpFirst, block, one] at state' port' last'
    simp only [one, ne_eq, not_true_eq_false, if_false, Nat.one_ne_zero, if_true]
    exact ⟨state', port', last'⟩
  · simp [one]

/-- Another one leaves its number, whether it is stored or not. -/
theorem tftpData_later (bootFile : String) (s : Tftp) (len port : Nat)
    (later : ¬(s.tftpState = .RRQ ∨ s.tftpState = .OACK)) :
    (tftpData bootFile s len port).1.tftpState = s.tftpState ∧
      (tftpData bootFile s len port).1.tftpServerPort = s.tftpServerPort ∧
        (tftpData bootFile s len port).1.tftpLastBlock = be16 s.tftpBuf 2 := by
  obtain ⟨block, state, peer, last, -⟩ := tftpCount_fields s
  simp only [tftpData, state, later, if_false, false_and]
  split
  next again =>
    rw [block] at again
    exact ⟨state, peer, again.symm⟩
  next =>
    obtain ⟨state', port', last'⟩ := tftpAccept_fields bootFile (tftpCount s) len
    exact ⟨state'.trans state, port'.trans peer, last'.trans block⟩

/-- A DATA datagram is handed to `store_block` exactly when it passes these tests. -/
theorem stored_tftpData (bootFile : String) (s : Tftp) (len port : Nat)
    (alive : s.running = true) (peer : s.tftpState = .RRQ ∨ port = s.tftpServerPort) :
    (tftpData bootFile s len port).2.filterMap Effect.stored =
      if s.Takes (be16 s.tftpBuf 2) port then
        [(blockArg (be16 s.tftpBuf 2), (s.tftpBuf.drop 4).take len)]
      else [] := by
  obtain ⟨block, state, -, last, buf⟩ := tftpCount_fields s
  simp only [tftpData, Tftp.Takes, alive, peer, state, true_and]
  by_cases first : s.tftpState = .RRQ ∨ s.tftpState = .OACK
  · -- the last block number has just been cleared, so block 1 is not taken for a repetition
    simp only [first, if_true, tftpFirst, block, true_and]
    by_cases one : be16 s.tftpBuf 2 = 1
    · simp [one, stored_tftpAccept, buf]
    · simp [one]
  · simp only [first, if_false, false_and, block, last]
    by_cases again : be16 s.tftpBuf 2 = s.tftpLastBlock
    · simp [again]
    · simp [again, stored_tftpAccept, block, buf]

theorem blockArg_eq_zero {n : Nat} (bound : n < TFTP_SEQUENCE_SIZE) : blockArg n = 0 ↔ n = 1 := by
  rw [TFTP_SEQUENCE_SIZE] at bound
  rw [blockArg]
  omega

/-- No other datagram is stored. -/
theorem stored_tftpHandler_other (bootFile : String) (s : Tftp) (len port : Nat)
    (other : len < 4 ∨ be16 s.tftpBuf 0 ≠ 3) :
    (tftpHandler bootFile s len port).2.filterMap Effect.stored = [] := by
  simp only [tftpHandler]
  split
  · rfl
  · split
    · rfl
    · split
      · simp [tftpOack]
      next opcode =>
        have short : len - 2 < 2 := by
          rcases other with short | differs
          · omega
          · exact absurd opcode differs
        simp [short]
      · rfl

theorem stored_tftpTimeout (bootFile : String) (s : Tftp) :
    (tftpTimeout bootFile s).2.filterMap Effect.stored = [] := by
  simp only [tftpTimeout]
  split <;> simp

/-- The DATA packet with block number `n`. -/
def dataPacket (n : Nat) (payload : List UInt8) : List UInt8 := htons 3 ++ htons n ++ payload

@[simp] theorem length_dataPacket (n : Nat) (payload : List UInt8) :
    (dataPacket n payload).length = payload.length + 4 := by
  simp only [dataPacket, htons, List.length_append, List.length_cons, List.length_nil]
  omega

/-- A DATA packet in the receive buffer: its opcode, its number and its payload. -/
theorem recvfrom_dataPacket (s : Tftp) (n : Nat) (payload : List UInt8) (bound : n < TFTP_SEQUENCE_SIZE)
    (fits : payload.length + 4 ≤ TFTP_LEN) :
    be16 (recvfrom s (dataPacket n payload)).tftpBuf 0 = 3 ∧
      be16 (recvfrom s (dataPacket n payload)).tftpBuf 2 = n ∧
        ((recvfrom s (dataPacket n payload)).tftpBuf.drop 4).take payload.length = payload := by
  have whole : (recvfrom s (dataPacket n payload)).tftpBuf =
      htons 3 ++ (htons n ++ (payload ++ s.tftpBuf.drop (payload.length + 4))) := by
    simp only [recvfrom, length_dataPacket]
    rw [List.take_of_length_le (by simpa using fits), dataPacket]
    simp only [List.append_assoc]
  rw [whole]
  refine ⟨be16_htons 3 (by decide) _, ?_, ?_⟩
  · exact be16_htons n bound (payload ++ s.tftpBuf.drop (payload.length + 4))
  · exact List.take_left

/-- A DATA packet gets to its case unless it comes from a port other than the one the transfer runs with. -/
theorem tftpStep_data (bootFile : String) {s : Tftp} (alive : s.running = true) (n port : Nat)
    (payload : List UInt8) (bound : n < TFTP_SEQUENCE_SIZE) (fits : payload.length + 4 ≤ TFTP_LEN) :
    tftpStep bootFile s (.datagram (dataPacket n payload) port) =
      if s.tftpState ≠ .RRQ ∧ port ≠ s.tftpServerPort then (recvfrom s (dataPacket n payload), [])
      else tftpData bootFile (recvfrom s (dataPacket n payload)) payload.length port := by
  obtain ⟨opcode, -, -⟩ := recvfrom_dataPacket s n payload bound fits
  have size : min (dataPacket n payload).length TFTP_LEN = payload.length + 4 := by
    rw [length_dataPacket]
    omega
  -- the head is there, so neither length test drops the packet
  have long : ¬ payload.length + 4 < 2 ∧ ¬ payload.length + 4 - 2 < 2 := by omega
  simp only [tftpStep, alive, if_true, size, tftpHandler, opcode, long.1, long.2, if_false,
    Nat.add_sub_cancel]
  rfl

theorem stored_tftpStep_data (bootFile : String) (s : Tftp) (n port : Nat) (payload : List UInt8)
    (bound : n < TFTP_SEQUENCE_SIZE) (fits : payload.length + 4 ≤ TFTP_LEN) :
    (tftpStep bootFile s (.datagram (dataPacket n payload) port)).2.filterMap Effect.stored =
      if s.Takes n port then [(blockArg n, payload)] else [] := by
  obtain ⟨-, number, content⟩ := recvfrom_dataPacket s n payload bound fits
  cases alive : s.running with
  | false => simp [tftpStep, Tftp.Takes, alive]
  | true =>
    rw [tftpStep_data bootFile alive n port payload bound fits]
    split
    next stranger =>
      have refused : ¬ s.Takes n port := fun takes => by
        rcases takes.2.1 with request | peer
        · exact stranger.1 request
        · exact stranger.2 peer
      simp [refused]
    next known =>
      have peer : s.tftpState = .RRQ ∨ port = s.tftpServerPort := by
        by_cases request : s.tftpState = .RRQ
        · exact .inl request
        · exact .inr (Decidable.byContradiction fun other => known ⟨request, other⟩)
      have stored := stored_tftpData bootFile (recvfrom s (dataPacket n payload)) payload.length port
        alive peer
      rwa [number, content] at stored

theorem be16_recvfrom (s : Tftp) (bytes : List UInt8) {i : Nat} (low : i ≤ 2)
    (long : i + 2 ≤ bytes.length) : be16 (recvfrom s bytes).tftpBuf i = be16 bytes i := by
  have byte : ∀ k < i + 2, (recvfrom s bytes).tftpBuf.getD k 0 = bytes.getD k 0 := by
    intro k below
    have inside : k < (bytes.take TFTP_LEN).length := by
      rw [List.length_take, TFTP_LEN]
      omega
    rw [recvfrom, List.getD_eq_getElem?_getD, List.getElem?_append_left inside,
      List.getElem?_take_of_lt (by rw [TFTP_LEN]; omega), List.getD_eq_getElem?_getD]
  rw [be16, byte i (by omega), byte (i + 1) (by omega), be16]

/-- Only DATA packets are stored. -/
theorem stored_tftpStep_other (bootFile : String) (s : Tftp) (bytes : List UInt8) (port : Nat)
    (other : bytes.length < 4 ∨ be16 bytes 0 ≠ 3) :
    (tftpStep bootFile s (.datagram bytes port)).2.filterMap Effect.stored = [] := by
  simp only [tftpStep]
  split
  · apply stored_tftpHandler_other
    by_cases short : bytes.length < 4
    · exact .inl (by omega)
    · rw [be16_recvfrom s bytes (Nat.zero_le 2) (by omega)]
      exact .inr (other.resolve_left short)
  · rfl

end Bk7251.Ota
