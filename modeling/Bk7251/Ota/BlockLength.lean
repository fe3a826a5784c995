import Bk7251.Lib.Machine
import Bk7251.Ota.StoreBlock
import Bk7251.Ota.TftpClient
import Bk7251.Http.LastBlock

/-!
# The lengths that reach `store_block`

`store_block` trusts its length: it subtracts the packet header and, for the last block, the checksum,
and reads the block back into 1024 bytes. The length comes from a datagram, from a full block of a
download, or from what is left at the end of one.
-/
namespace Bk7251.Ota

open Lib Http

/-- The block ends the image, as far as its head tells. -/
def IsLast (src : List UInt8) : Prop :=
  (SendPtkHd.load (Mem.ofList src)).seq = (SendPtkHd.load (Mem.ofList src)).totalSeq

instance (src : List UInt8) : Decidable (IsLast src) := inferInstanceAs (Decidable (_ = _))

/-- A length that `store_block` can work with. -/
structure LengthSafe (src : List UInt8) (len : Nat) : Prop where
  head : TFTP_PKT_HD_LEN ≤ len
  crc : IsLast src → TFTP_PKT_HD_LEN + TFTP_ALL_CRC_LEN ≤ len
  fits : len - TFTP_PKT_HD_LEN ≤ 1024

theorem load_congr {m m' : Mem UInt8} (same : ∀ i < TFTP_PKT_HD_LEN, m i = m' i) :
    SendPtkHd.load m = SendPtkHd.load m' := by
  rw [TFTP_PKT_HD_LEN] at same
  simp only [SendPtkHd.load, Mem.load32, Mem.load16, same, Nat.reduceAdd, Nat.reduceLT]

/-- The head lies in the first bytes. -/
theorem isLast_append {src : List UInt8} (long : TFTP_PKT_HD_LEN ≤ src.length) (rest : List UInt8) :
    IsLast (src ++ rest) ↔ IsLast src := by
  have same : SendPtkHd.load (Mem.ofList (src ++ rest)) = SendPtkHd.load (Mem.ofList src) := by
    apply load_congr
    intro i low
    rw [Mem.ofList, Mem.ofList, List.getD_eq_getElem?_getD, List.getD_eq_getElem?_getD,
      List.getElem?_append_left (Nat.lt_of_lt_of_le low long)]
  rw [IsLast, IsLast, same]

/-! ### Datagrams -/

/-- A DATA datagram with a block of a fitting length. -/
def DatagramFits (bytes : List UInt8) : Prop :=
  28 ≤ bytes.length ∧ (bytes.take TFTP_LEN).length ≤ 1052 ∧
    (IsLast ((bytes.take TFTP_LEN).drop 4) → 32 ≤ bytes.length)

/-- If the datagram is stored, it fits. -/
def EventFits (s : Tftp) : Event → Prop
  | .datagram bytes port =>
    4 ≤ bytes.length → be16 bytes 0 = 3 → s.Takes (be16 bytes 2) port → DatagramFits bytes
  | .timeout => True

private theorem not_sent (bootFile : String) (s : Tftp) (block len : Nat) (src : List UInt8) :
    Effect.storeBlock block src len ≠ tftpSend bootFile s := by
  rw [tftpSend]
  split <;> (intro same; cases same)

private theorem mem_tftpAccept (bootFile : String) (s : Tftp) (len : Nat) (block count : Nat)
    (src : List UInt8) :
    .storeBlock block src count ∈ (tftpAccept bootFile s len).2 ↔
      block = blockArg s.tftpBlock ∧ src = s.tftpBuf.drop 4 ∧ count = len := by
  simp only [tftpAccept, List.mem_cons, List.not_mem_nil, not_sent, or_false, Effect.storeBlock.injEq]

/-- What a DATA datagram hands to `store_block`. -/
theorem mem_tftpData (bootFile : String) (s : Tftp) (len port : Nat) (alive : s.running = true)
    (peer : s.tftpState = .RRQ ∨ port = s.tftpServerPort) (block count : Nat) (src : List UInt8) :
    .storeBlock block src count ∈ (tftpData bootFile s len port).2 ↔
      s.Takes (be16 s.tftpBuf 2) port ∧
        block = blockArg (be16 s.tftpBuf 2) ∧ src = s.tftpBuf.drop 4 ∧ count = len := by
  have counted : (tftpCount s).tftpBlock = be16 s.tftpBuf 2 ∧ (tftpCount s).tftpState = s.tftpState ∧
      (tftpCount s).tftpLastBlock = s.tftpLastBlock ∧ (tftpCount s).tftpBuf = s.tftpBuf := by
    simp only [tftpCount]
    split <;> exact ⟨rfl, rfl, rfl, rfl⟩
  obtain ⟨number, state, last, buf⟩ := counted
  simp only [tftpData, Tftp.Takes, alive, peer, state, true_and]
  by_cases first : s.tftpState = .RRQ ∨ s.tftpState = .OACK
  · simp only [first, if_true, tftpFirst, number, true_and]
    by_cases one : be16 s.tftpBuf 2 = 1
    · simp [one, mem_tftpAccept, buf]
    · simp [one]
  · simp only [first, if_false, false_and, number, last]
    by_cases again : be16 s.tftpBuf 2 = s.tftpLastBlock
    · simp [again, not_sent]
    · simp [again, mem_tftpAccept, number, buf]

/-- What an event hands to `store_block`: the block of a DATA datagram that is taken. -/
theorem mem_tftpStep (bootFile : String) (s : Tftp) (bytes : List UInt8) (port : Nat)
    (block count : Nat) (src : List UInt8) :
    .storeBlock block src count ∈ (tftpStep bootFile s (.datagram bytes port)).2 ↔
      (4 ≤ bytes.length ∧ be16 bytes 0 = 3 ∧ s.Takes (be16 bytes 2) port) ∧
        block = blockArg (be16 bytes 2) ∧ src = (recvfrom s bytes).tftpBuf.drop 4 ∧
        count = min bytes.length TFTP_LEN - 4 := by
  by_cases data : 4 ≤ bytes.length ∧ be16 bytes 0 = 3
  · obtain ⟨long, opcode⟩ := data
    have opcode' : be16 (recvfrom s bytes).tftpBuf 0 = 3 := by
      rw [be16_recvfrom s bytes (Nat.zero_le 2) (by omega), opcode]
    have number : be16 (recvfrom s bytes).tftpBuf 2 = be16 bytes 2 :=
      be16_recvfrom s bytes (Nat.le_refl 2) long
    have size : ¬ min bytes.length TFTP_LEN < 2 ∧ ¬ min bytes.length TFTP_LEN - 2 < 2 := by
      rw [TFTP_LEN]
      omega
    simp only [long, opcode, true_and, tftpStep]
    by_cases alive : s.running = true
    · rw [if_pos alive]
      simp only [tftpHandler, opcode', size.1, size.2, if_false]
      split
      next stranger =>
        -- from a port other than the one the transfer runs with
        refine iff_of_false (List.not_mem_nil) fun taken => ?_
        rcases taken.1.2.1 with request | peer
        · exact stranger.1 request
        · exact stranger.2 peer
      next known =>
        have peer : s.tftpState = .RRQ ∨ port = s.tftpServerPort := by
          by_cases request : s.tftpState = .RRQ
          · exact .inl request
          · exact .inr (Decidable.byContradiction fun other => known ⟨request, other⟩)
        rw [mem_tftpData bootFile (recvfrom s bytes) _ port alive peer, number]
        rfl
    · rw [if_neg alive]
      exact iff_of_false (List.not_mem_nil) fun taken => alive taken.1.1
  · refine iff_of_false (fun member => ?_) fun taken => data ⟨taken.1.1, taken.1.2.1⟩
    have none := stored_tftpStep_other bootFile s bytes port (by
      rw [← Nat.not_le]
      exact Decidable.not_and_iff_or_not.mp data)
    have stored : (block, src.take count) ∈
        (tftpStep bootFile s (.datagram bytes port)).2.filterMap Effect.stored :=
      List.mem_filterMap.mpr ⟨_, member, rfl⟩
    rw [none] at stored
    cases stored

/-- The lengths of one event. -/
theorem event_lengths (bootFile : String) (s : Tftp) (event : Event) :
    (∀ block src len, .storeBlock block src len ∈ (tftpStep bootFile s event).2 → LengthSafe src len) ↔
      EventFits s event := by
  cases event with
  | timeout =>
    refine iff_of_true (fun block src len member => ?_) trivial
    have stored : (block, src.take len) ∈ (tftpTimeout bootFile s).2.filterMap Effect.stored := by
      rw [tftpStep] at member
      split at member
      · exact List.mem_filterMap.mpr ⟨_, member, rfl⟩
      · cases member
    rw [stored_tftpTimeout] at stored
    cases stored
  | datagram bytes port =>
    simp only [mem_tftpStep, EventFits]
    -- the block is the datagram without its first four bytes, cut off at the end of the buffer
    have safe : 4 ≤ bytes.length → (LengthSafe ((recvfrom s bytes).tftpBuf.drop 4)
        (min bytes.length TFTP_LEN - 4) ↔ DatagramFits bytes) := by
      intro long
      have whole : (recvfrom s bytes).tftpBuf.drop 4 =
          (bytes.take TFTP_LEN).drop 4 ++ s.tftpBuf.drop bytes.length := by
        rw [recvfrom, List.drop_append_of_le_length (by rw [List.length_take, TFTP_LEN]; omega)]
      rw [whole, DatagramFits, List.length_take]
      constructor
      · rintro ⟨head, crc, fits⟩
        rw [TFTP_LEN, TFTP_PKT_HD_LEN] at *
        refine ⟨by omega, by omega, fun last => ?_⟩
        have enough := crc ((isLast_append (by simp [TFTP_PKT_HD_LEN]; omega) _).mpr last)
        rw [TFTP_ALL_CRC_LEN] at enough
        omega
      · rintro ⟨head, fits, crc⟩
        refine ⟨?_, fun last => ?_, ?_⟩
        · rw [TFTP_PKT_HD_LEN, TFTP_LEN]
          omega
        · have enough := crc ((isLast_append (by simp [TFTP_PKT_HD_LEN, TFTP_LEN]; omega) _).mp last)
          rw [TFTP_PKT_HD_LEN, TFTP_ALL_CRC_LEN, TFTP_LEN]
          omega
        · rw [TFTP_PKT_HD_LEN]
          omega
    constructor
    · intro lengths long opcode takes
      exact (safe long).mp (lengths _ _ _ ⟨⟨long, opcode, takes⟩, rfl, rfl, rfl⟩)
    · rintro fits block src len ⟨⟨long, opcode, takes⟩, -, rfl, rfl⟩
      exact (safe long).mpr (fits long opcode takes)

/-! ### Downloads -/

/-- What is left at the end of a download: the call that ends it has written the last filling of the
response buffer, and that many of its bytes do not fill a block. -/
def lastBytes (body : List UInt8) (responseBufLen : UInt32) : List UInt8 :=
  body.drop (body.length - body.length % (responseBufLen - 1).toNat % HTTP_FLASH_WR_BUF_MAX true)

/-- The rest of the body is a block of a fitting length. A chunked response hands on no rest. -/
def EndFits (r : Response) (responseBufLen : UInt32) : Prop :=
  match r with
  | .contentLength body =>
    TFTP_PKT_HD_LEN ≤ (lastBytes body responseBufLen).length ∧
      (IsLast (lastBytes body responseBufLen) →
        TFTP_PKT_HD_LEN + TFTP_ALL_CRC_LEN ≤ (lastBytes body responseBufLen).length)
  | .chunked .. => True

/-- A length that an `int` can hold. -/
def LengthKnown : Response → Prop
  | .contentLength body => body.length < 2 ^ 31
  | .chunked .. => True

/-- A full block holds a head and 1024 bytes. -/
theorem lengthSafe_full {b : Block} (full : b.src.length = HTTP_FLASH_WR_BUF_MAX true) :
    LengthSafe b.src b.src.length := by
  rw [full]
  exact ⟨by decide, fun _ => by decide, by decide⟩

theorem lengthSafe_last {body : List UInt8} {responseBufLen : UInt32} {blocks : List Block}
    {rest : List UInt8} (suffix : rest <:+ body)
    (length : rest.length = body.length % (responseBufLen - 1).toNat) (ends : EndsWith true blocks rest) :
    (∀ b ∈ blocks, LengthSafe b.src b.src.length) ↔ EndFits (.contentLength body) responseBufLen := by
  obtain ⟨full, last, rfl, blocked, inside, size⟩ := ends
  have bytes : last.src = lastBytes body responseBufLen := by
    rw [List.suffix_iff_eq_drop.mp (inside.trans suffix), size, length, lastBytes]
  have short : last.src.length < HTTP_FLASH_WR_BUF_MAX true := by
    rw [size]
    exact Nat.mod_lt _ (by decide)
  constructor
  · intro safe
    have safe' := safe last (by simp)
    rw [bytes] at safe'
    exact ⟨safe'.head, safe'.crc⟩
  · rintro ⟨head, crc⟩ b member
    rcases List.mem_append.mp member with earlier | this
    · exact lengthSafe_full (blocked b earlier)
    · rw [List.mem_singleton.mp this, bytes]
      refine ⟨head, crc, ?_⟩
      rw [bytes, show HTTP_FLASH_WR_BUF_MAX true = 1048 from rfl] at short
      rw [TFTP_PKT_HD_LEN]
      omega

theorem download_lengths {r : Response} {responseBufLen : UInt32} {d d' : Download} {data : List UInt8}
    {len : Nat} (start : Start r responseBufLen d data len) (known : LengthKnown r) (fuel : Nat) {ret : Ret}
    (run : download true fuel d data len = some (ret, d')) :
    (ret = .success →
        ((∀ b ∈ d'.http.blocks, LengthSafe b.src b.src.length) ↔ EndFits r responseBufLen)) ∧
      (ret ≠ .success → ∀ b ∈ d'.http.blocks, LengthSafe b.src b.src.length) := by
  cases r with
  | contentLength body =>
    obtain ⟨success, failed⟩ := download_blocks start known fuel run
    refine ⟨fun same => ?_, fun other b member => lengthSafe_full (failed other b member)⟩
    obtain ⟨rest, suffix, length, ends⟩ := success same
    exact lengthSafe_last suffix length ends
  | chunked chunks last isLast trailer =>
    have full := ((start.full rfl).download fuel run).blocked.full
    have safe : ∀ b ∈ d'.http.blocks, LengthSafe b.src b.src.length :=
      fun b member => lengthSafe_full (full b member)
    exact ⟨fun _ => iff_of_true safe trivial, fun _ => safe⟩

/-- `store_block` gets lengths it can work with exactly when every datagram that is stored has one, and,
for a download that succeeds, when the rest of the body has one. -/
theorem block_lengths_iff (bootFile : String) :
    (∀ s events, (∀ effects ∈ (Machine.run (tftpStep bootFile) s events).2,
        ∀ block src len, .storeBlock block src len ∈ effects → LengthSafe src len) ↔
      Along (fun s event => (tftpStep bootFile s event).1) EventFits s events) ∧
    ∀ r responseBufLen d data len fuel ret d', Start r responseBufLen d data len → LengthKnown r →
      download true fuel d data len = some (ret, d') →
      (ret = .success →
          ((∀ b ∈ d'.http.blocks, LengthSafe b.src b.src.length) ↔ EndFits r responseBufLen)) ∧
        (ret ≠ .success → ∀ b ∈ d'.http.blocks, LengthSafe b.src b.src.length) := by
  constructor
  · intro s events
    exact Machine.run_outputs_iff (fun s event => event_lengths bootFile s event) s events
  · intro r responseBufLen d data len fuel ret d' start known run
    exact download_lengths start known fuel run

/-- Nine bytes are no block. -/
theorem block_lengths_nine :
    ∃ d', download true 3 nineBytes ([1, 2, 3] ++ List.replicate 253 0) 3 = some (.success, d') ∧
      ¬ ∀ b ∈ d'.http.blocks, LengthSafe b.src b.src.length := by
  have start : Start (.contentLength [1, 2, 3, 4, 5, 6, 7, 8, 9]) 100 nineBytes
      ([1, 2, 3] ++ List.replicate 253 0) 3 :=
    ⟨rfl, by decide +kernel, by decide, by decide +kernel, rfl, rfl, rfl⟩
  have ends : ((download true 3 nineBytes ([1, 2, 3] ++ List.replicate 253 0) 3).map Prod.fst) =
      some .success := by decide +kernel
  obtain ⟨⟨ret, d'⟩, run, rfl⟩ := Option.map_eq_some_iff.mp ends
  refine ⟨d', run, fun safe => ?_⟩
  have fits := (((block_lengths_iff "").2 _ _ _ _ _ _ _ _ start (by decide : _ < 2 ^ 31) run).1 rfl).mp safe
  exact absurd fits.1 (by decide)

/-- A client that has asked for its file. -/
def requested : Tftp := tftpStart ⟨0, 0, 0, 0, 0, 0, .DATA, 0, [], false⟩

/-- An empty first block, as of an empty file. -/
theorem block_lengths_fails :
    ¬ ∀ s events, ∀ effects ∈ (Machine.run (tftpStep "rwnx_fmac_crc.bin") s events).2,
      ∀ block src len, .storeBlock block src len ∈ effects → LengthSafe src len := by
  intro always
  have stored : .storeBlock 0 [] 0 ∈
      (tftpStep "rwnx_fmac_crc.bin" requested (.datagram [0, 3, 0, 1] 69)).2 :=
    (mem_tftpStep _ requested [0, 3, 0, 1] 69 0 0 []).mpr (by decide)
  have safe := always requested [.datagram [0, 3, 0, 1] 69] _ (List.mem_singleton.mpr rfl) 0 [] 0 stored
  exact absurd safe.head (by decide)

end Bk7251.Ota
