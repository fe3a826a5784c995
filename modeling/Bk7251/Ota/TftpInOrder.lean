import Mathlib.Data.List.Induction
import Bk7251.Ota.TftpClient

/-!
# In-order reception

Which blocks of the served file reach `store_block`, whatever the network loses, repeats or
reorders. The handler compares the number of a block for inequality with the one before it only,
and numbers have sixteen bits. So what is stored can be read off the datagrams: of the packets that
come from the server's port, each whose number is not the last one again.
-/
namespace Bk7251.Ota

/-- A served file, cut into blocks; block `k` here carries the number `k + 1`. -/
structure TftpFile where
  block : Nat → List UInt8
  fits : ∀ k, (block k).length + 4 ≤ TFTP_LEN

/-- What reaches the client: packets of the file in any order, other packets, timer callbacks. -/
inductive Arrival where
  | block (k port : Nat)
  | other (bytes : List UInt8) (port : Nat) (notData : bytes.length < 4 ∨ be16 bytes 0 ≠ 3)
  | timeout

/-- The number of block `k` in its packet, which has sixteen bits. -/
def wireNumber (k : Nat) : Nat := (k + 1) % TFTP_SEQUENCE_SIZE

def Arrival.event (file : TftpFile) : Arrival → Event
  | .block k port => .datagram (dataPacket (wireNumber k) (file.block k)) port
  | .other bytes port _ => .datagram bytes port
  | .timeout => .timeout

def Arrival.origin : Arrival → Option Nat
  | .block k _ => some k
  | _ => none

/-- A call of `store_block`, with the block of the file its datagram carried. -/
structure Call where
  origin : Option Nat
  block : Nat
  data : List UInt8

structure Reception where
  tftp : Tftp
  calls : List Call

/-- One event, with the calls of `store_block` it leads to. -/
def receive (bootFile : String) (file : TftpFile) (r : Reception) (a : Arrival) : Reception :=
  let (tftp, effects) := tftpStep bootFile r.tftp (a.event file)
  { tftp
    calls := r.calls ++
      (effects.filterMap Effect.stored).map fun call => ⟨a.origin, call.1, call.2⟩ }

/-- The calls whose data follow one another in flash: `store_block` sets `os_data_addr` back to the
image's start on block 0 and moves it on otherwise. -/
def received (calls : List Call) : List Call :=
  calls.foldl (fun stream call => if call.block = 0 then [call] else stream ++ [call]) []

/-- Blocks 1, 2, 3, … are appended, each once and in order, and what has been received is a prefix
of the file. -/
structure InOrder (file : TftpFile) (r : Reception) : Prop where
  appended : r.calls.map Call.origin = (List.range r.calls.length).map some
  stream : (received r.calls).map Call.origin = (List.range (received r.calls).length).map some
  content : (received r.calls).flatMap Call.data =
    (List.range (received r.calls).length).flatMap file.block

/-! ### What the datagrams say -/

inductive Packet where
  | oack
  | data (k : Nat)

/-- An option acknowledgement or a DATA packet, and the port it comes from. -/
def Arrival.packet : Arrival → Option (Packet × Nat)
  | .block k port => some (.data k, port)
  | .other bytes port _ => if 2 ≤ bytes.length ∧ be16 bytes 0 = 6 then some (.oack, port) else none
  | .timeout => none

/-- The packets from the port of the first one, which is `server` where it has come already. -/
def heard : Option Nat → List Arrival → List Packet
  | _, [] => []
  | server, a :: arrivals =>
    match a.packet with
    | some (packet, port) =>
      if server.getD port = port then packet :: heard (some port) arrivals else heard server arrivals
    | none => heard server arrivals

/-- A DATA packet that opens the transfer, at first or behind an option acknowledgement, is new if it
has number 1, and another one if it has not the number of the one before it. -/
def NewNumber (n : Nat) : Option Nat → Prop
  | none => n = 1
  | some last => n ≠ last

instance (n : Nat) (last : Option Nat) : Decidable (NewNumber n last) := by
  cases last <;> simp only [NewNumber] <;> infer_instance

/-- The number that the next one is compared with; 0 behind an opening packet that is not number 1. -/
def numberAfter (n : Nat) : Option Nat → Nat
  | none => if n = 1 then 1 else 0
  | some _ => n

/-- The blocks of the packets that are new. -/
def newBlocks : Option Nat → List Packet → List Nat
  | _, [] => []
  | _, .oack :: packets => newBlocks none packets
  | last, .data k :: packets =>
    (if NewNumber (wireNumber k) last then [k] else []) ++
      newBlocks (some (numberAfter (wireNumber k) last)) packets

/-- The first blocks of the file, and no more than there are numbers. -/
def Sequential (ks : List Nat) : Prop := ks = List.range ks.length ∧ ks.length ≤ TFTP_SEQUENCE_SIZE

instance (ks : List Nat) : Decidable (Sequential ks) := by
  unfold Sequential
  infer_instance

/-- What arrives while the receiving thread runs, which ends with a block shorter than was agreed. -/
def reading (bootFile : String) (file : TftpFile) : Tftp → List Arrival → List Arrival
  | _, [] => []
  | s, a :: arrivals =>
    if s.running then a :: reading bootFile file (tftpStep bootFile s (a.event file)).1 arrivals else []

/-! ### Sequences of block indices -/

/-- `received` on the indices: those divisible by 65536 have number 1 again. -/
def restarted (ks : List Nat) : List Nat :=
  ks.foldl (fun stream k => if k % TFTP_SEQUENCE_SIZE = 0 then [k] else stream ++ [k]) []

private theorem restarted_push (ks : List Nat) (k : Nat) :
    restarted (ks ++ [k]) =
      if k % TFTP_SEQUENCE_SIZE = 0 then [k] else restarted ks ++ [k] := by
  simp [restarted]

def Counting (ks : List Nat) : Prop := ks = List.range ks.length

private theorem counting_push (ks : List Nat) (k : Nat) :
    Counting (ks ++ [k]) ↔ Counting ks ∧ k = ks.length := by
  simp only [Counting, List.length_append, List.length_singleton, List.range_succ]
  constructor
  · intro same
    obtain ⟨rest, last⟩ := List.append_inj' same rfl
    exact ⟨rest, List.head_eq_of_cons_eq last⟩
  · rintro ⟨rest, rfl⟩
    rw [← rest]

private theorem counting_singleton (k : Nat) : Counting [k] ↔ k = 0 := by
  simp [Counting]

/-- Within the first 65536 blocks nothing restarts. -/
private theorem restarted_range (n : Nat) (bound : n ≤ TFTP_SEQUENCE_SIZE) :
    restarted (List.range n) = List.range n := by
  induction n with
  | zero => rfl
  | succ n ih =>
    rw [List.range_succ, restarted_push, ih (by omega)]
    split
    next wrapped =>
      have zero : n = 0 := by rwa [Nat.mod_eq_of_lt (by omega)] at wrapped
      simp [zero]
    · rfl

def BothCounting (ks : List Nat) : Prop := Counting ks ∧ Counting (restarted ks)

/-- Block 65537 has number 1 and starts the image over, so no longer sequence counts. -/
private theorem length_of_bothCounting (ks : List Nat) (both : BothCounting ks) :
    ks.length ≤ TFTP_SEQUENCE_SIZE := by
  induction ks using List.reverseRecOn with
  | nil => simp
  | append_singleton ks k ih =>
    obtain ⟨whole, stream⟩ := both
    rw [counting_push] at whole
    rw [restarted_push] at stream
    rw [List.length_append, List.length_singleton, ← whole.2]
    split at stream
    next wrapped =>
      -- a restarted stream that counts starts at 0, so `k` is the very first block
      rw [counting_singleton] at stream
      rw [stream, TFTP_SEQUENCE_SIZE]
      omega
    next inside =>
      -- `k` counts on, and the one after the last number would restart
      have low := ih ⟨whole.1, ((counting_push _ _).mp stream).1⟩
      have differs : k ≠ TFTP_SEQUENCE_SIZE := fun same => inside (by rw [same, Nat.mod_self])
      omega

private theorem bothCounting_iff (ks : List Nat) : BothCounting ks ↔ Sequential ks := by
  constructor
  · intro both
    exact ⟨both.1, length_of_bothCounting ks both⟩
  · rintro ⟨whole, bound⟩
    refine ⟨whole, ?_⟩
    rw [whole, restarted_range _ bound, Counting, List.length_range]

/-- What is in order was so before. -/
private theorem Sequential.part {ks part : List Nat} (before : part <+: ks) (whole : Sequential ks) :
    Sequential part := by
  have short := before.length_le
  refine ⟨?_, Nat.le_trans short whole.2⟩
  have cut := List.prefix_iff_eq_take.mp before
  rw [whole.1, List.take_range, Nat.min_eq_left short] at cut
  exact cut

/-! ### Calls -/

/-- The call a packet of block `k` leads to. -/
def TftpFile.call (file : TftpFile) (k : Nat) : Call :=
  ⟨some k, blockArg (wireNumber k), file.block k⟩

private theorem wireNumber_lt (k : Nat) : wireNumber k < TFTP_SEQUENCE_SIZE :=
  Nat.mod_lt _ (by decide)

private theorem call_block_eq_zero (file : TftpFile) (k : Nat) :
    (file.call k).block = 0 ↔ k % TFTP_SEQUENCE_SIZE = 0 := by
  rw [TftpFile.call, blockArg_eq_zero (wireNumber_lt k), wireNumber, TFTP_SEQUENCE_SIZE]
  omega

private theorem received_map (file : TftpFile) (ks : List Nat) :
    received (ks.map file.call) = (restarted ks).map file.call := by
  induction ks using List.reverseRecOn with
  | nil => rfl
  | append_singleton ks k ih =>
    rw [restarted_push, List.map_append, List.map_singleton, received, List.foldl_append,
      ← received, ih, List.foldl_cons, List.foldl_nil]
    simp only [call_block_eq_zero]
    split
    · rfl
    · rw [List.map_append, List.map_singleton]

private theorem origin_map (file : TftpFile) (ks : List Nat) :
    (ks.map file.call).map Call.origin = (List.range (ks.map file.call).length).map some ↔
      Counting ks := by
  rw [List.map_map, List.length_map, Counting]
  exact List.map_inj_right (f := some) (fun _ _ => Option.some_inj.mp)

private theorem inOrder_iff {file : TftpFile} {r : Reception} {ks : List Nat}
    (calls : r.calls = ks.map file.call) : InOrder file r ↔ BothCounting ks := by
  constructor
  · intro order
    have appended := order.appended
    have stream := order.stream
    rw [calls, origin_map] at appended
    rw [calls, received_map, origin_map] at stream
    exact ⟨appended, stream⟩
  · intro ⟨appended, stream⟩
    refine ⟨?_, ?_, ?_⟩
    · rw [calls, origin_map]
      exact appended
    · rw [calls, received_map, origin_map]
      exact stream
    · rw [calls, received_map, List.length_map, ← show restarted ks = _ from stream, List.flatMap_map]
      rfl

/-! ### The handler follows the datagrams -/

/-- What the client knows of the packets so far: the port, and the number that the next one is compared
with. -/
def Follows (s : Tftp) (server last : Option Nat) : Prop :=
  match server, last with
  | none, last => s.tftpState = .RRQ ∧ last = none
  | some port, none => s.tftpState = .OACK ∧ s.tftpServerPort = port
  | some port, some n => s.tftpState = .DATA ∧ s.tftpServerPort = port ∧ s.tftpLastBlock = n

/-- The handler's tests are those on the numbers and ports. -/
private theorem takes_iff {s : Tftp} {server last : Option Nat} (follows : Follows s server last)
    (n port : Nat) : s.Takes n port ↔ s.running = true ∧ server.getD port = port ∧ NewNumber n last := by
  cases server with
  | none =>
    obtain ⟨state, rfl⟩ := follows
    simp [Tftp.Takes, state, NewNumber]
  | some peer =>
    cases last with
    | none =>
      obtain ⟨state, rfl⟩ := follows
      simp [Tftp.Takes, state, NewNumber, eq_comm (a := port)]
    | some last =>
      obtain ⟨state, rfl, rfl⟩ := follows
      simp [Tftp.Takes, state, NewNumber, eq_comm (a := port)]

/-- Only the port, the state and the last number count. -/
private theorem follows_of_eq {s s' : Tftp} {server last : Option Nat} (follows : Follows s server last)
    (state : s'.tftpState = s.tftpState) (peer : s'.tftpServerPort = s.tftpServerPort)
    (number : s'.tftpLastBlock = s.tftpLastBlock) : Follows s' server last := by
  cases server with
  | none => exact ⟨state.trans follows.1, follows.2⟩
  | some port =>
    cases last with
    | none => exact ⟨state.trans follows.1, peer.trans follows.2⟩
    | some n => exact ⟨state.trans follows.1, peer.trans follows.2.1, number.trans follows.2.2⟩

/-- The packets from other ports. -/
private theorem stranger_iff {s : Tftp} {server last : Option Nat} (follows : Follows s server last)
    (port : Nat) : (s.tftpState ≠ .RRQ ∧ port ≠ s.tftpServerPort) ↔ server.getD port ≠ port := by
  cases server with
  | none => simp [follows.1]
  | some peer =>
    cases last with
    | none => simp [follows.1, follows.2, eq_comm (a := port)]
    | some n => simp [follows.1, follows.2.1, eq_comm (a := port)]

private theorem follows_tftpData (bootFile : String) {s : Tftp} {server last : Option Nat}
    (follows : Follows s server last) (len : Nat) {port : Nat} (known : server.getD port = port) :
    Follows (tftpData bootFile s len port).1 (some port) (some (numberAfter (be16 s.tftpBuf 2) last)) := by
  cases last with
  | none =>
    have first : s.tftpState = .RRQ ∨ s.tftpState = .OACK := by
      cases server with
      | none => exact .inl follows.1
      | some peer => exact .inr follows.1
    obtain ⟨state, peer, number⟩ := tftpData_first bootFile s len port first
    exact ⟨state, peer, number⟩
  | some n =>
    cases server with
    | none => exact absurd follows.2 (Option.some_ne_none n)
    | some peer =>
      obtain ⟨state, rfl, -⟩ := follows
      have later : ¬(s.tftpState = .RRQ ∨ s.tftpState = .OACK) := by simp [state]
      obtain ⟨state', peer', number⟩ := tftpData_later bootFile s len port later
      exact ⟨state'.trans state, peer'.trans known, number⟩

private theorem follows_block (bootFile : String) (file : TftpFile) {s : Tftp} {server last : Option Nat}
    (follows : Follows s server last) (alive : s.running = true) (k port : Nat) :
    let s' := (tftpStep bootFile s ((Arrival.block k port).event file)).1
    if server.getD port = port then Follows s' (some port) (some (numberAfter (wireNumber k) last))
    else Follows s' server last := by
  intro s'
  have kept : Follows (recvfrom s (dataPacket (wireNumber k) (file.block k))) server last :=
    follows_of_eq follows rfl rfl rfl
  obtain ⟨-, number, -⟩ := recvfrom_dataPacket s (wireNumber k) (file.block k) (wireNumber_lt k) (file.fits k)
  have step := tftpStep_data bootFile alive (wireNumber k) port (file.block k) (wireNumber_lt k) (file.fits k)
  simp only [stranger_iff follows] at step
  by_cases known : server.getD port = port
  · rw [if_neg (not_not_intro known)] at step
    have next := follows_tftpData bootFile kept (file.block k).length known
    rw [number] at next
    rw [if_pos known]
    change Follows (tftpStep bootFile s (.datagram (dataPacket (wireNumber k) (file.block k)) port)).1 _ _
    rw [step]
    exact next
  · rw [if_pos known] at step
    rw [if_neg known]
    change Follows (tftpStep bootFile s (.datagram (dataPacket (wireNumber k) (file.block k)) port)).1 _ _
    rw [step]
    exact kept

private theorem follows_tftpOack (bootFile : String) (s : Tftp) (len port : Nat) :
    Follows (tftpOack bootFile s len port).1 (some port) none := by
  simp only [tftpOack]
  split <;> exact ⟨rfl, rfl⟩

/-- Another datagram is an option acknowledgement from the port, or changes nothing. -/
private theorem follows_other (bootFile : String) (file : TftpFile) {s : Tftp} {server last : Option Nat}
    (follows : Follows s server last) (alive : s.running = true) (bytes : List UInt8) (port : Nat)
    (notData : bytes.length < 4 ∨ be16 bytes 0 ≠ 3) :
    let s' := (tftpStep bootFile s ((Arrival.other bytes port notData).event file)).1
    if (2 ≤ bytes.length ∧ be16 bytes 0 = 6) ∧ server.getD port = port then Follows s' (some port) none
    else Follows s' server last := by
  intro s'
  have kept : Follows (recvfrom s bytes) server last := follows_of_eq follows rfl rfl rfl
  change if _ then Follows (tftpStep bootFile s (.datagram bytes port)).1 _ _ else
    Follows (tftpStep bootFile s (.datagram bytes port)).1 _ _
  simp only [tftpStep, alive, if_true, tftpHandler]
  simp only [stranger_iff kept]
  by_cases known : server.getD port = port
  · rw [if_neg (not_not_intro known)]
    by_cases short : min bytes.length TFTP_LEN < 2
    · have brief : ¬2 ≤ bytes.length := by
        rw [TFTP_LEN] at short
        omega
      rw [if_pos short, if_neg fun all => brief all.1.1]
      exact kept
    · have long : 2 ≤ bytes.length := by omega
      have opcode := be16_recvfrom s bytes (Nat.zero_le 2) long
      rw [if_neg short, opcode]
      by_cases oack : be16 bytes 0 = 6
      · rw [if_pos ⟨⟨long, oack⟩, known⟩, oack]
        exact follows_tftpOack bootFile _ _ _
      · rw [if_neg fun all => oack all.1.2]
        split
        next same => exact absurd same oack
        next data =>
          have brief : min bytes.length TFTP_LEN - 2 < 2 := by
            rcases notData with short | differs
            · omega
            · exact absurd data differs
          rw [if_pos brief]
          exact kept
        next => exact kept
  · rw [if_pos known, if_neg fun all => known all.2]
    exact kept

private theorem follows_timeout (bootFile : String) {s : Tftp} {server last : Option Nat}
    (follows : Follows s server last) (alive : s.running = true) :
    Follows (tftpStep bootFile s .timeout).1 server last := by
  simp only [tftpStep, alive, if_true, tftpTimeout]
  split <;> exact follows_of_eq follows rfl rfl rfl

/-- What one event adds to the calls. -/
private theorem receive_calls (bootFile : String) (file : TftpFile) (r : Reception) (k port : Nat) :
    (receive bootFile file r (.block k port)).calls =
      if r.tftp.Takes (wireNumber k) port then r.calls ++ [file.call k] else r.calls := by
  have stored := stored_tftpStep_data bootFile r.tftp (wireNumber k) port (file.block k)
    (wireNumber_lt k) (file.fits k)
  simp only [receive, Arrival.event, stored]
  split
  · rfl
  · simp

private theorem receive_calls_other (bootFile : String) (file : TftpFile) (r : Reception)
    (a : Arrival) (other : a.origin = none) : (receive bootFile file r a).calls = r.calls := by
  have stored : (tftpStep bootFile r.tftp (a.event file)).2.filterMap Effect.stored = [] := by
    cases a with
    | block k port => exact absurd other (by simp [Arrival.origin])
    | other bytes port notData => exact stored_tftpStep_other bootFile r.tftp bytes port notData
    | timeout =>
      simp only [Arrival.event, tftpStep]
      split
      · exact stored_tftpTimeout bootFile r.tftp
      · rfl
  simp only [receive, stored, List.map_nil, List.append_nil]

private theorem calls_prefix (bootFile : String) (file : TftpFile) (r : Reception) (arrivals : List Arrival) :
    r.calls <+: (arrivals.foldl (receive bootFile file) r).calls := by
  induction arrivals generalizing r with
  | nil => exact List.prefix_refl _
  | cons a arrivals ih => exact (List.prefix_append _ _).trans (ih (receive bootFile file r a))

private theorem call_injective (file : TftpFile) : Function.Injective file.call := by
  intro k k' same
  exact Option.some.inj (congrArg Call.origin same)

/-- The calls of a run are the blocks of the packets that are new, from any moment on. -/
private theorem receive_calls_eq (bootFile : String) (file : TftpFile) {s : Tftp} {server last : Option Nat}
    (follows : Follows s server last) (calls : List Call) (arrivals : List Arrival) :
    (arrivals.foldl (receive bootFile file) ⟨s, calls⟩).calls =
      calls ++ (newBlocks last (heard server (reading bootFile file s arrivals))).map file.call := by
  induction arrivals generalizing s server last calls with
  | nil => simp [reading, heard, newBlocks]
  | cons a arrivals ih =>
    rw [List.foldl_cons]
    have next : receive bootFile file ⟨s, calls⟩ a =
        ⟨(tftpStep bootFile s (a.event file)).1, (receive bootFile file ⟨s, calls⟩ a).calls⟩ := rfl
    cases alive : s.running with
    | false =>
      have same : receive bootFile file ⟨s, calls⟩ a = ⟨s, calls⟩ := by
        simp [receive, tftpStep, alive]
      have rest : reading bootFile file s arrivals = [] := by
        cases arrivals with
        | nil => rfl
        | cons b arrivals => rw [reading, alive, if_neg Bool.false_ne_true]
      rw [same, ih follows calls, rest, reading, alive, if_neg Bool.false_ne_true]
    | true =>
      rw [reading, alive, if_pos rfl, heard, next]
      cases a with
      | block k port =>
        have step := follows_block bootFile file follows alive k port
        have taken := takes_iff follows (wireNumber k) port
        rw [receive_calls]
        simp only [Arrival.packet]
        by_cases known : server.getD port = port
        · rw [if_pos known] at step ⊢
          simp only [alive, known, true_and] at taken
          rw [ih step, newBlocks]
          simp only [taken]
          split
          · simp
          · simp
        · rw [if_neg known] at step ⊢
          simp only [known, false_and, and_false, iff_false] at taken
          rw [if_neg taken]
          exact ih step calls
      | other bytes port notData =>
        have step := follows_other bootFile file follows alive bytes port notData
        rw [receive_calls_other bootFile file _ _ rfl]
        simp only [Arrival.packet]
        by_cases oack : 2 ≤ bytes.length ∧ be16 bytes 0 = 6
        · simp only [if_pos oack]
          by_cases known : server.getD port = port
          · rw [if_pos ⟨oack, known⟩] at step
            rw [if_pos known, newBlocks]
            exact ih step calls
          · rw [if_neg fun all => known all.2] at step
            rw [if_neg known]
            exact ih step calls
        · simp only [if_neg oack]
          rw [if_neg fun all => oack all.1] at step
          exact ih step calls
      | timeout =>
        rw [receive_calls_other bootFile file _ _ rfl]
        exact ih (follows_timeout bootFile follows alive) calls

/-- The blocks stored are those of the new packets. -/
theorem stored_eq_newBlocks (bootFile : String) (file : TftpFile) (s : Tftp) (arrivals : List Arrival) :
    (arrivals.foldl (receive bootFile file) ⟨tftpStart s, []⟩).calls =
      (newBlocks none (heard none (reading bootFile file (tftpStart s) arrivals))).map file.call :=
  have start : Follows (tftpStart s) none none := ⟨rfl, rfl⟩
  receive_calls_eq bootFile file start [] arrivals

/-- The order is kept at every moment of a transfer exactly when the new ones of the packets from the
server's port, until the transfer ends, bring the blocks in order, and no more of them than there are
numbers. -/
theorem received_in_order_iff (bootFile : String) (file : TftpFile) (s : Tftp)
    (arrivals : List Arrival) :
    (∀ part, part <+: arrivals →
        InOrder file (part.foldl (receive bootFile file) ⟨tftpStart s, []⟩)) ↔
      Sequential (newBlocks none (heard none (reading bootFile file (tftpStart s) arrivals))) := by
  have order : ∀ part : List Arrival, InOrder file (part.foldl (receive bootFile file) ⟨tftpStart s, []⟩) ↔
      Sequential (newBlocks none (heard none (reading bootFile file (tftpStart s) part))) := fun part => by
    rw [inOrder_iff (stored_eq_newBlocks bootFile file s part), bothCounting_iff]
  constructor
  · intro always
    exact (order arrivals).mp (always arrivals (List.prefix_refl _))
  · rintro whole part ⟨rest, rfl⟩
    refine (order part).mpr (.part ?_ whole)
    -- the calls of the part are the first ones of the whole
    have first := stored_eq_newBlocks bootFile file s part
    have all := stored_eq_newBlocks bootFile file s (part ++ rest)
    have grown := calls_prefix bootFile file (part.foldl (receive bootFile file) ⟨tftpStart s, []⟩) rest
    rw [← List.foldl_append, first, all] at grown
    exact (List.prefix_map_iff_of_injective (call_injective file)).mp grown

/-- From one block to the next, or to the same again. -/
private theorem newBlocks_repeats {k : Nat} {ks : List Nat}
    (steps : List.IsChain (fun k k' => k' = k ∨ k' = k + 1) (k :: ks)) (bound : ∀ k' ∈ k :: ks, k' < TFTP_SEQUENCE_SIZE) :
    ∃ m, newBlocks (some (wireNumber k)) (ks.map .data) = List.range' (k + 1) m ∧
      k + 1 + m ≤ TFTP_SEQUENCE_SIZE := by
  induction ks generalizing k with
  | nil => exact ⟨0, rfl, bound k List.mem_cons_self⟩
  | cons k' ks ih =>
    obtain ⟨step, steps⟩ := List.isChain_cons_cons.mp steps
    obtain ⟨m, rest, low⟩ := ih steps fun k'' member => bound k'' (List.mem_cons_of_mem k member)
    have here := bound k List.mem_cons_self
    have there := bound k' (List.mem_cons_of_mem k List.mem_cons_self)
    rw [List.map_cons, newBlocks, numberAfter, rest]
    rcases step with rfl | rfl
    · exact ⟨m, by simp [NewNumber], low⟩
    · -- two blocks in a row have different numbers
      have differs : wireNumber (k + 1) ≠ wireNumber k := by
        rw [wireNumber, wireNumber, TFTP_SEQUENCE_SIZE]
        omega
      refine ⟨m + 1, ?_, by omega⟩
      rw [if_pos (show NewNumber _ (some _) from differs), List.range'_succ]
      rfl

/-- So a network that loses and repeats keeps the order, as long as no packet is overtaken: the server goes on
only when a block is acknowledged, and then each packet is the one before it again or the next block. -/
theorem sequential_of_repeats {ks : List Nat}
    (steps : List.IsChain (fun k k' => k' = k ∨ k' = k + 1) (0 :: ks))
    (bound : ∀ k ∈ ks, k < TFTP_SEQUENCE_SIZE) : Sequential (newBlocks none ((0 :: ks).map .data)) := by
  obtain ⟨m, rest, low⟩ := newBlocks_repeats steps fun k member => by
    rcases List.mem_cons.mp member with rfl | later
    · decide
    · exact bound k later
  have new : newBlocks none ((0 :: ks).map .data) = List.range (m + 1) := by
    rw [List.range_eq_range', List.range'_succ, ← rest]
    rfl
  rw [new, Sequential, List.length_range]
  exact ⟨rfl, by omega⟩

/-- A file of full-size blocks. -/
def sampleFile : TftpFile where
  block k := List.replicate TFTP_BLOCK_SIZE (UInt8.ofNat k)
  fits k := by
    rw [List.length_replicate]
    decide

/-- A client that has not run yet. -/
def idleTftp : Tftp where
  tftpServerPort := 0
  tftpTimeoutCount := 0
  tftpBlock := 0
  tftpLastBlock := 0
  tftpBlockWrap := 0
  tftpBlockWrapOffset := 0
  tftpState := .RRQ
  tftpBlkSize := TFTP_BLOCK_SIZE
  tftpBuf := []
  running := false

/-- Blocks 1 and 2 arrive, then a second copy of block 1: it starts the image over. -/
theorem received_in_order_fails :
    ¬ InOrder sampleFile ([.block 0 3000, .block 1 3000, .block 0 3000].foldl
        (receive "rwnx_fmac_crc.bin" sampleFile) ⟨tftpStart idleTftp, []⟩) := by
  rw [inOrder_iff (stored_eq_newBlocks _ _ _ _), bothCounting_iff]
  decide +kernel

end Bk7251.Ota
