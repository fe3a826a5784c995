import Bk7251.Lib.Machine
import Bk7251.Video.VideoTransfer

/-!
# What an element is filled with

The node length comes from the send type, and the header is put in front of a node when an element is
filled. An element has `TVIDEO_RXNODE_SIZE` bytes, and the next element comes right behind it.
-/
namespace Bk7251.Video

open Lib

/-- The callback keeps to the size of its header. -/
def HeaderFits (pool : TvideoPool) : Prop :=
  ∀ addPktHeader, pool.addPktHeader = some addPktHeader →
    ∀ param, (addPktHeader param).length ≤ pool.pktHeaderSize.toNat

/-- The step in which `tvideo_rx_handler` fills an element: header and payload stay in its node and its
neighbours are as before, the length to queue is that of both, and the payload is all there. -/
structure FillRight (setup : Setup) (s : Tvideo) (node : NodeFull) (elem : Nat) : Prop where
  inside : s.pool.pktHeaderSize.toNat + (hdrParam s node).ptklen.toNat ≤ TVIDEO_RXNODE_SIZE
  apart : HeaderFits s.pool → ∀ x, x < bufStart elem ∨ bufStart elem + TVIDEO_RXNODE_SIZE ≤ x →
    (stepRx s).pool.pool x = s.pool.pool x
  bufLen : ((stepRx s).pool.bufLen elem).toNat = setup.pktHeaderSize.toNat + (hdrParam s node).ptklen.toNat
  payload : (hdrParam s node).ptklen = node.newlen
  stored : (stepRx s).pool.pool.read (bufStart elem + s.pool.pktHeaderSize.toNat) node.newlen.toNat =
    node.curptr.read 0 node.newlen.toNat

/-- A condition on the steps that fill an element. -/
def AtFill (P : Tvideo → NodeFull → Nat → Prop) (s : Tvideo) (e : Event) : Prop :=
  match e, s.rx with
  | .rx, .fill node elem => P s node elem
  | _, _ => True

/-- A run: every element is filled right, and every packet queued has the length of header and payload. -/
structure NodesRight (setup : Setup) (events : List Event) : Prop where
  fills : Along step (AtFill (FillRight setup)) (start setup) events
  queued : ∀ packet ∈ (events.foldl step (start setup)).received,
    packet.bufLen.toNat = setup.pktHeaderSize.toNat + packet.param.ptklen.toNat

/-- The bytes of a call that finds a free element fit behind the header; where the node length does not
know the header, they fit the node length as well. -/
def CallFits (setup : Setup) (node : NodeFull) : Prop :=
  node.newlen.toNat + setup.pktHeaderSize.toNat ≤ TVIDEO_RXNODE_SIZE ∧
    (setup.sendType = TVIDEO_SND_UDP ∨ setup.sendType = TVIDEO_SND_INTF ∨
      node.newlen.toNat ≤ TVIDEO_RXNODE_SIZE_TCP.toNat)

/-! ### The lengths do not change -/

/-- The lengths as they were set up. -/
structure Configured (setup : Setup) (s : Tvideo) : Prop where
  header : s.pool.pktHeaderSize = setup.pktHeaderSize.toUInt16
  node : s.nodeLen = tvideoConfigDesc (tvideoPoolInit setup)

variable {setup : Setup} {s : Tvideo}

theorem configured_stepRx (configured : Configured setup s) : Configured setup (stepRx s) := by
  obtain ⟨header, node⟩ := configured
  cases at_rx : s.rx with
  | pick call =>
    simp only [stepRx, at_rx]
    split
    · exact ⟨header, node⟩
    · cases s.pool.free.head? <;> exact ⟨header, node⟩
  | _ =>
    simp only [stepRx, at_rx]
    exact ⟨header, node⟩

/-- What the video thread leaves alone. -/
theorem stepPoll_frame (s : Tvideo) (sendLen : UInt32) :
    (stepPoll s sendLen).pool.bufLen = s.pool.bufLen ∧ (stepPoll s sendLen).rx = s.rx ∧
      (stepPoll s sendLen).received = s.received ∧ (stepPoll s sendLen).nodeLen = s.nodeLen ∧
      (stepPoll s sendLen).pool.pktHeaderSize = s.pool.pktHeaderSize := by
  cases at_poll : s.poll with
  | pick =>
    simp only [stepPoll, at_poll]
    cases s.pool.ready.head? <;> exact ⟨rfl, rfl, rfl, rfl, rfl⟩
  | _ =>
    simp only [stepPoll, at_poll]
    exact ⟨trivial, trivial, trivial, trivial, trivial⟩

theorem configured_step (configured : Configured setup s) (e : Event) : Configured setup (step s e) := by
  cases e with
  | rx => exact configured_stepRx configured
  | poll sendLen =>
    obtain ⟨-, -, -, node, header⟩ := stepPoll_frame s sendLen
    exact ⟨header.trans configured.header, node.trans configured.node⟩
  | endFrame => exact ⟨configured.header, configured.node⟩
  | callRx call =>
    cases at_rx : s.rx with
    | idle =>
      simp only [step, at_rx]
      exact ⟨configured.header, configured.node⟩
    | _ =>
      simp only [step, at_rx]
      exact configured
  | callPoll =>
    cases at_poll : s.poll with
    | idle =>
      simp only [step, at_poll]
      exact ⟨configured.header, configured.node⟩
    | _ =>
      simp only [step, at_poll]
      exact configured

/-! ### One element -/

/-- The node length is what the header leaves, modulo 2^32, or does not know of it. -/
theorem toNat_configDesc (pool : TvideoPool) :
    (tvideoConfigDesc pool).toNat =
      if pool.sendType = TVIDEO_SND_UDP ∨ pool.sendType = TVIDEO_SND_INTF then
        (2 ^ 32 - pool.pktHeaderSize.toNat + TVIDEO_RXNODE_SIZE) % 2 ^ 32
      else TVIDEO_RXNODE_SIZE_TCP.toNat := by
  have left : (UInt32.ofNat TVIDEO_RXNODE_SIZE - pool.pktHeaderSize.toUInt32).toNat =
      (2 ^ 32 - pool.pktHeaderSize.toNat + TVIDEO_RXNODE_SIZE) % 2 ^ 32 := by
    rw [UInt32.toNat_sub, UInt16.toNat_toUInt32]
    rfl
  rw [tvideoConfigDesc]
  by_cases udp : pool.sendType = TVIDEO_SND_UDP
  · rw [if_pos udp, if_pos (.inl udp), left]
  · rw [if_neg udp]
    -- every type but these two has the constant, TCP or not
    by_cases intf : pool.sendType = TVIDEO_SND_INTF
    · have tcp : pool.sendType ≠ TVIDEO_SND_TCP := by
        rw [intf]
        decide
      rw [if_neg tcp, if_pos intf, if_pos (.inr intf), left]
    · rw [if_neg intf, ite_self, if_neg (not_or.mpr ⟨udp, intf⟩)]

/-- The bytes of a call are all there exactly when a node has room for them. -/
theorem len_eq_iff (node : NodeFull) (nodeLen : UInt32) :
    node.len nodeLen = node.newlen ↔ node.newlen.toNat ≤ nodeLen.toNat := by
  rw [NodeFull.len]
  split
  next more =>
    have longer := UInt32.lt_iff_toNat_lt.mp more
    constructor
    · intro same
      exact Nat.le_of_eq (congrArg UInt32.toNat same.symm)
    · intro few
      exact absurd longer (Nat.not_lt.mpr few)
  next fits => exact iff_of_true rfl (UInt32.le_iff_toNat_le.mp (UInt32.not_lt.mp fits))

/-- The lengths decide what an element is filled with. -/
theorem lengths_iff (configured : Configured setup s) (node : NodeFull) :
    s.pool.pktHeaderSize.toNat + (hdrParam s node).ptklen.toNat ≤ TVIDEO_RXNODE_SIZE ∧
      ((hdrParam s node).ptklen + s.pool.pktHeaderSize.toUInt32).toNat =
        setup.pktHeaderSize.toNat + (hdrParam s node).ptklen.toNat ∧
      (hdrParam s node).ptklen = node.newlen ↔ CallFits setup node := by
  have size : s.pool.pktHeaderSize.toNat = setup.pktHeaderSize.toNat % 65536 := by
    rw [configured.header, UInt32.toNat_toUInt16]
  have room : (tvideoConfigDesc (tvideoPoolInit setup)).toNat =
      if setup.sendType = TVIDEO_SND_UDP ∨ setup.sendType = TVIDEO_SND_INTF then
        (2 ^ 32 - setup.pktHeaderSize.toNat % 65536 + TVIDEO_RXNODE_SIZE) % 2 ^ 32
      else TVIDEO_RXNODE_SIZE_TCP.toNat := by
    rw [← UInt32.toNat_toUInt16]
    exact toNat_configDesc (tvideoPoolInit setup)
  have whole := len_eq_iff node (tvideoConfigDesc (tvideoPoolInit setup))
  have small := setup.pktHeaderSize.toNat_lt
  rw [CallFits, ← or_assoc, UInt32.toNat_add, UInt16.toNat_toUInt32, size]
  simp only [hdrParam, configured.node, whole]
  constructor
  · rintro ⟨inside, bufLen, fits⟩
    rw [whole.mpr fits] at inside bufLen
    rw [TVIDEO_RXNODE_SIZE] at inside ⊢
    refine ⟨by omega, ?_⟩
    -- a node length that knows the header asks for no more than the first bound
    by_cases known : setup.sendType = TVIDEO_SND_UDP ∨ setup.sendType = TVIDEO_SND_INTF
    · exact .inl known
    · rw [room, if_neg known] at fits
      exact .inr fits
  · rintro ⟨inside, known⟩
    have fits : node.newlen.toNat ≤ (tvideoConfigDesc (tvideoPoolInit setup)).toNat := by
      rw [room]
      split
      · rw [TVIDEO_RXNODE_SIZE] at inside ⊢
        omega
      next unknown => exact known.resolve_left unknown
    rw [whole.mpr fits]
    rw [TVIDEO_RXNODE_SIZE] at inside ⊢
    exact ⟨by omega, by omega, fits⟩

theorem stepRx_fill {node : NodeFull} {elem : Nat} (at_rx : s.rx = .fill node elem) :
    (stepRx s).pool = fillElem s.pool elem node (hdrParam s node) := by
  simp only [stepRx, at_rx]

/-- The bytes that the callback stores. -/
def headerOf (pool : TvideoPool) (param : HdrParam) : List UInt8 :=
  match pool.addPktHeader with
  | some addPktHeader => addPktHeader param
  | none => []

/-- What is outside the node stays. -/
theorem fillElem_apart {pool : TvideoPool} (header : HeaderFits pool) (node : NodeFull) (elem : Nat)
    {param : HdrParam} (inside : pool.pktHeaderSize.toNat + param.ptklen.toNat ≤ TVIDEO_RXNODE_SIZE) {x : Nat}
    (outside : x < bufStart elem ∨ bufStart elem + TVIDEO_RXNODE_SIZE ≤ x) :
    (fillElem pool elem node param).pool x = pool.pool x := by
  have short : (headerOf pool param).length ≤ pool.pktHeaderSize.toNat := by
    rw [headerOf]
    cases callback : pool.addPktHeader with
    | none => exact Nat.zero_le _
    | some addPktHeader => exact header addPktHeader callback param
  have payload := Mem.length_read node.curptr 0 param.ptklen.toNat
  -- the header first, and the payload behind the room for it
  have same : (fillElem pool elem node param).pool =
      (pool.pool.write (bufStart elem) (headerOf pool param)).write
        (bufStart elem + pool.pktHeaderSize.toNat) (node.curptr.read 0 param.ptklen.toNat) := rfl
  rw [same]
  rcases outside with below | above
  · rw [Mem.write_of_lt _ _ _ _ (by omega), Mem.write_of_lt _ _ _ _ below]
  · rw [Mem.write_of_ge _ _ _ _ (by omega), Mem.write_of_ge _ _ _ _ (by omega)]

theorem fillRight_iff (configured : Configured setup s) {node : NodeFull} {elem : Nat}
    (at_rx : s.rx = .fill node elem) : FillRight setup s node elem ↔ CallFits setup node := by
  have lengths := lengths_iff configured node
  have filled := stepRx_fill at_rx
  have bufLen : (stepRx s).pool.bufLen elem = (hdrParam s node).ptklen + s.pool.pktHeaderSize.toUInt32 := by
    rw [filled]
    exact Function.update_self _ _ _
  constructor
  · intro right
    have queued := right.bufLen
    rw [bufLen] at queued
    exact lengths.mp ⟨right.inside, queued, right.payload⟩
  · intro fits
    obtain ⟨inside, queued, payload⟩ := lengths.mpr fits
    constructor
    · exact inside
    · intro header x outside
      rw [filled]
      exact fillElem_apart header node elem inside outside
    · rw [bufLen]
      exact queued
    · exact payload
    · rw [filled, ← payload]
      have length := Mem.length_read node.curptr 0 (hdrParam s node).ptklen.toNat
      have stored := Mem.read_write_self (s.pool.pool.write (bufStart elem) (headerOf s.pool (hdrParam s node)))
        (bufStart elem + s.pool.pktHeaderSize.toNat) (node.curptr.read 0 (hdrParam s node).ptklen.toNat)
      rw [length] at stored
      exact stored

/-! ### The run -/

/-- The length that an element gets stays with it until it is queued. -/
structure Lengths (setup : Setup) (s : Tvideo) : Prop where
  moving : match s.rx with
    | .popFree elem param | .pushReady elem param =>
      (s.pool.bufLen elem).toNat = setup.pktHeaderSize.toNat + param.ptklen.toNat
    | _ => True
  queued : ∀ packet ∈ s.received, packet.bufLen.toNat = setup.pktHeaderSize.toNat + packet.param.ptklen.toNat

theorem lengths_stepRx (lengths : Lengths setup s) (fill : AtFill (FillRight setup) s .rx) :
    Lengths setup (stepRx s) := by
  obtain ⟨moving, queued⟩ := lengths
  cases at_rx : s.rx with
  | idle =>
    simp only [stepRx, at_rx]
    rw [at_rx] at moving
    exact ⟨by rw [at_rx]; trivial, queued⟩
  | pick node =>
    simp only [stepRx, at_rx]
    split
    · exact ⟨trivial, queued⟩
    · cases s.pool.free.head? <;> exact ⟨trivial, queued⟩
  | fill node elem =>
    simp only [AtFill, at_rx] at fill
    have bufLen := fill.bufLen
    simp only [stepRx, at_rx] at bufLen ⊢
    exact ⟨bufLen, queued⟩
  | popFree elem param =>
    rw [at_rx] at moving
    simp only [stepRx, at_rx]
    exact ⟨moving, queued⟩
  | pushReady elem param =>
    rw [at_rx] at moving
    simp only [stepRx, at_rx]
    constructor
    · trivial
    · intro packet member
      rcases List.mem_append.mp member with old | new
      · exact queued packet old
      · rw [List.mem_singleton.mp new]
        exact moving

theorem lengths_step (e : Event) (lengths : Lengths setup s) (fill : AtFill (FillRight setup) s e) :
    Lengths setup (step s e) := by
  cases e with
  | rx => exact lengths_stepRx lengths fill
  | poll sendLen =>
    obtain ⟨bufLen, rx, received, -, -⟩ := stepPoll_frame s sendLen
    constructor
    · rw [step, rx, bufLen]
      exact lengths.moving
    · rw [step, received]
      exact lengths.queued
  | endFrame => exact ⟨lengths.moving, lengths.queued⟩
  | callRx call =>
    cases at_rx : s.rx with
    | idle =>
      simp only [step, at_rx]
      exact ⟨trivial, lengths.queued⟩
    | _ =>
      simp only [step, at_rx]
      exact lengths
  | callPoll =>
    cases at_poll : s.poll with
    | idle =>
      simp only [step, at_poll]
      exact ⟨lengths.moving, lengths.queued⟩
    | _ =>
      simp only [step, at_poll]
      exact lengths

theorem atFill_iff (configured : Configured setup s) (e : Event) :
    AtFill (FillRight setup) s e ↔ AtFill (fun _ node _ => CallFits setup node) s e := by
  cases e with
  | rx =>
    cases at_rx : s.rx with
    | fill node elem =>
      simp only [AtFill, at_rx]
      exact fillRight_iff configured at_rx
    | _ => simp only [AtFill, at_rx]
  | _ => exact Iff.rfl

theorem start_configured (setup : Setup) : Configured setup (start setup) := ⟨rfl, rfl⟩

theorem start_lengths (setup : Setup) : Lengths setup (start setup) where
  moving := trivial
  queued _ member := absurd member List.not_mem_nil

/-- Whatever the setup, the calls, and the order in which the interrupt and the video thread take their
steps. -/
theorem nodes_right_iff (setup : Setup) (events : List Event) :
    NodesRight setup events ↔ Along step (AtFill fun _ node _ => CallFits setup node) (start setup) events := by
  have same : Along step (AtFill (FillRight setup)) (start setup) events ↔
      Along step (AtFill fun _ node _ => CallFits setup node) (start setup) events := by
    have all : ∀ e ∈ events, True := fun _ _ => trivial
    exact along_congr (fun _ e configured => atFill_iff configured e)
      (fun _ e configured _ _ => configured_step configured e) (start_configured setup) all
  constructor
  · intro right
    exact same.mp right.fills
  · intro fits
    -- the lengths are right from the fill of an element to its end in the queue
    have fills := same.mpr fits
    exact ⟨fills, (Along.invariant (fun s e => lengths_step e) (start_lengths setup) fills).queued⟩

/-- TCP, with a header of 16 bytes. -/
def tcpHeaderSetup : Setup := ⟨TVIDEO_SND_TCP, true, 16, some fun _ => List.replicate 16 0⟩

/-- A full node of ones, until its element is filled. -/
def fullNode : List Event := [.callRx ⟨fun _ => 1, 1460, 0, 0⟩, .rx, .rx]

/-- Four bytes of it go to the next element. -/
theorem tcp_overwrites_neighbour :
    (fullNode.foldl step (start tcpHeaderSetup)).pool.pool (bufStart 1 + 3) = 1 ∧
      ¬ NodesRight tcpHeaderSetup fullNode := by
  constructor
  · decide +kernel
  · intro right
    have fills := right.fills.2.2.1
    exact absurd fills.inside (by decide)

end Bk7251.Video
