import Bk7251.Lib.Bytes
import Bk7251.Lib.Walk

/-!
# The items of a scan command

`cmd_conversion_802_11_scan` of `func/sdio_intf/sdio_intf.c` without `CFG_REAL_SDIO`. The command of the host
announces its size and carries typed items, each with its length in front.
-/
namespace Bk7251.SdioIntf

open Lib

def TLV_TYPE_SSID : UInt16 := 0x0000
def TLV_TYPE_CHANLIST : UInt16 := 0x0101

def SCAN_SSID_MAX : Nat := 2
def SCAN_CHANNEL_MAX : Nat := 42
def MAC_SSID_LEN : Nat := 32

def WIFI_2_4_G_BAND : UInt8 := 0
def WIFI_2_4_G_CHANNEL_NUM : Nat := 14

def freq24G : List UInt16 :=
  [2412, 2417, 2422, 2427, 2432, 2437, 2442, 2447, 2452, 2457, 2462, 2467, 2472, 2484]

/-- `sizeof(MRVL_IE_HDR_S)` -/
def sizeofIeHdr : Nat := 4

/-- The offset of `tlvbuffer` in the command. -/
def tlvbuffer : Nat := 15

structure MacSsid where
  length : UInt8
  array : Fin MAC_SSID_LEN → UInt8

structure ScanChan where
  freq : UInt16
  band : UInt8
  flags : UInt8

structure ScanStartReq where
  chan : Fin SCAN_CHANNEL_MAX → ScanChan
  ssid : Fin SCAN_SSID_MAX → MacSsid
  bssid : List UInt8
  addIes : UInt32
  addIeLen : UInt16
  chanCnt : UInt8
  ssidCnt : UInt8

def ScanStartReq.zero : ScanStartReq where
  chan _ := ⟨0, 0, 0⟩
  ssid _ := ⟨0, fun _ => 0⟩
  bssid := List.replicate 6 0
  addIes := 0
  addIeLen := 0
  chanCnt := 0
  ssidCnt := 0

section

variable (m : Mem UInt8)

/-- The size that the command announces, in its header. -/
def announced : UInt16 := Mem.load16 m 2

def ieType (pos : Nat) : UInt16 := Mem.load16 m (tlvbuffer + pos)

def ieLen (pos : Nat) : UInt16 := Mem.load16 m (tlvbuffer + pos + 2)

end

/-- The loop, with the items it has handled, the ranges of the command it has read, and whether it has stored
anything outside of the arrays of the request. -/
structure ScanWalk where
  mrvlIe : Nat
  ieTotalLen : UInt32
  ssidId : UInt32
  channelId : UInt32
  req : ScanStartReq
  handled : List Nat
  reads : List (Nat × Nat)
  outside : Bool

namespace ScanWalk

def start (m : Mem UInt8) : ScanWalk :=
  ⟨0, (announced m).toUInt32 - UInt32.ofNat tlvbuffer, 0, 0, .zero, [], [(2, 2)], false⟩

variable (m : Mem UInt8) (w : ScanWalk)

/-- The case `TLV_TYPE_SSID`. -/
def takeSsid : ScanWalk :=
  let len := ieLen m w.mrvlIe
  let entry (old : MacSsid) : MacSsid :=
    { length := len.toUInt8
      array := fun j => if j < len.toNat then m (tlvbuffer + w.mrvlIe + sizeofIeHdr + j) else old.array j }
  { w with
    req := { w.req with
      ssid := fun i => if i = w.ssidId.toNat then entry (w.req.ssid i) else w.req.ssid i
      ssidCnt := (w.ssidId + 1).toUInt8 }
    ssidId := w.ssidId + 1
    reads := w.reads ++ [(tlvbuffer + w.mrvlIe + sizeofIeHdr, len.toNat)]
    outside := w.outside || decide (SCAN_SSID_MAX ≤ w.ssidId.toNat) || decide (MAC_SSID_LEN < len.toNat) }

def storeChan (i : Nat) : ScanWalk :=
  { w with
    req := { w.req with
      chan := fun k => if k = i then ⟨freq24G.getD i 0, WIFI_2_4_G_BAND, 0⟩ else w.req.chan k }
    channelId := w.channelId + 1
    outside := w.outside || decide (SCAN_CHANNEL_MAX ≤ i) }

/-- The case `TLV_TYPE_CHANLIST`: all channels, whatever the list says. -/
def takeChans : ScanWalk :=
  let w := (List.range WIFI_2_4_G_CHANNEL_NUM).foldl storeChan w
  { w with req := { w.req with chanCnt := w.channelId.toUInt8 } }

/-- One turn of the loop. The pointer to the next item is computed from the front of the buffer. -/
def item : ScanWalk :=
  let len := ieLen m w.mrvlIe
  let type := ieType m w.mrvlIe
  let w := { w with
    ieTotalLen := w.ieTotalLen - (len.toUInt32 + UInt32.ofNat sizeofIeHdr)
    handled := w.handled ++ [w.mrvlIe]
    reads := w.reads ++ [(tlvbuffer + w.mrvlIe, sizeofIeHdr)] }
  let w :=
    if type = TLV_TYPE_SSID then w.takeSsid m
    else if type = TLV_TYPE_CHANLIST then w.takeChans
    else w
  { w with mrvlIe := len.toNat + sizeofIeHdr }

def turn : Option ScanWalk := if w.ieTotalLen = 0 then none else some (w.item m)

/-- The stores behind the loop. -/
def finish : ScanWalk :=
  { w with
    req := { w.req with
      bssid := List.replicate 6 0xff
      ssidCnt := 1
      ssid := fun i => if i.val = 0 then { w.req.ssid i with length := 0 } else w.req.ssid i
      addIes := 0
      addIeLen := 0 } }

end ScanWalk

/-- `cmd_conversion_802_11_scan`, if the loop ends within the fuel. -/
def cmdConversion80211Scan (fuel : Nat) (m : Mem UInt8) : Option ScanWalk :=
  (walk (ScanWalk.turn m) fuel (.start m)).map ScanWalk.finish

/-! ### The items that fit -/

def itemSize (m : Mem UInt8) (pos : Nat) : Nat := (ieLen m pos).toNat + sizeofIeHdr

/-- The items one behind the other from `pos` on that fit the bytes left. -/
def itemsFrom (m : Mem UInt8) (pos left : Nat) : List Nat :=
  if itemSize m pos ≤ left then pos :: itemsFrom m (pos + itemSize m pos) (left - itemSize m pos) else []
termination_by left
decreasing_by simp only [itemSize, sizeofIeHdr] at *; omega

def items (m : Mem UInt8) : List Nat := itemsFrom m 0 ((announced m).toNat - tlvbuffer)

/-- The loop has ended with the items that fit handled in order, each once, and has neither read beyond the
announced size nor stored outside of the arrays. -/
structure Handles (m : Mem UInt8) (w : ScanWalk) : Prop where
  once : w.handled = items m
  reads : ∀ r ∈ w.reads, r.1 + r.2 ≤ (announced m).toNat
  inside : w.outside = false

/-- At most two items make up the announced size, and no name is too long. -/
structure MadeOfTwo (m : Mem UInt8) : Prop where
  header : tlvbuffer ≤ (announced m).toNat
  two : (items m).length ≤ 2
  whole : tlvbuffer + ((items m).map (itemSize m)).sum = (announced m).toNat
  short : ∀ pos ∈ items m, ieType m pos = TLV_TYPE_SSID → (ieLen m pos).toNat ≤ MAC_SSID_LEN

section

variable (m : Mem UInt8) (w : ScanWalk)

/-- What the channels leave alone. -/
private theorem foldl_storeChan (is : List Nat) (inside : ∀ i ∈ is, i < SCAN_CHANNEL_MAX) :
    (is.foldl ScanWalk.storeChan w).ieTotalLen = w.ieTotalLen ∧
      (is.foldl ScanWalk.storeChan w).ssidId = w.ssidId ∧
      (is.foldl ScanWalk.storeChan w).handled = w.handled ∧
      (is.foldl ScanWalk.storeChan w).reads = w.reads ∧
      (is.foldl ScanWalk.storeChan w).outside = w.outside := by
  -- by induction on the channels; each of them is stored inside of the list
  induction is generalizing w with
  | nil => exact ⟨rfl, rfl, rfl, rfl, rfl⟩
  | cons i is ih =>
    have here : ¬ SCAN_CHANNEL_MAX ≤ i := Nat.not_le.mpr (inside i (by simp))
    obtain ⟨total, ssids, handled, reads, outside⟩ :=
      ih (w.storeChan i) fun j member => inside j (List.mem_cons_of_mem _ member)
    refine ⟨total, ssids, handled, reads, outside.trans ?_⟩
    simp [ScanWalk.storeChan, here]

/-- What one turn does to the loop. -/
structure Turned (v : ScanWalk) : Prop where
  mrvlIe : v.mrvlIe = itemSize m w.mrvlIe
  ieTotalLen : v.ieTotalLen = w.ieTotalLen - UInt32.ofNat (itemSize m w.mrvlIe)
  handled : v.handled = w.handled ++ [w.mrvlIe]
  reads : v.reads = w.reads ++ (tlvbuffer + w.mrvlIe, sizeofIeHdr) ::
    if ieType m w.mrvlIe = TLV_TYPE_SSID then
      [(tlvbuffer + w.mrvlIe + sizeofIeHdr, (ieLen m w.mrvlIe).toNat)] else []
  ssidId : v.ssidId = if ieType m w.mrvlIe = TLV_TYPE_SSID then w.ssidId + 1 else w.ssidId
  outside : v.outside = (w.outside || decide (ieType m w.mrvlIe = TLV_TYPE_SSID ∧
    (SCAN_SSID_MAX ≤ w.ssidId.toNat ∨ MAC_SSID_LEN < (ieLen m w.mrvlIe).toNat)))

private theorem ieLen_toUInt32 (pos : Nat) :
    (ieLen m pos).toUInt32 + UInt32.ofNat sizeofIeHdr = UInt32.ofNat (itemSize m pos) := by
  rw [itemSize, UInt32.ofNat_add]
  congr 1
  rw [← UInt32.toNat_inj]
  have small := (ieLen m pos).toNat_lt
  simp

theorem item_turned : Turned m w (w.item m) := by
  have len := ieLen_toUInt32 m w.mrvlIe
  -- of the three kinds of items only a name reads more than its header
  by_cases ssid : ieType m w.mrvlIe = TLV_TYPE_SSID
  · constructor
    all_goals simp only [ScanWalk.item, ScanWalk.takeSsid, ssid, len, itemSize, if_true, true_and]
    · rw [List.append_assoc, List.singleton_append]
    · rw [Bool.or_assoc, Bool.decide_or]
  · by_cases chans : ieType m w.mrvlIe = TLV_TYPE_CHANLIST
    · have other : TLV_TYPE_CHANLIST ≠ TLV_TYPE_SSID := by decide
      have stored := fun w => foldl_storeChan w (List.range WIFI_2_4_G_CHANNEL_NUM) (by decide)
      constructor
      all_goals simp only [ScanWalk.item, ScanWalk.takeChans, chans, other, len, itemSize, stored, if_true,
        if_false, false_and, decide_false, Bool.or_false]
    · constructor
      all_goals simp only [ScanWalk.item, ssid, chans, len, itemSize, if_false, false_and, decide_false,
        Bool.or_false]

end

variable {m : Mem UInt8} {w r : ScanWalk}

private theorem turn_done (done : w.ieTotalLen = 0) : w.turn m = none := if_pos done

private theorem turn_more (more : w.ieTotalLen ≠ 0) : w.turn m = some (w.item m) := if_neg more

private theorem leads_iff : Leads (ScanWalk.turn m) w r ↔ w.ieTotalLen ≠ 0 ∧ r = w.item m := by
  by_cases done : w.ieTotalLen = 0
  · simp [Leads, turn_done done, done]
  · simp [Leads, turn_more done, done, eq_comm]

/-- The loop ends with this. -/
def Ends (m : Mem UInt8) (w r : ScanWalk) : Prop := ∃ fuel, walk (ScanWalk.turn m) fuel w = some r

private theorem ends_done (done : w.ieTotalLen = 0) : Ends m w r ↔ r = w := by
  constructor
  · rintro ⟨fuel, ends⟩
    exact walk_unique ends .refl (turn_done done)
  · rintro rfl
    exact exists_walk .refl (turn_done done)

private theorem ends_more (more : w.ieTotalLen ≠ 0) : Ends m w r ↔ Ends m (w.item m) r := by
  constructor
  · rintro ⟨fuel, ends⟩
    obtain ⟨reached, last⟩ := walk_reaches ends
    -- the walk does not end here, so its first step is this item
    rcases reached.cases_head with rfl | ⟨v, step, later⟩
    · rw [turn_more more] at last
      cases last
    · obtain rfl := (leads_iff.mp step).2
      exact exists_walk later last
  · rintro ⟨fuel, ends⟩
    obtain ⟨reached, last⟩ := walk_reaches ends
    exact exists_walk (.head (turn_more more) reached) last

/-- What was handled and read stays so. -/
private theorem grows_of_reached (reached : Relation.ReflTransGen (Leads (ScanWalk.turn m)) w r) :
    w.handled <+: r.handled ∧ w.reads <+: r.reads := by
  induction reached with
  | refl => exact ⟨List.prefix_rfl, List.prefix_rfl⟩
  | @tail v _ _ step ih =>
    obtain rfl := (leads_iff.mp step).2
    have turned := item_turned m v
    rw [turned.handled, turned.reads]
    exact ⟨ih.1.trans (List.prefix_append _ _), ih.2.trans (List.prefix_append _ _)⟩

private theorem Ends.grows (ends : Ends m w r) : w.handled <+: r.handled ∧ w.reads <+: r.reads := by
  obtain ⟨fuel, ends⟩ := ends
  exact grows_of_reached (walk_reaches ends).1

private theorem itemSize_small (m : Mem UInt8) (pos : Nat) : itemSize m pos < 2 ^ 32 := by
  have := (ieLen m pos).toNat_lt
  simp only [itemSize, sizeofIeHdr]
  omega

private theorem itemSize_pos (m : Mem UInt8) (pos : Nat) : 0 < itemSize m pos := Nat.succ_pos _

private theorem toNat_itemSize (m : Mem UInt8) (pos : Nat) :
    (UInt32.ofNat (itemSize m pos)).toNat = itemSize m pos :=
  UInt32.toNat_ofNat_of_lt' (itemSize_small m pos)

/-- The loop ends after an item that takes up what is left. -/
private theorem total_eq_zero_iff {total : UInt32} {pos : Nat} :
    total - UInt32.ofNat (itemSize m pos) = 0 ↔ itemSize m pos = total.toNat := by
  constructor
  · intro zero
    have whole := UInt32.sub_add_cancel total (UInt32.ofNat (itemSize m pos))
    rw [zero, UInt32.zero_add] at whole
    rw [← whole, toNat_itemSize]
  · intro same
    have whole : total = UInt32.ofNat (itemSize m pos) := by rw [← UInt32.toNat_inj, toNat_itemSize, same]
    rw [whole, UInt32.sub_self]

private theorem toNat_total {total : UInt32} {pos : Nat} (fits : itemSize m pos ≤ total.toNat) :
    (total - UInt32.ofNat (itemSize m pos)).toNat = total.toNat - itemSize m pos := by
  rw [toNat_sub _ _ (by rwa [toNat_itemSize]), toNat_itemSize]

private theorem itemsFrom_of_fits {pos left : Nat} (fits : itemSize m pos ≤ left) :
    itemsFrom m pos left = pos :: itemsFrom m (pos + itemSize m pos) (left - itemSize m pos) := by
  rw [itemsFrom, if_pos fits]

private theorem itemsFrom_of_not {pos left : Nat} (fits : ¬ itemSize m pos ≤ left) :
    itemsFrom m pos left = [] := by
  rw [itemsFrom, if_neg fits]

private theorem itemsFrom_zero (pos : Nat) : itemsFrom m pos 0 = [] :=
  itemsFrom_of_not (Nat.not_le.mpr (itemSize_pos m pos))

/-- A name that fits its array. -/
def ShortName (m : Mem UInt8) (pos : Nat) : Prop :=
  ieType m pos = TLV_TYPE_SSID → (ieLen m pos).toNat ≤ MAC_SSID_LEN

private theorem turned_inside (inside : w.ssidId.toNat < SCAN_SSID_MAX) :
    (w.item m).outside = false ↔ w.outside = false ∧ ShortName m w.mrvlIe := by
  have room : ¬ SCAN_SSID_MAX ≤ w.ssidId.toNat := Nat.not_le.mpr inside
  simp only [(item_turned m w).outside, room, false_or, Bool.or_eq_false_iff, decide_eq_false_iff_not, not_and,
    Nat.not_lt, ShortName]

private theorem turned_reads {size : Nat} (before : ∀ x ∈ w.reads, x.1 + x.2 ≤ size)
    (fits : tlvbuffer + w.mrvlIe + itemSize m w.mrvlIe ≤ size) :
    ∀ x ∈ (w.item m).reads, x.1 + x.2 ≤ size := by
  rw [itemSize] at fits
  intro x member
  rw [(item_turned m w).reads, List.mem_append, List.mem_cons] at member
  -- a read from before, the header of this item or its name
  rcases member with old | rfl | name
  · exact before x old
  · dsimp only
    omega
  · split at name
    next =>
      rw [List.mem_singleton.mp name]
      dsimp only
      omega
    next => cases name

private theorem start_total (header : tlvbuffer ≤ (announced m).toNat) :
    (ScanWalk.start m).ieTotalLen.toNat = (announced m).toNat - tlvbuffer := by
  have small : (UInt32.ofNat tlvbuffer).toNat = tlvbuffer := rfl
  rw [ScanWalk.start, toNat_sub _ _ (by rwa [small, UInt16.toNat_toUInt32]), small, UInt16.toNat_toUInt32]

private theorem start_short (short : (announced m).toNat < tlvbuffer) : (ScanWalk.start m).ieTotalLen ≠ 0 := by
  intro zero
  have whole := UInt32.sub_add_cancel (announced m).toUInt32 (UInt32.ofNat tlvbuffer)
  rw [show (announced m).toUInt32 - UInt32.ofNat tlvbuffer = 0 from zero, UInt32.zero_add] at whole
  have same := congrArg UInt32.toNat whole
  rw [UInt16.toNat_toUInt32] at same
  exact absurd same (Nat.ne_of_gt short)

/-- The items up to here make up the size: what the loop gets right, once it ends. -/
private theorem handles_iff_madeOfTwo {size : Nat} (total : (announced m).toNat = tlvbuffer + size)
    {ends : ScanWalk} (only : ∀ r, Ends m (.start m) r ↔ r = ends) (once : ends.handled = items m)
    (two : (items m).length ≤ 2) (whole : ((items m).map (itemSize m)).sum = size)
    (reads : ∀ x ∈ ends.reads, x.1 + x.2 ≤ (announced m).toNat)
    (inside : ends.outside = false ↔ ∀ pos ∈ items m, ShortName m pos) :
    (∃ r, Ends m (.start m) r ∧ Handles m r) ↔ MadeOfTwo m := by
  constructor
  · rintro ⟨r, ended, handles⟩
    obtain rfl := (only r).mp ended
    exact ⟨by omega, two, by omega, inside.mp handles.inside⟩
  · intro made
    exact ⟨ends, (only ends).mpr rfl, once, reads, inside.mpr made.short⟩

/-- What the loop has handled when it ends are the items that fit, in a correct run. -/
private theorem handled_prefix (ends : Ends m w r) (handles : Handles m r) : w.handled <+: items m := by
  rw [← handles.once]
  exact ends.grows.1

private theorem madeOfTwo_sum {n : Nat} (size : (announced m).toNat = tlvbuffer + n) (made : MadeOfTwo m) :
    ((items m).map (itemSize m)).sum = n := by
  have := made.whole
  omega

/-- Behind a first item that leaves something there is a second one and nothing else, or the loop goes on from
a wrong place. -/
private theorem ended_iff_of_second {n : Nat} (size : (announced m).toNat = tlvbuffer + n)
    (first : itemSize m 0 < n) {v : ScanWalk} (here : v.mrvlIe = itemSize m 0) (handled : v.handled = [0])
    (total : v.ieTotalLen.toNat = n - itemSize m 0) (reads : ∀ x ∈ v.reads, x.1 + x.2 ≤ (announced m).toNat)
    (ssids : v.ssidId.toNat < SCAN_SSID_MAX) (inside : v.outside = false ↔ ShortName m 0)
    (same : ∀ r, Ends m (.start m) r ↔ Ends m v r) :
    (∃ r, Ends m (.start m) r ∧ Handles m r) ↔ MadeOfTwo m := by
  have fitting : items m = 0 :: itemsFrom m (itemSize m 0) (n - itemSize m 0) := by
    rw [items, size, Nat.add_sub_cancel_left, itemsFrom_of_fits (Nat.le_of_lt first), Nat.zero_add]
  have second := item_turned m v
  have more : v.ieTotalLen ≠ 0 := by
    intro zero
    rw [zero] at total
    exact absurd total (by simp; omega)
  have pair : (v.item m).handled = [0, itemSize m 0] := by rw [second.handled, handled, here]; rfl
  by_cases fits : itemSize m (itemSize m 0) ≤ n - itemSize m 0
  -- the second item does not fit, and is handled all the same
  swap
  · rw [itemsFrom_of_not fits] at fitting
    refine iff_of_false ?_ fun made => ?_
    · rintro ⟨r, ends, handles⟩
      have known := handled_prefix ((ends_more more).mp ((same r).mp ends)) handles
      simp [pair, fitting] at known
    · have sum := madeOfTwo_sum size made
      simp only [fitting, List.map_cons, List.map_nil, List.sum_cons, List.sum_nil] at sum
      omega
  rw [itemsFrom_of_fits fits] at fitting
  -- the loop ends behind the second item if nothing is left there
  by_cases last : itemSize m (itemSize m 0) = n - itemSize m 0
  · rw [last, Nat.sub_self, itemsFrom_zero] at fitting
    have done : (v.item m).ieTotalLen = 0 := by
      rw [second.ieTotalLen, here, total_eq_zero_iff, total, last]
    refine handles_iff_madeOfTwo size (fun r => ?_) (pair.trans fitting.symm) (by rw [fitting]; rfl) ?_ ?_ ?_
    · rw [same, ends_more more, ends_done done]
    · simp only [fitting, List.map_cons, List.map_nil, List.sum_cons, List.sum_nil]
      omega
    · exact turned_reads reads (by rw [here]; omega)
    · rw [turned_inside ssids, inside, here, fitting, List.forall_mem_cons, List.forall_mem_singleton]
  · -- the third item is looked for where the second one is long
    have again : (v.item m).ieTotalLen ≠ 0 := by
      rw [second.ieTotalLen, here, Ne, total_eq_zero_iff, total]
      exact last
    refine iff_of_false ?_ fun made => ?_
    · rintro ⟨r, ends, handles⟩
      have known := handled_prefix ((ends_more again).mp ((ends_more more).mp ((same r).mp ends))) handles
      have positive := itemSize_pos m 0
      rw [(item_turned m _).handled, pair, second.mrvlIe, here, fitting] at known
      rw [itemsFrom] at known
      split at known
      · simp at known
        omega
      · simp at known
    · have sum := madeOfTwo_sum size made
      have two := made.two
      rw [fitting] at sum two
      rw [itemsFrom] at sum two
      split at two
      · simp at two
      · simp_all
        omega

/-- The bytes behind the command header are none, one or two items, or the loop goes wrong. -/
private theorem ended_iff_of_header {n : Nat} (size : (announced m).toNat = tlvbuffer + n) :
    (∃ r, Ends m (.start m) r ∧ Handles m r) ↔ MadeOfTwo m := by
  have total : (ScanWalk.start m).ieTotalLen.toNat = n := by
    rw [start_total (by omega), size, Nat.add_sub_cancel_left]
  have fitting : items m = itemsFrom m 0 n := by rw [items, size, Nat.add_sub_cancel_left]
  have header : ∀ x ∈ (ScanWalk.start m).reads, x.1 + x.2 ≤ (announced m).toNat := by
    simp [ScanWalk.start, size, tlvbuffer]
    omega
  -- no item at all
  by_cases empty : n = 0
  · subst empty
    rw [itemsFrom_zero] at fitting
    have done : (ScanWalk.start m).ieTotalLen = 0 := UInt32.toNat_inj.mp total
    refine handles_iff_madeOfTwo size (fun r => ends_done done) ?_ ?_ ?_ header ?_
    all_goals simp [fitting, ScanWalk.start]
  have more : (ScanWalk.start m).ieTotalLen ≠ 0 := by
    intro zero
    rw [zero] at total
    exact empty total.symm
  have ssids : (ScanWalk.start m).ssidId = 0 := rfl
  have first := item_turned m (.start m)
  have handled : ((ScanWalk.start m).item m).handled = [0] := first.handled
  -- what holds behind the first item, in each of the cases
  have reads (fits : itemSize m 0 ≤ n) :
      ∀ x ∈ ((ScanWalk.start m).item m).reads, x.1 + x.2 ≤ (announced m).toNat :=
    turned_reads header (by rw [size]; exact Nat.add_le_add_left fits _)
  have inside : ((ScanWalk.start m).item m).outside = false ↔ ShortName m 0 := by
    rw [turned_inside (by rw [ssids]; decide)]
    exact ⟨And.right, fun short => ⟨rfl, short⟩⟩
  -- the first item leaves something, takes up all of it or is too long
  rcases Nat.lt_trichotomy (itemSize m 0) n with less | last | beyond
  · refine ended_iff_of_second size less first.mrvlIe handled ?_ (reads (Nat.le_of_lt less)) ?_ inside
      (fun r => ends_more more)
    · rw [first.ieTotalLen]
      exact (toNat_total (by rw [total]; exact Nat.le_of_lt less)).trans (by rw [total]; rfl)
    · rw [first.ssidId, ssids]
      split <;> decide
  · rw [itemsFrom_of_fits (Nat.le_of_eq last), last, Nat.sub_self, itemsFrom_zero] at fitting
    have done : ((ScanWalk.start m).item m).ieTotalLen = 0 := by
      rw [first.ieTotalLen]
      exact total_eq_zero_iff.mpr (last.trans total.symm)
    refine handles_iff_madeOfTwo size (fun r => ?_) (handled.trans fitting.symm) (by rw [fitting]; decide) ?_
      (reads (Nat.le_of_eq last)) ?_
    · rw [ends_more more, ends_done done]
    · simp [fitting, last]
    · rw [inside, fitting, List.forall_mem_singleton]
  · -- the first item does not fit, and is handled
    rw [itemsFrom_of_not (Nat.not_le.mpr beyond)] at fitting
    refine iff_of_false ?_ fun made => empty ?_
    · rintro ⟨r, ends, handles⟩
      have known := handled_prefix ((ends_more more).mp ends) handles
      simp [handled, fitting] at known
    · rw [← madeOfTwo_sum size made, fitting]
      rfl

private theorem ended_iff (m : Mem UInt8) : (∃ r, Ends m (.start m) r ∧ Handles m r) ↔ MadeOfTwo m := by
  by_cases header : tlvbuffer ≤ (announced m).toNat
  · exact ended_iff_of_header (Nat.add_sub_cancel' header).symm
  · have more := start_short (Nat.not_le.mp header)
    refine iff_of_false ?_ fun made => header made.header
    rintro ⟨r, ends, handles⟩
    -- the header of an item is read behind the announced size
    have read : (tlvbuffer + 0, sizeofIeHdr) ∈ r.reads := by
      apply ((ends_more more).mp ends).grows.2.subset
      rw [(item_turned m _).reads]
      simp [ScanWalk.start]
    have := handles.reads _ read
    omega

private theorem converted_iff (m : Mem UInt8) :
    (∃ fuel w, cmdConversion80211Scan fuel m = some w ∧ Handles m w) ↔
      ∃ r, Ends m (.start m) r ∧ Handles m r := by
  constructor
  · rintro ⟨fuel, w, result, handles⟩
    obtain ⟨r, ended, rfl⟩ := Option.map_eq_some_iff.mp result
    exact ⟨r, ⟨fuel, ended⟩, handles.once, handles.reads, handles.inside⟩
  · rintro ⟨r, ⟨fuel, ended⟩, handles⟩
    refine ⟨fuel, r.finish, ?_, handles.once, handles.reads, handles.inside⟩
    rw [cmdConversion80211Scan, ended, Option.map_some]

/-- The scan command of the host is handled as it should be exactly when at most two items make up its size and
no name in them is too long. -/
theorem scan_items_handled_iff (m : Mem UInt8) :
    (∃ fuel w, cmdConversion80211Scan fuel m = some w ∧ Handles m w) ↔ MadeOfTwo m :=
  (converted_iff m).trans (ended_iff m)

/-- A command with three lists of rates, each of them empty. -/
def threeRates : Mem UInt8 := Mem.ofList
  ([0x06, 0, 27, 0, 0, 0, 0, 0] ++ List.replicate 7 0xff ++ [1, 0, 0, 0] ++ [1, 0, 0, 0] ++ [1, 0, 0, 0])

/-- The second of three items is handled again in place of the third. -/
theorem third_item_not_handled :
    ¬ ∀ m, ∃ fuel w, cmdConversion80211Scan fuel m = some w ∧ Handles m w := by
  intro always
  have made := (ended_iff threeRates).mp ((converted_iff threeRates).mp (always threeRates))
  exact absurd made.two (by decide +kernel)

end Bk7251.SdioIntf
