import Bk7251.Lib.Walk
import Bk7251.RfCal.ManualCal

/-!
# When the item searches end

`search_info_item` and `manual_cal_search_txpwr_tab` go from item to item by the lengths they find in
flash, on 32-bit addresses. The search ends where these lengths do not lead in a circle.
-/
namespace Bk7251.RfCal

open Lib Flash Relation
open NetParam (readHead scan scanFuel searchInfoItem)

/-- The next item, as long as the search goes on. -/
def nextItem (cells : Mem UInt8) (type : UInt32) (endAddr addr : Nat) : Option Nat :=
  if addr < endAddr ∧ type ≠ (readHead cells addr).type then
    some ((addr + 8 + (readHead cells addr).len.toNat) % 2 ^ 32)
  else none

def firstItem (startAddr : Nat) : Nat := (startAddr + 8) % 2 ^ 32

/-- `end_addr`, from the length in the head of the table. -/
def tableEnd (cells : Mem UInt8) (startAddr : Nat) : Nat :=
  (firstItem startAddr + (readHead cells startAddr).len.toNat) % 2 ^ 32

theorem scan_eq_walk (cells : Mem UInt8) (type : UInt32) (endAddr fuel : Nat) : ∀ addr,
    scan cells type endAddr fuel addr = walk (nextItem cells type endAddr) fuel addr := by
  induction fuel with
  | zero => intro addr; rfl
  | succ fuel ih =>
    intro addr
    rw [scan, walk]
    by_cases below : addr < endAddr
    · by_cases other : type = (readHead cells addr).type
      · simp [nextItem, below, other]
      · simp [nextItem, below, other, ih]
    · simp [nextItem, below]

/-- The search goes on only below the end of the table, so a walk that does not repeat itself ends. -/
theorem scan_isSome_iff (cells : Mem UInt8) (type : UInt32) {endAddr : Nat} (bound : endAddr < 2 ^ 32)
    (addr : Nat) :
    (scan cells type endAddr scanFuel addr).isSome ↔ Acyclic (nextItem cells type endAddr) addr := by
  rw [scan_eq_walk]
  refine walk_isSome_iff (Finset.range endAddr) (fun b _ more => ?_) ?_
  · rw [nextItem] at more
    split at more
    next below => exact Finset.mem_range.mpr below.1
    next => cases more
  · rw [Finset.card_range, scanFuel]
    exact bound

/-- A result of an item search: 0, or an item of the type with its head inside the table. -/
def Answers (cells : Mem UInt8) (type : UInt32) (startAddr : Nat) (result : Option Nat) : Prop :=
  ∃ addr, result = some addr ∧ (addr = 0 ∨ (readHead cells addr).type = type ∧
    firstItem startAddr ≤ addr ∧ addr + 8 ≤ tableEnd cells startAddr)

/-- The lengths of the items lead in no circle, and to no item of the type that begins in front of the
first one or ends its head behind the end. -/
structure Linked (cells : Mem UInt8) (type : UInt32) (startAddr : Nat) : Prop where
  acyclic : Acyclic (nextItem cells type (tableEnd cells startAddr)) (firstItem startAddr)
  inside : ∀ addr, ReflTransGen (Leads (nextItem cells type (tableEnd cells startAddr)))
      (firstItem startAddr) addr → addr ≠ 0 → addr < tableEnd cells startAddr →
    type = (readHead cells addr).type →
    firstItem startAddr ≤ addr ∧ addr + 8 ≤ tableEnd cells startAddr

theorem search_answers_iff (cells : Mem UInt8) (type : UInt32) (startAddr : Nat) :
    Answers cells type startAddr ((scan cells type (tableEnd cells startAddr) scanFuel
        (firstItem startAddr)).map fun addr => if tableEnd cells startAddr ≤ addr then 0 else addr) ↔
      Linked cells type startAddr := by
  have bound : tableEnd cells startAddr < 2 ^ 32 := Nat.mod_lt _ (Nat.two_pow_pos 32)
  have ends := scan_isSome_iff cells type bound (firstItem startAddr)
  constructor
  · rintro ⟨addr, result, answer⟩
    obtain ⟨stop, found, same⟩ := Option.map_eq_some_iff.mp result
    refine ⟨ends.mp (by rw [found]; rfl), fun item reached nonzero below right => ?_⟩
    -- the item is where the walk ends
    rw [scan_eq_walk] at found
    have last : nextItem cells type (tableEnd cells startAddr) item = none :=
      if_neg fun more => more.2 right
    obtain rfl := walk_unique found reached last
    rw [if_neg (Nat.not_le.mpr below)] at same
    subst same
    exact (answer.resolve_left nonzero).2
  · rintro ⟨acyclic, inside⟩
    obtain ⟨stop, found⟩ := Option.isSome_iff_exists.mp (ends.mpr acyclic)
    refine ⟨_, by rw [found]; rfl, ?_⟩
    dsimp only
    split
    · exact .inl rfl
    next below =>
      rw [scan_eq_walk] at found
      obtain ⟨reached, last⟩ := walk_reaches found
      -- the walk has stopped below the end, so it has found the type
      have right : type = (readHead cells stop).type := by
        by_contra other
        rw [nextItem, if_pos ⟨Nat.not_le.mp below, other⟩] at last
        cases last
      by_cases zero : stop = 0
      · exact .inl zero
      · exact .inr ⟨right.symm, inside stop reached zero (Nat.not_le.mp below) right⟩

theorem searchInfoItem_answers_iff (cells : Mem UInt8) (type : UInt32) (startAddr : Nat) :
    Answers cells type startAddr (searchInfoItem cells type startAddr) ↔ Linked cells type startAddr :=
  search_answers_iff cells type startAddr

/-- Both searches end with an answer exactly on tables whose items are linked so. -/
theorem item_search_ends_iff (cells : Mem UInt8) (type : UInt32) (startAddr : Nat) :
    (Answers cells type startAddr (searchInfoItem cells type startAddr) ↔
        Linked cells type startAddr) ∧
      (Answers cells type startAddr (manualCalSearchTxpwrTab cells type startAddr) ↔
        manualCalSearchOptTab cells = none ∨ Linked cells type startAddr) := by
  refine ⟨searchInfoItem_answers_iff cells type startAddr, ?_⟩
  rw [manualCalSearchTxpwrTab]
  split
  next none => exact iff_of_true ⟨0, rfl, .inl rfl⟩ (.inl none)
  next some found =>
    rw [found]
    simp only [reduceCtorEq, false_or]
    exact search_answers_iff cells type startAddr

/-- A table with one item, whose length leads back to the item itself. -/
def circle : Mem UInt8 :=
  Mem.write (fun _ => 0xFF) NetParam.tblStart (Tlv.head NetParam.INFO_TLV_HEADER 16 ++ Tlv.head 1 0xFFFFFFF8)

theorem item_search_circle : ¬ Answers circle 2 NetParam.tblStart (searchInfoItem circle 2 NetParam.tblStart) := by
  have again : nextItem circle 2 (tableEnd circle NetParam.tblStart) (firstItem NetParam.tblStart) =
      some (firstItem NetParam.tblStart) := by decide +kernel
  intro answers
  have linked := (searchInfoItem_answers_iff circle 2 NetParam.tblStart).mp answers
  exact linked.acyclic _ .refl (.single again)

end Bk7251.RfCal
