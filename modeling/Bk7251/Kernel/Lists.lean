import Bk7251.Lib.Links
import Mathlib.Logic.Function.Basic

/-!
# The kernel's lists

`list.c` and the access macros of `freertos_list.h`. A list has an end marker that is always in it; items
and lists are named, and the owner of an item is whoever the name says.
-/
namespace Bk7251.Kernel

/-- A `TickType_t`. -/
abbrev TickType := UInt32

def portMAX_DELAY : TickType := 0xffffffff

/-- A `ListItem_t *`. -/
inductive ItemPtr (ι κ : Type)
  | item (pxItem : ι)
  | xListEnd (pxList : κ)
  deriving DecidableEq

/-- The fields of all items and lists. -/
structure Lists (ι κ : Type) where
  xItemValue : ItemPtr ι κ → TickType
  pxNext : ItemPtr ι κ → ItemPtr ι κ
  pxPrevious : ItemPtr ι κ → ItemPtr ι κ
  pvContainer : ι → Option κ
  uxNumberOfItems : κ → Nat
  pxIndex : κ → ItemPtr ι κ

namespace Lists

open ItemPtr Function

variable {ι κ : Type} [DecidableEq ι] [DecidableEq κ]

def vListInitialise (s : Lists ι κ) (pxList : κ) : Lists ι κ :=
  { s with
    pxIndex := update s.pxIndex pxList (xListEnd pxList)
    xItemValue := update s.xItemValue (xListEnd pxList) portMAX_DELAY
    pxNext := update s.pxNext (xListEnd pxList) (xListEnd pxList)
    pxPrevious := update s.pxPrevious (xListEnd pxList) (xListEnd pxList)
    uxNumberOfItems := update s.uxNumberOfItems pxList 0 }

def vListInitialiseItem (s : Lists ι κ) (pxItem : ι) : Lists ι κ :=
  { s with pvContainer := update s.pvContainer pxItem none }

/-- The item remembers its list, and the list counts it. -/
def contain (s : Lists ι κ) (pxList : κ) (pxNewListItem : ι) : Lists ι κ :=
  { s with
    pvContainer := update s.pvContainer pxNewListItem (some pxList)
    uxNumberOfItems := update s.uxNumberOfItems pxList (s.uxNumberOfItems pxList + 1) }

def vListInsertEnd (s : Lists ι κ) (pxList : κ) (pxNewListItem : ι) : Lists ι κ :=
  let pxIndex := s.pxIndex pxList
  let s := { s with
    pxNext := update s.pxNext (item pxNewListItem) pxIndex
    pxPrevious := update s.pxPrevious (item pxNewListItem) (s.pxPrevious pxIndex) }
  let s := { s with pxNext := update s.pxNext (s.pxPrevious pxIndex) (item pxNewListItem) }
  let s := { s with pxPrevious := update s.pxPrevious pxIndex (item pxNewListItem) }
  s.contain pxList pxNewListItem

/-- The loop of `vListInsert`; `none` where it does not come to an end in `fuel` steps. -/
def iterate (s : Lists ι κ) (xValueOfInsertion : TickType) : Nat → ItemPtr ι κ → Option (ItemPtr ι κ)
  | 0, _ => none
  | fuel + 1, pxIterator =>
    if s.xItemValue (s.pxNext pxIterator) ≤ xValueOfInsertion then
      iterate s xValueOfInsertion fuel (s.pxNext pxIterator)
    else some pxIterator

def vListInsert (s : Lists ι κ) (pxList : κ) (pxNewListItem : ι) : Option (Lists ι κ) :=
  let xValueOfInsertion := s.xItemValue (item pxNewListItem)
  let found :=
    if xValueOfInsertion = portMAX_DELAY then some (s.pxPrevious (xListEnd pxList))
    else s.iterate xValueOfInsertion (s.uxNumberOfItems pxList + 1) (xListEnd pxList)
  found.map fun pxIterator =>
    let s := { s with pxNext := update s.pxNext (item pxNewListItem) (s.pxNext pxIterator) }
    let s := { s with pxPrevious := update s.pxPrevious (s.pxNext (item pxNewListItem)) (item pxNewListItem) }
    let s := { s with pxPrevious := update s.pxPrevious (item pxNewListItem) pxIterator }
    let s := { s with pxNext := update s.pxNext pxIterator (item pxNewListItem) }
    s.contain pxList pxNewListItem

/-- The lists and the number of items left; `none` where the item is in no list. -/
def uxListRemove (s : Lists ι κ) (pxItemToRemove : ι) : Option (Lists ι κ × Nat) :=
  (s.pvContainer pxItemToRemove).map fun pxList =>
    let this : ItemPtr ι κ := item pxItemToRemove
    let s := { s with pxPrevious := update s.pxPrevious (s.pxNext this) (s.pxPrevious this) }
    let s := { s with pxNext := update s.pxNext (s.pxPrevious this) (s.pxNext this) }
    let s := { s with
      pxIndex := if s.pxIndex pxList = this then update s.pxIndex pxList (s.pxPrevious this) else s.pxIndex }
    let s := { s with
      pvContainer := update s.pvContainer pxItemToRemove none
      uxNumberOfItems := update s.uxNumberOfItems pxList (s.uxNumberOfItems pxList - 1) }
    (s, s.uxNumberOfItems pxList)

def listSET_LIST_ITEM_VALUE (s : Lists ι κ) (pxListItem : ι) (xValue : TickType) : Lists ι κ :=
  { s with xItemValue := update s.xItemValue (item pxListItem) xValue }

def listGET_LIST_ITEM_VALUE (s : Lists ι κ) (pxListItem : ι) : TickType := s.xItemValue (item pxListItem)

def listLIST_IS_EMPTY (s : Lists ι κ) (pxList : κ) : Bool := s.uxNumberOfItems pxList = 0

def listCURRENT_LIST_LENGTH (s : Lists ι κ) (pxList : κ) : Nat := s.uxNumberOfItems pxList

/-- The marker has no owner: what stands there is not an item. -/
def listGET_OWNER_OF_HEAD_ENTRY (s : Lists ι κ) (pxList : κ) : Option ι :=
  match s.pxNext (xListEnd pxList) with
  | item pxItem => some pxItem
  | xListEnd _ => none

def listGET_ITEM_VALUE_OF_HEAD_ENTRY (s : Lists ι κ) (pxList : κ) : TickType :=
  s.xItemValue (s.pxNext (xListEnd pxList))

def listGET_OWNER_OF_NEXT_ENTRY (s : Lists ι κ) (pxList : κ) : Lists ι κ × Option ι :=
  let s := { s with pxIndex := update s.pxIndex pxList (s.pxNext (s.pxIndex pxList)) }
  let s :=
    if s.pxIndex pxList = xListEnd pxList then
      { s with pxIndex := update s.pxIndex pxList (s.pxNext (s.pxIndex pxList)) }
    else s
  (s, match s.pxIndex pxList with
    | item pxItem => some pxItem
    | xListEnd _ => none)

end Lists

end Bk7251.Kernel
