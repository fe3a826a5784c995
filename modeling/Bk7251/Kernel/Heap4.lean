import Bk7251.Lib.Words

/-!
# The heap

`portable/MemMang/heap_4.c` with `pvPortRealloc`. A free block starts with a `BlockLink_t`: the address
of the next free block and the block's size; an allocated one has no next block and the top bit of
`size_t` in its size. Addresses and sizes are numbers that memory holds as 32-bit words.
-/
namespace Bk7251.Kernel

open Lib

def portBYTE_ALIGNMENT : Nat := 8

/-- `sizeof(BlockLink_t)`, aligned. -/
def xHeapStructSize : Nat := 8

def heapMINIMUM_BLOCK_SIZE : Nat := xHeapStructSize <<< 1

def xBlockAllocatedBit : Nat := 2 ^ 31

/-- A `BlockLink_t *`: `none` is `&xStart`, which lies outside the heap. -/
abbrev Link := Option Nat

structure Heap4 where
  ram : Mem UInt8
  /-- `xStart.pxNextFreeBlock`; the size of `xStart` stays 0. -/
  xStart : Nat
  /-- 0 is `NULL`. -/
  pxEnd : Nat
  xFreeBytesRemaining : Nat
  xMinimumEverFreeBytesRemaining : Nat

/-- `ucHeap` and the size that `prvHeapGetTotalSize` gives. -/
structure HeapArea where
  ucHeap : Nat
  xTotalHeapSize : Nat

/-! ### Block headers -/

def pxNextFreeBlock (m : Mem UInt8) (a : Nat) : Nat := m.word a

def xBlockSize (m : Mem UInt8) (a : Nat) : Nat := m.word (a + 4)

namespace Heap4

def next (h : Heap4) : Link → Nat
  | none => h.xStart
  | some a => pxNextFreeBlock h.ram a

def size (h : Heap4) (a : Nat) : Nat := xBlockSize h.ram a

def setNext (h : Heap4) (l : Link) (v : Nat) : Heap4 :=
  match l with
  | none => { h with xStart := v }
  | some a => { h with ram := h.ram.setWord a v }

def setSize (h : Heap4) (a v : Nat) : Heap4 := { h with ram := h.ram.setWord (a + 4) v }

/-! ### The list of free blocks -/

/-- The loop of `prvInsertBlockIntoFreeList`; `none` where the list is longer than `fuel`. -/
def insertionPoint (h : Heap4) (pxBlockToInsert : Nat) : Nat → Link → Option Link
  | 0, _ => none
  | fuel + 1, pxIterator =>
    if h.next pxIterator < pxBlockToInsert then
      insertionPoint h pxBlockToInsert fuel (some (h.next pxIterator))
    else some pxIterator

/-- In one piece with the block in front where they touch, and the address of the piece. -/
def joinFront (h : Heap4) (pxIterator : Link) (pxBlockToInsert : Nat) : Heap4 × Nat :=
  match pxIterator with
  | none => (h, pxBlockToInsert)
  | some a =>
    if a + h.size a = pxBlockToInsert then (h.setSize a (h.size a + h.size pxBlockToInsert), a)
    else (h, pxBlockToInsert)

/-- In one piece with the block behind where they touch; the link onwards. -/
def joinBack (h : Heap4) (pxIterator : Link) (pxBlockToInsert : Nat) : Heap4 :=
  if pxBlockToInsert + h.size pxBlockToInsert = h.next pxIterator then
    if h.next pxIterator ≠ h.pxEnd then
      let h' := h.setSize pxBlockToInsert (h.size pxBlockToInsert + h.size (h.next pxIterator))
      h'.setNext (some pxBlockToInsert) (h'.next (some (h'.next pxIterator)))
    else h.setNext (some pxBlockToInsert) h.pxEnd
  else h.setNext (some pxBlockToInsert) (h.next pxIterator)

def prvInsertBlockIntoFreeList (h : Heap4) (pxBlockToInsert : Nat) : Option Heap4 :=
  (h.insertionPoint pxBlockToInsert (h.pxEnd + 1) none).map fun pxIterator =>
    let (h, pxBlockToInsert) := h.joinFront pxIterator pxBlockToInsert
    let h := h.joinBack pxIterator pxBlockToInsert
    if pxIterator ≠ some pxBlockToInsert then h.setNext pxIterator pxBlockToInsert else h

/-! ### Allocating -/

def alignedUp (x : Nat) : Nat :=
  if x % portBYTE_ALIGNMENT ≠ 0 then x + (portBYTE_ALIGNMENT - x % portBYTE_ALIGNMENT) else x

def prvHeapInit (area : HeapArea) (h : Heap4) : Heap4 :=
  let aligned := alignedUp area.ucHeap
  let total := area.xTotalHeapSize - (aligned - area.ucHeap)
  let last := aligned + total - xHeapStructSize
  let pxEnd := last - last % portBYTE_ALIGNMENT
  let h := { h with xStart := aligned, pxEnd := pxEnd }
  let h := (h.setSize pxEnd 0).setNext (some pxEnd) 0
  let h := (h.setSize aligned (pxEnd - aligned)).setNext (some aligned) pxEnd
  { h with xMinimumEverFreeBytesRemaining := pxEnd - aligned, xFreeBytesRemaining := pxEnd - aligned }

/-- The search for a block of adequate size: the block and the one before it. -/
def firstFit (h : Heap4) (xWantedSize : Nat) : Nat → Link → Nat → Option (Link × Nat)
  | 0, _, _ => none
  | fuel + 1, pxPreviousBlock, pxBlock =>
    if h.size pxBlock < xWantedSize ∧ h.next (some pxBlock) ≠ 0 then
      firstFit h xWantedSize fuel (some pxBlock) (h.next (some pxBlock))
    else some (pxPreviousBlock, pxBlock)

/-- The size with the header, aligned. -/
def blockSizeFor (xWantedSize : Nat) : Nat :=
  if 0 < xWantedSize then alignedUp (xWantedSize + xHeapStructSize) else xWantedSize

/-- Cut the block in two where the rest is large enough for a block of its own. -/
def splitBlock (h : Heap4) (pxBlock xWantedSize : Nat) : Option Heap4 :=
  if h.size pxBlock - xWantedSize > heapMINIMUM_BLOCK_SIZE then
    let pxNewBlockLink := pxBlock + xWantedSize
    let h := h.setSize pxNewBlockLink (h.size pxBlock - xWantedSize)
    let h := h.setSize pxBlock xWantedSize
    h.prvInsertBlockIntoFreeList pxNewBlockLink
  else some h

/-- The counters and the header of the block that is returned. -/
def takeBlock (h : Heap4) (pxBlock : Nat) : Heap4 :=
  let remaining := h.xFreeBytesRemaining - h.size pxBlock
  let h := { h with
    xFreeBytesRemaining := remaining
    xMinimumEverFreeBytesRemaining :=
      if remaining < h.xMinimumEverFreeBytesRemaining then remaining else h.xMinimumEverFreeBytesRemaining }
  (h.setSize pxBlock (h.size pxBlock ||| xBlockAllocatedBit)).setNext (some pxBlock) 0

/-- From the size with its header on: the heap and the pointer returned, 0 for `NULL`. -/
def allocate (h : Heap4) (xWantedSize : Nat) : Option (Heap4 × Nat) :=
  if xWantedSize > 0 ∧ xWantedSize ≤ h.xFreeBytesRemaining then
    (h.firstFit xWantedSize (h.pxEnd + 1) none h.xStart).bind fun (pxPreviousBlock, pxBlock) =>
      if pxBlock ≠ h.pxEnd then
        let pvReturn := h.next pxPreviousBlock + xHeapStructSize
        let h := h.setNext pxPreviousBlock (h.next (some pxBlock))
        (h.splitBlock pxBlock xWantedSize).map fun h => (h.takeBlock pxBlock, pvReturn)
      else some (h, 0)
  else some (h, 0)

def mallocWithoutLock (area : HeapArea) (h : Heap4) (xWantedSize : Nat) : Option (Heap4 × Nat) :=
  let h := if h.pxEnd = 0 then h.prvHeapInit area else h
  if xWantedSize &&& xBlockAllocatedBit = 0 then h.allocate (blockSizeFor xWantedSize) else some (h, 0)

def pvPortMalloc (area : HeapArea) (h : Heap4) (xWantedSize : Nat) : Option (Heap4 × Nat) :=
  h.mallocWithoutLock area (if xWantedSize = 0 then 4 else xWantedSize)

/-! ### Releasing -/

/-- The size without the bit of an allocated block. -/
def cleared (size : Nat) : Nat := size &&& (xBlockAllocatedBit - 1)

/-- Put a block back: its header, the counter and the list. -/
def release (h : Heap4) (pxLink : Nat) : Option Heap4 :=
  let h := h.setSize pxLink (cleared (h.size pxLink))
  prvInsertBlockIntoFreeList { h with xFreeBytesRemaining := h.xFreeBytesRemaining + h.size pxLink } pxLink

def vPortFree (h : Heap4) (pv : Nat) : Option Heap4 :=
  if pv ≠ 0 then
    let pxLink := pv - xHeapStructSize
    if h.size pxLink &&& xBlockAllocatedBit ≠ 0 ∧ h.next (some pxLink) = 0 then h.release pxLink else some h
  else some h

/-! ### Changing the size of a block -/

/-- The loop of `pvPortRealloc` that takes the block out of the list again: the block may be at the
beginning, at the end or in the middle of a free one. -/
def takeBack (h : Heap4) (pxLink presize : Nat) : Nat → Link → Nat → Option Heap4
  | 0, _, _ => none
  | fuel + 1, pxPreviousBlock, pxIterator =>
    if pxIterator = 0 ∨ pxIterator > pxLink then some h
    else if pxIterator = pxLink then
      if h.size pxIterator > presize then
        let tmp := pxLink + presize
        let h := h.setSize tmp (h.size pxIterator - presize)
        let h := h.setNext (some tmp) (h.next (some pxIterator))
        some (h.setNext pxPreviousBlock tmp)
      else some (h.setNext pxPreviousBlock (h.next (some pxIterator)))
    else if pxIterator + h.size pxIterator = pxLink + presize then
      some (h.setSize pxIterator (h.size pxIterator - presize))
    else if pxIterator + h.size pxIterator > pxLink + presize then
      let rest := pxLink + presize
      let h := h.setSize rest (pxIterator + h.size pxIterator - rest)
      let tmp := h.next (some pxIterator)
      let h := h.setNext (some pxIterator) rest
      let h := h.setSize pxIterator (pxLink - pxIterator)
      some (h.setNext (some rest) tmp)
    else takeBack h pxLink presize fuel (some pxIterator) (h.next (some pxIterator))

/-- Where no larger block was found the old one stays allocated. -/
def keepBlock (h : Heap4) (pxLink presize : Nat) : Option Heap4 :=
  (h.takeBack pxLink presize (h.pxEnd + 1) none h.xStart).map fun h =>
    let h := (h.setSize pxLink (presize ||| xBlockAllocatedBit)).setNext (some pxLink) 0
    { h with xFreeBytesRemaining := h.xFreeBytesRemaining - presize }

/-- `os_memcpy` is the parameter: destination, source and length. -/
def pvPortRealloc (area : HeapArea) (memcpy : Mem UInt8 → Nat → Nat → Nat → Mem UInt8) (h : Heap4)
    (pv xWantedSize : Nat) : Option (Heap4 × Nat) :=
  if pv = 0 then h.pvPortMalloc area xWantedSize
  else
    let pxLink := pv - xHeapStructSize
    let presize := cleared (h.size pxLink)
    let datasize := presize - xHeapStructSize
    if datasize ≥ xWantedSize then some (h, pv)
    else
      (h.release pxLink).bind fun h =>
        (h.mallocWithoutLock area xWantedSize).bind fun (h, pvReturn) =>
          if pvReturn ≠ 0 then
            if pvReturn ≠ pv then some ({ h with ram := memcpy h.ram pvReturn pv datasize }, pvReturn)
            else some (h, pvReturn)
          else (h.keepBlock pxLink presize).map fun h => (h, 0)

end Heap4

end Bk7251.Kernel
