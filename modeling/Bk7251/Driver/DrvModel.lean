import Bk7251.Lib.Machine

/-!
# The device table

`ddev_register_dev`, `ddev_open`, `ddev_close` and `ddev_unregister_dev`
(`driver/common/drv_model.c`). A failed assertion stops the system, and so does an access behind the
table; such a step has no result.
-/
namespace Bk7251.Driver

open Lib

def DRV_FAILURE : UInt32 := 0xFFFFFFFB
def DRV_SUCCESS : UInt32 := 0
def DD_MAX_DEV : Nat := 10
def DD_MAX_NAME_LEN : Nat := 16
def DD_HANDLE_MAGIC_WORD : UInt32 := 0xA5A50000
def DD_HANDLE_MAGIC_MASK : UInt32 := 0xFFFF0000
def DD_HANDLE_ID_MASK : UInt32 := 0x0000FFFF
def DD_HANDLE_UNVALID : UInt32 := 0xFFFFFFFF

/-- A string without its terminator. -/
abbrev CStr := List Char

inductive DdState where
  | NODEVICE
  | CLOSED
  | OPENED
deriving DecidableEq

/-- A pointer to a table of operations, and which of them are there. -/
structure DdOperations where
  addr : Nat
  hasOpen : Bool
  hasClose : Bool
deriving DecidableEq

structure DrvDev where
  name : Option CStr
  useCnt : UInt32
  state : DdState
  op : Option DdOperations
deriving DecidableEq

/-- A slot as `drv_model_init` leaves it. -/
def DrvDev.zero : DrvDev := ⟨none, 0, .NODEVICE, none⟩

abbrev DrvDevTbl := List DrvDev

def drvModelInit : DrvDevTbl := List.replicate DD_MAX_DEV .zero

/-- What a call returns, what `*status` is set to, and the operations whose callback ran. -/
structure DdResult where
  ret : UInt32
  status : Option UInt32
  called : Option DdOperations

inductive DdCall where
  /-- `opened` is what the `open` operation returns, if it is called. -/
  | open (devName : CStr) (opened : UInt32)
  | close (handle : UInt32)
  | register (devName : CStr) (optr : DdOperations)
  | unregister (devName : CStr)

def ddevMakeHandle (id : Nat) : UInt32 :=
  if id ≥ DD_MAX_DEV then DD_HANDLE_UNVALID else UInt32.ofNat id + DD_HANDLE_MAGIC_WORD

/-- `ddev_get_id_from_handle`; `none` is `DD_ID_UNVALID`. -/
def ddevGetIdFromHandle (handle : UInt32) : Option Nat :=
  if handle &&& DD_HANDLE_MAGIC_MASK ≠ DD_HANDLE_MAGIC_WORD then none
  else some (handle &&& DD_HANDLE_ID_MASK).toNat

/-- `0 == os_strncmp(name, dev_name, os_strlen(dev_name))`; a null name matches nothing. -/
def DrvDev.matches (devName : CStr) (dev : DrvDev) : Bool := dev.name.any devName.isPrefixOf

/-- The slot `ddev_register_dev` takes. -/
def DrvDev.isFree (dev : DrvDev) : Bool := dev.name = none ∧ dev.state = .NODEVICE

def ddevOpen (tbl : DrvDevTbl) (devName : CStr) (opened : UInt32) : Option (DrvDevTbl × DdResult) :=
  if devName.length > DD_MAX_NAME_LEN then some (tbl, ⟨DD_HANDLE_UNVALID, none, none⟩)
  else do
    -- without a match the assertion behind the loop fails
    let i ← tbl.findIdx? (DrvDev.matches devName)
    let dev ← tbl[i]?
    match dev.state with
    | .OPENED =>
      some (tbl.set i { dev with useCnt := dev.useCnt + 1 },
        ⟨ddevMakeHandle i, some DRV_FAILURE, none⟩)
    | .CLOSED =>
      let callee := dev.op.filter DdOperations.hasOpen
      some (tbl.set i { dev with state := .OPENED, useCnt := 0 + 1 },
        ⟨ddevMakeHandle i, some (if callee.isSome then opened else DRV_FAILURE), callee⟩)
    | .NODEVICE => none

def ddevClose (tbl : DrvDevTbl) (handle : UInt32) : Option (DrvDevTbl × DdResult) :=
  match ddevGetIdFromHandle handle with
  | none => some (tbl, ⟨DRV_FAILURE, none, none⟩)
  | some id => do
    let dev ← tbl[id]?
    let useCnt := dev.useCnt - 1
    if useCnt = 0 then
      some (tbl.set id { dev with useCnt, state := .CLOSED },
        ⟨DRV_SUCCESS, none, dev.op.filter DdOperations.hasClose⟩)
    else some (tbl.set id { dev with useCnt }, ⟨DRV_SUCCESS, none, none⟩)

def ddevRegisterDev (tbl : DrvDevTbl) (devName : CStr) (optr : DdOperations) :
    Option (DrvDevTbl × DdResult) := do
  let i ← tbl.findIdx? DrvDev.isFree
  let dev ← tbl[i]?
  -- the use count stays what it was
  some (tbl.set i { dev with name := some devName, op := some optr, state := .CLOSED },
    ⟨DRV_SUCCESS, none, none⟩)

def ddevUnregisterDev (tbl : DrvDevTbl) (devName : CStr) : Option (DrvDevTbl × DdResult) :=
  if devName.length > DD_MAX_NAME_LEN then some (tbl, ⟨DRV_FAILURE, none, none⟩)
  else do
    -- the loop runs to DD_MAX_SDEV, which is 16: without a match it leaves the table
    let i ← tbl.findIdx? (DrvDev.matches devName)
    let dev ← tbl[i]?
    some (tbl.set i { dev with name := none, op := none, state := .NODEVICE },
      ⟨DRV_SUCCESS, none, none⟩)

def ddStep (tbl : DrvDevTbl) : DdCall → Option (DrvDevTbl × DdResult)
  | .open devName opened => ddevOpen tbl devName opened
  | .close handle => ddevClose tbl handle
  | .register devName optr => ddevRegisterDev tbl devName optr
  | .unregister devName => ddevUnregisterDev tbl devName

end Bk7251.Driver
