import Mathlib.Data.List.Basic
import Mathlib.Tactic.Common

/-!
# Blocks of a download

`http_flash_init`, `http_flash_deinit` and `http_wr_to_flash` of `app/http/utils_httpc.c`: the bytes of
a download gather in `wr_buf` and are handed on in blocks. `otaHttp` tells whether the build has
`CFG_SUPPORT_OTA_HTTP`.
-/
namespace Bk7251.Http

def HTTP_FLASH_WR_BUF_MAX (otaHttp : Bool) : Nat := if otaHttp then 1048 else 1024

/-- A payload handed on. -/
inductive Block where
  | storeBlock (block : UInt32) (src : List UInt8)
  | httpFlashWr (src : List UInt8)

def Block.src : Block → List UInt8
  | storeBlock _ src => src
  | httpFlashWr src => src

/-- `HTTP_DATA_ST`, with `ota_wr_block`. -/
structure HttpData where
  httpTotal : UInt32
  doData : Bool
  /-- The first `wr_last_len` bytes of `wr_buf`. -/
  wrBuf : List UInt8
  otaWrBlock : UInt32
  /-- The blocks handed on so far. -/
  blocks : List Block

namespace HttpData

variable (otaHttp : Bool)

def flashInit (h : HttpData) : HttpData := { h with wrBuf := [], otaWrBlock := 0 }

def flashDeinit (h : HttpData) : HttpData := { h with wrBuf := [], otaWrBlock := 0 }

/-- What `wr_buf` holds is handed to `store_block` or to `http_flash_wr`. -/
def handOn (h : HttpData) : HttpData :=
  { h with
    blocks := h.blocks ++ [if otaHttp then .storeBlock h.otaWrBlock h.wrBuf else .httpFlashWr h.wrBuf] }

/-- One turn of the loop of `http_wr_to_flash`: as much of `page` as fits, and a full block goes. -/
def wrTurn (h : HttpData) (page : List UInt8) : HttpData :=
  let h := { h with wrBuf := h.wrBuf ++ page.take (HTTP_FLASH_WR_BUF_MAX otaHttp - h.wrBuf.length) }
  if HTTP_FLASH_WR_BUF_MAX otaHttp ≤ h.wrBuf.length then
    { h.handOn otaHttp with
      wrBuf := []
      otaWrBlock := if otaHttp then h.otaWrBlock + 1 else h.otaWrBlock }
  else h

/-- The loop of `http_wr_to_flash`, for as many turns as there are bytes at most. -/
def wrLoop : Nat → HttpData → List UInt8 → HttpData
  | 0, h, _ => h
  | turns + 1, h, page =>
    if page = [] then h
    else
      wrLoop turns (h.wrTurn otaHttp page)
        (page.drop (HTTP_FLASH_WR_BUF_MAX otaHttp - h.wrBuf.length))

def wrToFlash (h : HttpData) (page : List UInt8) : HttpData := wrLoop otaHttp page.length h page

/-- The payloads handed on, one after the other. -/
def handed (h : HttpData) : List UInt8 := h.blocks.flatMap Block.src

/-- All that was written: what was handed on, and what waits in `wr_buf`. -/
def written (h : HttpData) : List UInt8 := h.handed ++ h.wrBuf

/-- There is room in `wr_buf`, and only full blocks were handed on. -/
structure Blocked (h : HttpData) : Prop where
  room : h.wrBuf.length < HTTP_FLASH_WR_BUF_MAX otaHttp
  full : ∀ b ∈ h.blocks, b.src.length = HTTP_FLASH_WR_BUF_MAX otaHttp

variable {otaHttp} {h : HttpData}

theorem HTTP_FLASH_WR_BUF_MAX_pos : 0 < HTTP_FLASH_WR_BUF_MAX otaHttp := by
  cases otaHttp <;> decide

theorem handOn_handed (h : HttpData) : (h.handOn otaHttp).handed = h.written := by
  cases otaHttp <;> simp [handOn, handed, written, Block.src]

/-- Full blocks have a multiple of the block size of bytes. -/
theorem dvd_handed (full : ∀ b ∈ h.blocks, b.src.length = HTTP_FLASH_WR_BUF_MAX otaHttp) :
    HTTP_FLASH_WR_BUF_MAX otaHttp ∣ h.handed.length := by
  rw [handed]
  generalize h.blocks = blocks at full
  induction blocks with
  | nil => exact Nat.dvd_zero _
  | cons b bs ih =>
    rw [List.flatMap_cons, List.length_append, full b (by simp)]
    exact Nat.dvd_add (Nat.dvd_refl _) (ih fun c member => full c (List.mem_cons_of_mem _ member))

/-- A turn takes its bytes off the page, and keeps the order. -/
theorem wrTurn_written (h : HttpData) (page : List UInt8) :
    (h.wrTurn otaHttp page).written =
      h.written ++ page.take (HTTP_FLASH_WR_BUF_MAX otaHttp - h.wrBuf.length) := by
  unfold wrTurn
  simp only
  split
  · change (handOn otaHttp _).handed ++ [] = _
    rw [List.append_nil, handOn_handed, written, written, List.append_assoc]
    rfl
  · rw [written, written, List.append_assoc]
    rfl

theorem wrTurn_room (h : HttpData) (page : List UInt8) :
    (h.wrTurn otaHttp page).wrBuf.length < HTTP_FLASH_WR_BUF_MAX otaHttp := by
  unfold wrTurn
  simp only
  split
  · exact HTTP_FLASH_WR_BUF_MAX_pos
  next short => exact Nat.not_le.mp short

theorem wrTurn_full (blocked : h.Blocked otaHttp) (page : List UInt8) :
    (h.wrTurn otaHttp page).Blocked otaHttp := by
  refine ⟨wrTurn_room h page, ?_⟩
  unfold wrTurn
  simp only
  split
  next full =>
    intro b member
    rcases List.mem_append.mp member with old | new
    · exact blocked.full b old
    · -- a full block has exactly as many bytes as fit
      have exact : (h.wrBuf ++ page.take (HTTP_FLASH_WR_BUF_MAX otaHttp - h.wrBuf.length)).length =
          HTTP_FLASH_WR_BUF_MAX otaHttp := by
        have room := blocked.room
        simp only [List.length_append, List.length_take] at full ⊢
        omega
      rw [List.mem_singleton.mp new]
      split
      · exact exact
      · exact exact
  · exact blocked.full

theorem wrLoop_room (turns : Nat) (room : h.wrBuf.length < HTTP_FLASH_WR_BUF_MAX otaHttp)
    (page : List UInt8) :
    (wrLoop otaHttp turns h page).wrBuf.length < HTTP_FLASH_WR_BUF_MAX otaHttp := by
  induction turns generalizing h page with
  | zero => exact room
  | succ turns ih =>
    rw [wrLoop]
    split
    · exact room
    · exact ih (wrTurn_room h page) _

theorem wrLoop_full (turns : Nat) (blocked : h.Blocked otaHttp) (page : List UInt8) :
    (wrLoop otaHttp turns h page).Blocked otaHttp := by
  induction turns generalizing h page with
  | zero => exact blocked
  | succ turns ih =>
    rw [wrLoop]
    split
    · exact blocked
    · exact ih (wrTurn_full blocked page) _

/-- With room in `wr_buf` every turn takes at least one byte. -/
theorem wrLoop_written (turns : Nat) (room : h.wrBuf.length < HTTP_FLASH_WR_BUF_MAX otaHttp)
    (page : List UInt8) (enough : page.length ≤ turns) :
    (wrLoop otaHttp turns h page).written = h.written ++ page := by
  induction turns generalizing h page with
  | zero =>
    rw [List.length_eq_zero_iff.mp (Nat.le_zero.mp enough), List.append_nil]
    rfl
  | succ turns ih =>
    rw [wrLoop]
    split
    next none => rw [none, List.append_nil]
    next some =>
      -- the turn took a byte, so one turn less is enough for the rest
      have left : (page.drop (HTTP_FLASH_WR_BUF_MAX otaHttp - h.wrBuf.length)).length ≤ turns := by
        have bytes := List.length_pos_of_ne_nil some
        rw [List.length_drop]
        omega
      rw [ih (wrTurn_room h page) _ left, wrTurn_written, List.append_assoc, List.take_append_drop]

/-- What was handed on, with what waits in `wr_buf`, is all that was written, in order. -/
theorem wrToFlash_written (room : h.wrBuf.length < HTTP_FLASH_WR_BUF_MAX otaHttp)
    (page : List UInt8) : (h.wrToFlash otaHttp page).written = h.written ++ page :=
  wrLoop_written page.length room page (Nat.le_refl _)

theorem wrToFlash_room (room : h.wrBuf.length < HTTP_FLASH_WR_BUF_MAX otaHttp)
    (page : List UInt8) :
    (h.wrToFlash otaHttp page).wrBuf.length < HTTP_FLASH_WR_BUF_MAX otaHttp :=
  wrLoop_room page.length room page

theorem wrToFlash_full (blocked : h.Blocked otaHttp) (page : List UInt8) :
    (h.wrToFlash otaHttp page).Blocked otaHttp :=
  wrLoop_full page.length blocked page

@[simp] theorem wrTurn_doData (h : HttpData) (page : List UInt8) :
    (h.wrTurn otaHttp page).doData = h.doData := by
  unfold wrTurn
  simp only
  split <;> rfl

@[simp] theorem wrTurn_httpTotal (h : HttpData) (page : List UInt8) :
    (h.wrTurn otaHttp page).httpTotal = h.httpTotal := by
  unfold wrTurn
  simp only
  split <;> rfl

theorem wrLoop_control (turns : Nat) (h : HttpData) (page : List UInt8) :
    (wrLoop otaHttp turns h page).doData = h.doData ∧
      (wrLoop otaHttp turns h page).httpTotal = h.httpTotal := by
  induction turns generalizing h page with
  | zero => exact ⟨rfl, rfl⟩
  | succ turns ih =>
    rw [wrLoop]
    split
    · exact ⟨rfl, rfl⟩
    · obtain ⟨doData, httpTotal⟩ := ih (h.wrTurn otaHttp page)
        (page.drop (HTTP_FLASH_WR_BUF_MAX otaHttp - h.wrBuf.length))
      exact ⟨doData.trans (wrTurn_doData h page), httpTotal.trans (wrTurn_httpTotal h page)⟩

@[simp] theorem wrToFlash_doData (h : HttpData) (page : List UInt8) :
    (h.wrToFlash otaHttp page).doData = h.doData := (wrLoop_control page.length h page).1

end HttpData

end Bk7251.Http
