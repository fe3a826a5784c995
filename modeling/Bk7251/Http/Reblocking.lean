import Bk7251.Http.HttpFlash

/-!
# Blocks do not depend on the segments

`http_wr_to_flash` writes byte after byte: however a download is cut into calls, the same full blocks
are handed on, and the same rest waits in `wr_buf`.
-/
namespace Bk7251.Http

namespace HttpData

variable {otaHttp : Bool}

/-- A single byte. -/
def put (otaHttp : Bool) (h : HttpData) (b : UInt8) : HttpData := h.wrTurn otaHttp [b]

/-- A turn that does not fill the block only appends. -/
private theorem wrTurn_short {h : HttpData} {page : List UInt8}
    (short : h.wrBuf.length + page.length < HTTP_FLASH_WR_BUF_MAX otaHttp) :
    h.wrTurn otaHttp page = { h with wrBuf := h.wrBuf ++ page } := by
  have whole : page.take (HTTP_FLASH_WR_BUF_MAX otaHttp - h.wrBuf.length) = page :=
    List.take_of_length_le (by omega)
  simp only [wrTurn, whole]
  rw [if_neg (by rw [List.length_append]; omega)]

/-- What a turn takes, byte by byte. -/
private theorem foldl_put_turn (page : List UInt8) : ∀ h : HttpData, page ≠ [] →
    h.wrBuf.length + page.length ≤ HTTP_FLASH_WR_BUF_MAX otaHttp →
    page.foldl (put otaHttp) h = h.wrTurn otaHttp page := by
  induction page with
  | nil => intro h present; exact absurd rfl present
  | cons b page ih =>
    intro h _ fits
    cases page with
    | nil => rfl
    | cons c page =>
      have lengths : (b :: c :: page).length = page.length + 2 := rfl
      have first : put otaHttp h b = { h with wrBuf := h.wrBuf ++ [b] } :=
        wrTurn_short (by simp only [List.length_singleton]; omega)
      rw [List.foldl_cons, first, ih _ (by simp) (by simp at *; omega)]
      -- both turns fill the buffer with the same bytes
      have all : (c :: page).take (HTTP_FLASH_WR_BUF_MAX otaHttp - (h.wrBuf ++ [b]).length) = c :: page :=
        List.take_of_length_le (by simp at *; omega)
      have all' : (b :: c :: page).take (HTTP_FLASH_WR_BUF_MAX otaHttp - h.wrBuf.length) = b :: c :: page :=
        List.take_of_length_le (by omega)
      simp only [wrTurn, all, all', List.append_assoc, List.singleton_append, handOn]

private theorem wrLoop_eq_foldl (turns : Nat) : ∀ (h : HttpData) (page : List UInt8),
    h.wrBuf.length < HTTP_FLASH_WR_BUF_MAX otaHttp → page.length ≤ turns →
    wrLoop otaHttp turns h page = page.foldl (put otaHttp) h := by
  induction turns with
  | zero =>
    intro h page _ enough
    rw [List.length_eq_zero_iff.mp (Nat.le_zero.mp enough)]
    rfl
  | succ turns ih =>
    intro h page room enough
    rw [wrLoop]
    split
    next none => rw [none]; rfl
    next some =>
      have bytes := List.length_pos_of_ne_nil some
      have split := List.take_append_drop (HTTP_FLASH_WR_BUF_MAX otaHttp - h.wrBuf.length) page
      have turn := @foldl_put_turn otaHttp
        (page.take (HTTP_FLASH_WR_BUF_MAX otaHttp - h.wrBuf.length)) h
        (List.ne_nil_of_length_pos (by rw [List.length_take]; omega)) (by rw [List.length_take]; omega)
      have same : h.wrTurn otaHttp (page.take (HTTP_FLASH_WR_BUF_MAX otaHttp - h.wrBuf.length)) =
          h.wrTurn otaHttp page := by
        simp only [wrTurn, List.take_take, Nat.min_self]
      rw [ih _ _ (wrTurn_room h page) (by rw [List.length_drop]; omega), ← same, ← turn, ← List.foldl_append,
        split]

theorem wrToFlash_eq_foldl {h : HttpData} (room : h.wrBuf.length < HTTP_FLASH_WR_BUF_MAX otaHttp)
    (page : List UInt8) : h.wrToFlash otaHttp page = page.foldl (put otaHttp) h :=
  wrLoop_eq_foldl page.length h page room (Nat.le_refl _)

/-- Calls one after the other write their pages as one. -/
theorem foldl_wrToFlash (pages : List (List UInt8)) : ∀ h : HttpData,
    h.wrBuf.length < HTTP_FLASH_WR_BUF_MAX otaHttp →
    pages.foldl (wrToFlash otaHttp) h = pages.flatten.foldl (put otaHttp) h := by
  induction pages with
  | nil => intro h _; rfl
  | cons page pages ih =>
    intro h room
    rw [List.foldl_cons, ih _ (wrToFlash_room room page), wrToFlash_eq_foldl room, List.flatten_cons,
      List.foldl_append]

end HttpData

open HttpData

/-- After `http_flash_init`, every block handed on is full, the blocks and the rest in `wr_buf` are the
bytes written, and another cut of the same bytes into calls ends in the same state. -/
theorem reblocking (otaHttp : Bool) (h : HttpData) (pages : List (List UInt8)) :
    let start := { h with blocks := [] }.flashInit
    let last := pages.foldl (wrToFlash otaHttp) start
    (∀ b ∈ last.blocks, b.src.length = HTTP_FLASH_WR_BUF_MAX otaHttp) ∧
      last.blocks.flatMap Block.src ++ last.wrBuf = pages.flatten ∧
      last.wrBuf.length < HTTP_FLASH_WR_BUF_MAX otaHttp ∧
      ∀ pages' : List (List UInt8), pages'.flatten = pages.flatten →
        pages'.foldl (wrToFlash otaHttp) start = last := by
  intro start last
  have blocked : start.Blocked otaHttp := ⟨HTTP_FLASH_WR_BUF_MAX_pos, fun _ member => nomatch member⟩
  have kept : ∀ (pages : List (List UInt8)) (h : HttpData), h.Blocked otaHttp →
      (pages.foldl (wrToFlash otaHttp) h).Blocked otaHttp ∧
        (pages.foldl (wrToFlash otaHttp) h).written = h.written ++ pages.flatten := by
    intro pages
    induction pages with
    | nil => intro h blocked; exact ⟨blocked, (List.append_nil _).symm⟩
    | cons page pages ih =>
      intro h blocked
      obtain ⟨full, written⟩ := ih _ (wrToFlash_full blocked page)
      refine ⟨full, ?_⟩
      rw [List.foldl_cons, written, wrToFlash_written blocked.room, List.flatten_cons, List.append_assoc]
  obtain ⟨full, written⟩ := kept pages start blocked
  refine ⟨full.full, ?_, full.room, fun pages' same => ?_⟩
  · change last.written = _
    rw [written]
    rfl
  · rw [foldl_wrToFlash pages' start blocked.room, same, ← foldl_wrToFlash pages start blocked.room]

end Bk7251.Http
