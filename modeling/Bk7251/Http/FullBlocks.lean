import Bk7251.Http.HttpClient

/-!
# The blocks of a chunked download

Only the end of a response with a length hands on a block that is not full. What a chunked download
hands on is full blocks, whatever is received.
-/
namespace Bk7251.Http

open Lib

variable {otaHttp : Bool}

structure FullBlocks (otaHttp : Bool) (d : Download) : Prop where
  chunked : d.client.isChunked = true
  blocked : d.http.Blocked otaHttp

theorem read_blocked {len : Nat} {turns : List Turn} {http : HttpData} {stream buf : List UInt8}
    {lenRecv : Nat} {dataOver : Bool} {r : Received} (blocked : http.Blocked otaHttp)
    (read : halTcpReadLoop otaHttp len turns http stream buf lenRecv dataOver = some r) :
    r.http.Blocked otaHttp := by
  -- by induction on the turns; a turn writes at most once
  induction turns generalizing http stream buf lenRecv dataOver with
  | nil => cases read
  | cons turn turns ih =>
    -- the turns that end the loop write nothing
    have leave : ∀ errCode : Int,
        some ⟨if lenRecv ≠ 0 then lenRecv else errCode, buf, http, stream, turns⟩ = some r →
        r.http.Blocked otaHttp := by
      intro errCode same
      obtain rfl := Option.some.inj same
      exact blocked
    cases turn with
    | expired =>
      simp only [halTcpReadLoop] at read
      split at read
      · exact ih blocked read
      · exact leave 0 read
    | again =>
      simp only [halTcpReadLoop] at read
      split at read
      · exact ih blocked read
      · exact leave 0 read
    | closed => exact leave (-1) read
    | failed => exact leave (-2) read
    | segment n =>
      simp only [halTcpReadLoop] at read
      split at read
      · exact leave (-1) read
      · split at read
        · exact ih blocked read
        · generalize stream.take (min (n + 1) len) = bytes at read
          have written : HttpData.Blocked otaHttp
              (if http.doData = true then http.wrToFlash otaHttp bytes else http) := by
            split
            · exact HttpData.wrToFlash_full blocked bytes
            · exact blocked
          generalize (if http.doData = true then http.wrToFlash otaHttp bytes else http) = http'
            at read written
          split at read
          · exact ih written read
          · obtain rfl := Option.some.inj read
            exact written

theorem FullBlocks.recv {d d' : Download} {buf buf' : List UInt8} {maxLen new : Nat} {ret : Option Ret}
    (recv : httpclientRecv otaHttp d buf maxLen = some (ret, new, buf', d'))
    (full : FullBlocks otaHttp d) : FullBlocks otaHttp d' := by
  obtain ⟨r, read, same⟩ := Option.map_eq_some_iff.mp recv
  obtain ⟨rfl, rfl, rfl, rfl⟩ : _ = ret ∧ _ = new ∧ _ = buf' ∧ _ = d' := by simpa using same
  exact ⟨full.chunked, read_blocked full.blocked read⟩

theorem FullBlocks.header (fuel : Nat) {d d' : Download} {data : List UInt8} {len : Nat}
    {res : Except Ret (List UInt8 × Nat × Nat)} (full : FullBlocks otaHttp d)
    (run : headerLoop otaHttp fuel d data len = some (res, d')) : FullBlocks otaHttp d' := by
  induction fuel generalizing d data len with
  | zero => cases run
  | succ fuel ih =>
    rw [headerLoop] at run
    split at run
    · obtain ⟨-, rfl⟩ := Prod.mk.inj (Option.some.inj run)
      exact full
    · simp only at run
      split at run
      · obtain ⟨-, rfl⟩ := Prod.mk.inj (Option.some.inj run)
        exact full
      · split at run
        · cases run
        next recv =>
          obtain ⟨-, rfl⟩ := Prod.mk.inj (Option.some.inj run)
          exact full.recv recv
        next recv => exact ih (full.recv recv) run

theorem FullBlocks.chunkHeader (fuel : Nat) {d d' : Download} {data : List UInt8} {len : Nat}
    {res : Except Ret (List UInt8 × Nat × Nat)} (full : FullBlocks otaHttp d)
    (run : chunkHeader otaHttp fuel d data len = some (res, d')) : FullBlocks otaHttp d' := by
  rw [Http.chunkHeader] at run
  split at run
  · cases run
  next searched =>
    obtain ⟨-, rfl⟩ := Prod.mk.inj (Option.some.inj run)
    exact full.header fuel searched
  next searched =>
    obtain ⟨chunked, blocked⟩ := full.header fuel searched
    simp only at run
    split at run
    · obtain ⟨-, rfl⟩ := Prod.mk.inj (Option.some.inj run)
      exact ⟨chunked, blocked⟩
    · split at run
      · obtain ⟨-, rfl⟩ := Prod.mk.inj (Option.some.inj run)
        exact ⟨chunked, blocked⟩
      · obtain ⟨-, rfl⟩ := Prod.mk.inj (Option.some.inj run)
        exact ⟨chunked, blocked⟩

theorem FullBlocks.body (fuel : Nat) {d d' : Download} {count len readLen : Nat}
    {res : Except Ret (Nat × Nat)} (full : FullBlocks otaHttp d)
    (run : bodyLoop otaHttp fuel d count len readLen = some (res, d')) : FullBlocks otaHttp d' := by
  -- by induction on the turns of the loop; only its reads touch the blocks
  induction fuel generalizing d count len readLen with
  | zero => cases run
  | succ fuel ih =>
    rw [bodyLoop] at run
    simp only at run
    split at run
    · split at run
      · split at run
        · obtain ⟨-, rfl⟩ := Prod.mk.inj (Option.some.inj run)
          exact ⟨full.chunked, full.blocked⟩
        · obtain ⟨-, rfl⟩ := Prod.mk.inj (Option.some.inj run)
          exact ⟨full.chunked, full.blocked⟩
      · split at run
        · obtain ⟨-, rfl⟩ := Prod.mk.inj (Option.some.inj run)
          exact ⟨full.chunked, full.blocked⟩
        · split at run
          · cases run
          next recv =>
            obtain ⟨-, rfl⟩ := Prod.mk.inj (Option.some.inj run)
            exact FullBlocks.recv recv ⟨full.chunked, full.blocked⟩
          next recv => exact ih (FullBlocks.recv recv ⟨full.chunked, full.blocked⟩) run
    · obtain ⟨-, rfl⟩ := Prod.mk.inj (Option.some.inj run)
      exact ⟨full.chunked, full.blocked⟩

theorem FullBlocks.chunkEnd {d d' : Download} {data : List UInt8} {len : Nat}
    {res : Except Ret (List UInt8 × Nat)} (run : chunkEnd otaHttp d data len = some (res, d'))
    (full : FullBlocks otaHttp d) : FullBlocks otaHttp d' := by
  -- what follows the read changes the buffer only
  have after : ∀ (next : Download) (data : List UInt8) (len : Nat), FullBlocks otaHttp next →
      (if data.getD 0 0 ≠ 13 ∨ data.getD 1 0 ≠ 10 then some (.error .errorHttpUnresolvedDns, next)
        else if len < 2 ∨ HTTPCLIENT_CHUNK_SIZE < len then some (.error .fault, next)
        else some (.ok (splice data 0 ((data.drop 2).take (len - 2)), len - 2), next)) =
          some (res, d') → FullBlocks otaHttp d' := by
    intro next data len kept same
    split at same
    · obtain ⟨-, rfl⟩ := Prod.mk.inj (Option.some.inj same)
      exact kept
    · split at same
      · obtain ⟨-, rfl⟩ := Prod.mk.inj (Option.some.inj same)
        exact kept
      · obtain ⟨-, rfl⟩ := Prod.mk.inj (Option.some.inj same)
        exact kept
  rw [Http.chunkEnd] at run
  by_cases short : len < 2
  · simp only [short, if_true] at run
    cases recv : httpclientRecv otaHttp d (data.drop len) (HTTPCLIENT_CHUNK_SIZE - len - 1) with
    | none =>
      rw [recv] at run
      cases run
    | some result =>
      obtain ⟨ret, new, tail, next⟩ := result
      rw [recv] at run
      have kept := full.recv recv
      cases ret with
      | none => exact after next _ _ kept run
      | some error =>
        obtain ⟨-, rfl⟩ := Prod.mk.inj (Option.some.inj run)
        exact kept
  · rw [if_neg short] at run
    exact after d _ _ full run

theorem FullBlocks.chunk (fuel : Nat) {d d' : Download} {data : List UInt8} {len count readLen : Nat}
    {res : Except Ret (List UInt8 × Nat × Nat)} (full : FullBlocks otaHttp d)
    (run : chunk otaHttp fuel d data len count readLen = some (res, d')) : FullBlocks otaHttp d' := by
  have started : FullBlocks otaHttp { d with http := startBody otaHttp d.http data len readLen } := by
    -- `http_flash_init` empties `wr_buf`, so there is room whatever was in it
    have init : d.http.flashInit.Blocked otaHttp :=
      ⟨HttpData.HTTP_FLASH_WR_BUF_MAX_pos, full.blocked.full⟩
    have written := HttpData.wrToFlash_full init (data.take len)
    exact ⟨full.chunked, written.room, written.full⟩
  rw [Http.chunk] at run
  split at run
  · cases run
  next looped =>
    obtain ⟨-, rfl⟩ := Prod.mk.inj (Option.some.inj run)
    exact started.body fuel looped
  next looped =>
    obtain ⟨chunked, room, blocks⟩ := started.body fuel looped
    simp only [chunked, if_true] at run
    split at run
    · cases run
    next ended =>
      obtain ⟨-, rfl⟩ := Prod.mk.inj (Option.some.inj run)
      exact FullBlocks.chunkEnd ended ⟨chunked, room, blocks⟩
    next ended =>
      obtain ⟨-, rfl⟩ := Prod.mk.inj (Option.some.inj run)
      exact FullBlocks.chunkEnd ended ⟨chunked, room, blocks⟩

theorem FullBlocks.content (fuel : Nat) {d d' : Download} {data : List UInt8} {len count : Nat}
    {ret : Ret} (run : contentLoop otaHttp fuel d data len count = some (ret, d'))
    (full : FullBlocks otaHttp d) : FullBlocks otaHttp d' := by
  induction fuel generalizing d data len count with
  | zero => cases run
  | succ fuel ih =>
    rw [contentLoop] at run
    split at run
    · cases run
    next header =>
      obtain ⟨-, rfl⟩ := Prod.mk.inj (Option.some.inj run)
      split at header
      · exact full.chunkHeader _ header
      · cases header
    next next header =>
      have kept : FullBlocks otaHttp next := by
        split at header
        · exact full.chunkHeader _ header
        · obtain ⟨-, rfl⟩ := Prod.mk.inj (Option.some.inj header)
          exact full
      split at run
      · cases run
      next once =>
        obtain ⟨-, rfl⟩ := Prod.mk.inj (Option.some.inj run)
        exact kept.chunk _ once
      next once => exact ih run (kept.chunk _ once)

theorem FullBlocks.download (fuel : Nat) {d d' : Download} {data : List UInt8} {len : Nat} {ret : Ret}
    (full : FullBlocks otaHttp d) (run : download otaHttp fuel d data len = some (ret, d')) :
    FullBlocks otaHttp d' := by
  have once : ∀ fuel d data len ret d', FullBlocks otaHttp d →
      retrieveContent otaHttp fuel d data len = some (ret, d') → FullBlocks otaHttp d' := by
    intro fuel d data len ret d' full call
    -- a chunked response never takes the loop for an unknown length
    rw [retrieveContent, if_neg fun unknown => by simp [full.chunked] at unknown] at call
    exact FullBlocks.content fuel call ⟨full.chunked, full.blocked⟩
  induction fuel generalizing d data len with
  | zero => cases run
  | succ fuel ih =>
    rw [Http.download] at run
    split at run
    · cases run
    next call => exact ih (once _ _ _ _ _ _ full call) run
    next call =>
      obtain ⟨-, rfl⟩ := Prod.mk.inj (Option.some.inj run)
      exact once _ _ _ _ _ _ full call

theorem FullBlocks.dvd {d : Download} (full : FullBlocks otaHttp d) :
    HTTP_FLASH_WR_BUF_MAX otaHttp ∣ d.http.handed.length := HttpData.dvd_handed full.blocked.full

end Bk7251.Http
