import Bk7251.Http.FullBlocks

/-!
# A body in pieces

A response with a length may take several calls of `httpclient_retrieve_content`, one for each filling
of the response buffer. Everything received is written, in order; only the call that ends the download
hands on what is left in `wr_buf`, and only of the bytes it has written itself.
-/
namespace Bk7251.Http

open Lib

/-! ### Reading -/

variable {otaHttp : Bool}

/-- While `do_data` is set, what is received is written. -/
theorem read_written {len : Nat} {turns : List Turn} {http : HttpData} {stream buf : List UInt8}
    {lenRecv : Nat} {dataOver : Bool} {r : Received} (doData : http.doData = true)
    (room : http.wrBuf.length < HTTP_FLASH_WR_BUF_MAX otaHttp)
    (read : halTcpReadLoop otaHttp len turns http stream buf lenRecv dataOver = some r) :
    r.http.written ++ r.stream = http.written ++ stream ∧
      r.ret.toNat + r.stream.length = lenRecv + stream.length ∧ r.http.doData = true ∧
      r.http.wrBuf.length < HTTP_FLASH_WR_BUF_MAX otaHttp := by
  -- by induction on the turns, with what is written and what is left of the stream as one whole
  induction turns generalizing http stream buf lenRecv dataOver with
  | nil => cases read
  | cons turn turns ih =>
    -- leaving the loop changes nothing
    have leave : ∀ errCode : Int, errCode ≤ 0 →
        some ⟨if lenRecv ≠ 0 then lenRecv else errCode, buf, http, stream, turns⟩ = some r →
        r.http.written ++ r.stream = http.written ++ stream ∧
          r.ret.toNat + r.stream.length = lenRecv + stream.length ∧ r.http.doData = true ∧
          r.http.wrBuf.length < HTTP_FLASH_WR_BUF_MAX otaHttp := by
      intro errCode negative same
      obtain rfl := Option.some.inj same
      refine ⟨rfl, ?_, doData, room⟩
      simp only
      split
      · rfl
      · omega
    cases turn with
    | expired =>
      simp only [halTcpReadLoop, doData, if_true] at read
      exact ih doData room read
    | again =>
      simp only [halTcpReadLoop] at read
      split at read
      · exact ih doData room read
      · exact leave 0 (Int.le_refl 0) read
    | closed => exact leave (-1) (by decide) read
    | failed => exact leave (-2) (by decide) read
    | segment n =>
      simp only [halTcpReadLoop] at read
      split at read
      · exact leave (-1) (by decide) read
      · split at read
        · exact ih doData room read
        · obtain ⟨rest, whole⟩ := List.take_prefix (min (n + 1) len) stream
          generalize stream.take (min (n + 1) len) = bytes at read whole
          -- the segment: its bytes go from the front of the stream to the end of what is written
          subst whole
          rw [List.drop_left] at read
          have kept : (http.wrToFlash otaHttp bytes).doData = true := by
            rw [HttpData.wrToFlash_doData, doData]
          have room' := HttpData.wrToFlash_room room bytes
          have order : (http.wrToFlash otaHttp bytes).written ++ rest =
              http.written ++ (bytes ++ rest) := by
            rw [HttpData.wrToFlash_written room, List.append_assoc]
          split at read
          · obtain ⟨written, lengths, after⟩ := ih kept room' read
            refine ⟨written.trans order, ?_, after⟩
            rw [lengths, List.length_append]
            omega
          · obtain rfl := Option.some.inj read
            refine ⟨order, ?_, kept, room'⟩
            simp only [Int.toNat_natCast, List.length_append]
            omega

/-- Everything received is written, in order, and there is nothing else. -/
structure Writing (otaHttp : Bool) (body : List UInt8) (d : Download) : Prop where
  doData : d.http.doData = true
  room : d.http.wrBuf.length < HTTP_FLASH_WR_BUF_MAX otaHttp
  whole : d.http.written ++ d.stream = body

theorem recv_written {body : List UInt8} {d d' : Download} {buf buf' : List UInt8} {maxLen new : Nat}
    {ret : Option Ret} (recv : httpclientRecv otaHttp d buf maxLen = some (ret, new, buf', d'))
    (writing : Writing otaHttp body d) :
    Writing otaHttp body d' ∧ new + d'.stream.length = d.stream.length ∧ d'.client = d.client ∧
      (ret = none ∨ ret = some .errorHttpConn) := by
  obtain ⟨r, read, same⟩ := Option.map_eq_some_iff.mp recv
  obtain ⟨rfl, rfl, -, rfl⟩ : _ = ret ∧ _ = new ∧ _ = buf' ∧ _ = d' := by simpa using same
  obtain ⟨written, lengths, doData, room⟩ := read_written writing.doData writing.room read
  refine ⟨⟨doData, room, written.trans writing.whole⟩, ?_, rfl, ?_⟩
  · rw [Nat.zero_add] at lengths
    exact lengths
  · split
    · exact .inr rfl
    · exact .inl rfl

/-! ### A response with a length -/

theorem toInt_length {n : Nat} (small : n < 2 ^ 31) : (UInt32.ofNat n).toInt32.toInt = n := by
  rw [UInt32.toInt32_ofNat', Int32.toInt_ofNat_of_lt small]

theorem ofInt_length {n : Nat} (small : n < 2 ^ 31) : (UInt32.ofInt n).toNat = n := by
  simp only [UInt32.ofInt, UInt32.toNat_ofNat']
  omega

theorem length_known {n : Nat} (small : n < 2 ^ 31) : UInt32.ofNat n ≠ -1 := by
  intro same
  have value := congrArg UInt32.toNat same
  simp at value
  omega

/-- The loop of a body inside a call, for any length of the response buffer. -/
structure Moving (otaHttp : Bool) (rest : List UInt8) (d : Download) (count len readLen : Nat) : Prop where
  writing : Writing otaHttp rest d
  blocked : d.http.Blocked otaHttp
  owed : d.client.retrieveLen = readLen
  /-- No more than the body is on its way. -/
  coming : len + d.stream.length ≤ readLen
  within : count ≤ d.client.limit

theorem recv_blocked {d d' : Download} {buf buf' : List UInt8} {maxLen new : Nat} {ret : Option Ret}
    (recv : httpclientRecv otaHttp d buf maxLen = some (ret, new, buf', d'))
    (blocked : d.http.Blocked otaHttp) : d'.http.Blocked otaHttp := by
  obtain ⟨r, read, same⟩ := Option.map_eq_some_iff.mp recv
  obtain ⟨rfl, rfl, rfl, rfl⟩ : _ = ret ∧ _ = new ∧ _ = buf' ∧ _ = d' := by simpa using same
  exact read_blocked blocked read

/-- One turn: the bytes that are there are counted, and some of the others are read. -/
theorem Moving.recv {rest : List UInt8} {d next : Download} {count len readLen maxLen new : Nat}
    {ret : Option Ret} {buf buf' : List UInt8} (moving : Moving otaHttp rest d count len readLen)
    (room : count + len < d.client.limit)
    (recv : httpclientRecv otaHttp
        { d with client := { d.client with retrieveLen := d.client.retrieveLen - len } } buf maxLen =
      some (ret, new, buf', next)) :
    Moving otaHttp rest next (count + len) new (readLen - len) ∧
      new + next.stream.length = d.stream.length ∧
      next.client = { d.client with retrieveLen := d.client.retrieveLen - len } := by
  have coming := moving.coming
  obtain ⟨writing, received, client, -⟩ :=
    recv_written recv ⟨moving.writing.doData, moving.writing.room, moving.writing.whole⟩
  change new + next.stream.length = d.stream.length at received
  refine ⟨⟨writing, recv_blocked recv moving.blocked, ?_, by omega, ?_⟩, received, client⟩
  · rw [client]
    change d.client.retrieveLen - (len : Int) = _
    rw [moving.owed]
    omega
  · rw [client]
    exact Nat.le_of_lt room

/-- How the loop ends: with an error of the connection, with a full response buffer, or with the body. -/
theorem body_moves {rest : List UInt8} (fuel : Nat) {d d' : Download} {count len readLen : Nat}
    {res : Except Ret (Nat × Nat)} (moving : Moving otaHttp rest d count len readLen)
    (run : bodyLoop otaHttp fuel d count len readLen = some (res, d')) :
    d'.http.Blocked otaHttp ∧ (res ≠ .error .errorHttpConn →
      d'.http.written ++ d'.stream = rest ∧ d'.stream.length ≤ d.stream.length ∧
      ((res = .error .retrieveMoreData ∧ d.client.limit ≤ count + readLen ∧
          d'.client = { d.client with retrieveLen := (count + readLen - d.client.limit : Nat) } ∧
          d'.stream.length + (readLen - len) ≤ d.stream.length + (count + readLen - d.client.limit)) ∨
        (∃ ended, res = .ok ended) ∧ count + readLen < d.client.limit ∧
          d'.client.isChunked = d.client.isChunked ∧
          d'.stream.length + (readLen - len) = d.stream.length)) := by
  induction fuel generalizing d count len readLen with
  | zero => cases run
  | succ fuel ih =>
    have ⟨writing, blocked, owed, coming, within⟩ := moving
    have short : len ≤ readLen := by omega
    rw [bodyLoop] at run
    simp only [Nat.min_eq_left short] at run
    split at run
    next room =>
      rw [if_neg (Nat.not_lt.mpr short)] at run
      split at run
      next done =>
        obtain ⟨rfl, rfl⟩ := Prod.mk.inj (Option.some.inj run)
        refine ⟨blocked, fun _ => ⟨writing.whole, Nat.le_refl _, .inr ⟨⟨_, rfl⟩, by omega, rfl, ?_⟩⟩⟩
        change d.stream.length + (readLen - len) = d.stream.length
        omega
      next more =>
        split at run
        · cases run
        next ret _ _ next recv =>
          obtain ⟨rfl, rfl⟩ := Prod.mk.inj (Option.some.inj run)
          have kept := recv_blocked recv blocked
          obtain ⟨-, -, -, error⟩ := recv_written recv ⟨writing.doData, writing.room, writing.whole⟩
          refine ⟨kept, fun other => ?_⟩
          rcases error with none | conn
          · cases none
          · exact absurd (congrArg Except.error (Option.some.inj conn)) other
        next new _ next recv =>
          obtain ⟨moving', received, client⟩ := moving.recv room recv
          have limit : next.client.limit = d.client.limit := by
            rw [client]
            rfl
          obtain ⟨full, result⟩ := ih moving' run
          refine ⟨full, fun other => ?_⟩
          obtain ⟨whole, fewer, outcome⟩ := result other
          refine ⟨whole, by omega, ?_⟩
          rcases outcome with ⟨more', enough, client', left⟩ | ⟨ended, small, chunked, left⟩
          · refine .inl ⟨more', by omega, ?_, by omega⟩
            rw [client', client, show count + len + (readLen - len) = count + readLen by omega]
            rfl
          · refine .inr ⟨ended, by omega, ?_, by omega⟩
            rw [chunked, client]
    next full =>
      obtain ⟨rfl, rfl⟩ := Prod.mk.inj (Option.some.inj run)
      refine ⟨blocked, fun _ => ⟨writing.whole, Nat.le_refl _, .inl ⟨rfl, by omega, ?_, ?_⟩⟩⟩
      · have owed' : d.client.retrieveLen - (d.client.limit - count : Nat) =
            (count + readLen - d.client.limit : Nat) := by
          rw [owed]
          omega
        simp only [owed']
      · change d.stream.length + (readLen - len) ≤ _
        omega

/-- A call of `httpclient_retrieve_content` with `left` bytes of the body to come, of which `data` holds
the first. -/
structure Piece (otaHttp : Bool) (d : Download) (data : List UInt8) (len left : Nat) : Prop where
  plain : d.client.isChunked = false
  known : d.client.responseContentLen ≠ -1
  owed : d.client.retrieveLen = left
  small : left < 2 ^ 31
  there : (data.take len).length = len
  coming : len + d.stream.length ≤ left
  full : ∀ b ∈ d.http.blocks, b.src.length = HTTP_FLASH_WR_BUF_MAX otaHttp

/-- What a finished download hands on: full blocks, and what is left of the last call's bytes. -/
def EndsWith (otaHttp : Bool) (blocks : List Block) (bytes : List UInt8) : Prop :=
  ∃ full last, blocks = full ++ [last] ∧ (∀ b ∈ full, b.src.length = HTTP_FLASH_WR_BUF_MAX otaHttp) ∧
    last.src <:+ bytes ∧ last.src.length = bytes.length % HTTP_FLASH_WR_BUF_MAX otaHttp

/-- What waits in `wr_buf` is the end of what was written since the last `http_flash_init`. -/
theorem wrBuf_suffix {h : HttpData} {before bytes : List UInt8} (blocked : h.Blocked otaHttp)
    (whole : h.written = before ++ bytes) (init : HTTP_FLASH_WR_BUF_MAX otaHttp ∣ before.length) :
    h.wrBuf <:+ bytes ∧ h.wrBuf.length = bytes.length % HTTP_FLASH_WR_BUF_MAX otaHttp := by
  obtain ⟨blocks, handed⟩ := HttpData.dvd_handed blocked.full
  obtain ⟨blocks', earlier⟩ := init
  have lengths : h.handed.length + h.wrBuf.length = before.length + bytes.length := by
    rw [← List.length_append, ← List.length_append, ← whole, HttpData.written]
  have rest : h.wrBuf.length = bytes.length % HTTP_FLASH_WR_BUF_MAX otaHttp := by
    rw [handed, earlier] at lengths
    rw [← Nat.mod_eq_of_lt blocked.room, ← Nat.mul_add_mod _ blocks, lengths, Nat.mul_add_mod]
  have waiting : h.wrBuf <:+ h.written := ⟨_, rfl⟩
  refine ⟨List.suffix_of_suffix_length_le waiting ⟨_, whole.symm⟩ ?_, rest⟩
  rw [rest]
  exact Nat.mod_le _ _

theorem startBody_moves {d : Download} {data : List UInt8} {len left : Nat}
    (piece : Piece otaHttp d data len left) :
    Moving otaHttp (d.http.handed ++ (data.take len ++ d.stream))
      { d with http := startBody otaHttp d.http data len left } 0 len left := by
  have init : d.http.flashInit.Blocked otaHttp := ⟨HttpData.HTTP_FLASH_WR_BUF_MAX_pos, piece.full⟩
  have blocked := HttpData.wrToFlash_full init (data.take len)
  refine ⟨⟨rfl, blocked.room, ?_⟩, ⟨blocked.room, blocked.full⟩, piece.owed, piece.coming, Nat.zero_le _⟩
  change (d.http.flashInit.wrToFlash otaHttp (data.take len)).written ++ d.stream = _
  rw [HttpData.wrToFlash_written init.room, ← List.append_assoc]
  simp [HttpData.written, HttpData.handed, HttpData.flashInit]

/-- A call with `left` of these bytes to come ends the download, or fails, or leaves a piece for the
next call. -/
def PieceEnds (otaHttp : Bool) (d d' : Download) (bytes : List UInt8) (left : Nat) (ret : Ret) : Prop :=
  ret = .success ∧ left < d.client.limit ∧ EndsWith otaHttp d'.http.blocks bytes ∧ bytes.length = left ∨
    (∀ b ∈ d'.http.blocks, b.src.length = HTTP_FLASH_WR_BUF_MAX otaHttp) ∧
      (ret = .errorHttpConn ∨ ret = .retrieveMoreData ∧ d.client.limit ≤ left ∧
        d'.client = { d.client with retrieveLen := (left - d.client.limit : Nat) } ∧
        d'.stream <:+ d.stream ∧ d'.stream.length ≤ left - d.client.limit)

/-- What the bytes of a call come to: they are handed on where it ends the download, and else the call leaves
some of them in `wr_buf`. -/
def PieceWritten (otaHttp : Bool) (d d' : Download) (bytes : List UInt8) (left : Nat) (ret : Ret) : Prop :=
  (ret = .success → d'.http.handed = d.http.handed ++ bytes) ∧
    (ret = .retrieveMoreData → d'.http.Blocked otaHttp ∧
      d'.http.written ++ d'.stream = d.http.handed ++ bytes ∧
      d'.stream.length + left ≤ bytes.length + (left - d.client.limit))

theorem chunk_piece {d d' : Download} {data : List UInt8} {len left : Nat}
    (piece : Piece otaHttp d data len left) (fuel : Nat) {res : Except Ret (List UInt8 × Nat × Nat)}
    (run : chunk otaHttp fuel d data len 0 left = some (res, d')) :
    ∃ ret, res = .error ret ∧ PieceEnds otaHttp d d' (data.take len ++ d.stream) left ret ∧
      PieceWritten otaHttp d d' (data.take len ++ d.stream) left ret := by
  have moving := startBody_moves piece
  have there := piece.there
  have coming := piece.coming
  rw [chunk] at run
  split at run
  · cases run
  next ret next looped =>
    obtain ⟨rfl, rfl⟩ := Prod.mk.inj (Option.some.inj run)
    obtain ⟨blocked, result⟩ := body_moves fuel moving looped
    by_cases conn : ret = .errorHttpConn
    · exact ⟨ret, rfl, .inr ⟨blocked.full, .inl conn⟩, fun success => (by cases conn.symm.trans success),
        fun more => by cases conn.symm.trans more⟩
    · obtain ⟨whole, fewer, ⟨more, enough, client, left'⟩ | ⟨⟨ended, ok⟩, -⟩⟩ :=
        result fun same => conn (Except.error.inj same)
      · rw [Nat.zero_add] at enough client left'
        have again := Except.error.inj more
        change next.stream.length + (left - len) ≤ d.stream.length + (left - d.client.limit) at left'
        refine ⟨ret, rfl, .inr ⟨blocked.full, .inr ⟨again, enough, client, ?_, ?_⟩⟩, fun success => ?_,
          fun _ => ⟨blocked, whole, ?_⟩⟩
        · have later : next.stream <:+ d.http.handed ++ (data.take len ++ d.stream) := ⟨_, whole⟩
          exact List.suffix_of_suffix_length_le later
            ⟨d.http.handed ++ data.take len, List.append_assoc ..⟩ fewer
        · omega
        · cases again.symm.trans success
        · rw [List.length_append, there]
          omega
      · cases ok
  next count len' next looped =>
    obtain ⟨blocked, result⟩ := body_moves fuel moving looped
    obtain ⟨whole, -, ⟨more, -⟩ | ⟨-, small, chunked, left'⟩⟩ := result fun same => by cases same
    · cases more
    · have plain : next.client.isChunked = false := chunked.trans piece.plain
      simp only [plain, Bool.false_eq_true, if_false] at run
      obtain ⟨rfl, rfl⟩ := Prod.mk.inj (Option.some.inj run)
      change next.stream.length + (left - len) = d.stream.length at left'
      have none : next.stream = [] := List.length_eq_zero_iff.mp (by omega)
      rw [none, List.append_nil] at whole
      obtain ⟨suffix, length⟩ := wrBuf_suffix blocked whole (HttpData.dvd_handed piece.full)
      rw [Nat.zero_add] at small
      refine ⟨_, rfl, .inl ⟨rfl, small, ⟨next.http.blocks, _, rfl, blocked.full, ?_⟩, ?_⟩, fun _ => ?_,
        fun more => by cases more⟩
      · cases otaHttp <;> exact ⟨suffix, length⟩
      · rw [List.length_append, there]
        omega
      · change (HttpData.handOn otaHttp { next.http with doData := false }).handed = _
        rw [HttpData.handOn_handed]
        exact whole

theorem contentLoop_piece {d d' : Download} {data : List UInt8} {len left : Nat}
    (piece : Piece otaHttp d data len left) (fuel : Nat) {ret : Ret}
    (run : contentLoop otaHttp fuel d data len 0 = some (ret, d')) :
    PieceEnds otaHttp d d' (data.take len ++ d.stream) left ret ∧
      PieceWritten otaHttp d d' (data.take len ++ d.stream) left ret := by
  cases fuel with
  | zero => cases run
  | succ fuel =>
    have total : (UInt32.ofInt d.client.retrieveLen).toNat = left := by
      rw [piece.owed, ofInt_length piece.small]
    simp only [contentLoop, piece.plain, Bool.false_eq_true, false_and, if_false, total] at run
    split at run
    · cases run
    next res next once =>
      obtain ⟨rfl, rfl⟩ := Prod.mk.inj (Option.some.inj run)
      obtain ⟨ret', same, ends⟩ := chunk_piece piece _ once
      obtain rfl := Except.error.inj same
      exact ends
    next data' len' count next once =>
      -- a further turn would need a chunk that ends without ending the call
      obtain ⟨ret', same, -⟩ := chunk_piece piece _ once
      cases same

theorem retrieve_piece {d d' : Download} {data : List UInt8} {len left : Nat}
    (piece : Piece otaHttp d data len left) (fuel : Nat) {ret : Ret}
    (run : retrieveContent otaHttp fuel d data len = some (ret, d')) :
    PieceEnds otaHttp { d with client.isMore := true } d' (data.take len ++ d.stream) left ret ∧
      PieceWritten otaHttp { d with client.isMore := true } d' (data.take len ++ d.stream) left ret := by
  rw [retrieveContent, if_neg fun unknown => piece.known unknown.1] at run
  have piece' : Piece otaHttp { d with client.isMore := true } data len left :=
    ⟨piece.plain, piece.known, piece.owed, piece.small, piece.there, piece.coming, piece.full⟩
  exact contentLoop_piece piece' fuel run

/-- A call that leaves a piece has filled the response buffer, and what then waits in `wr_buf` is lost to the
next one. -/
theorem PieceWritten.more {d d' : Download} {bytes : List UInt8} {left : Nat}
    (written : PieceWritten otaHttp d d' bytes left .retrieveMoreData)
    (full : ∀ b ∈ d.http.blocks, b.src.length = HTTP_FLASH_WR_BUF_MAX otaHttp)
    (coming : bytes.length ≤ left) (enough : d.client.limit ≤ left)
    (rest : d'.stream.length = left - d.client.limit) :
    bytes.length = left ∧ d'.http.wrBuf.length = d.client.limit % HTTP_FLASH_WR_BUF_MAX otaHttp ∧
      d'.http.handed ++ (d'.http.wrBuf ++ d'.stream) = d.http.handed ++ bytes := by
  obtain ⟨blocked, whole, fewer⟩ := written.2 rfl
  have all : bytes.length = left := by omega
  obtain ⟨before, earlier⟩ := HttpData.dvd_handed full
  obtain ⟨blocks, later⟩ := HttpData.dvd_handed blocked.full
  have lengths := congrArg List.length whole
  simp only [HttpData.written, List.length_append, earlier, later, rest] at lengths
  refine ⟨all, ?_, ?_⟩
  · have filled : HTTP_FLASH_WR_BUF_MAX otaHttp * blocks + d'.http.wrBuf.length =
        HTTP_FLASH_WR_BUF_MAX otaHttp * before + d.client.limit := by omega
    rw [← Nat.mod_eq_of_lt blocked.room, ← Nat.mul_add_mod _ blocks, filled, Nat.mul_add_mod]
  · rw [← List.append_assoc]
    exact whole

/-- The call behind it. -/
theorem Piece.next {d d' : Download} {data : List UInt8} {len left : Nat} (piece : Piece otaHttp d data len left)
    (client : d'.client = { d.client with isMore := true, retrieveLen := (left - d.client.limit : Nat) })
    (fewer : d'.stream.length ≤ left - d.client.limit)
    (full : ∀ b ∈ d'.http.blocks, b.src.length = HTTP_FLASH_WR_BUF_MAX otaHttp) :
    Piece otaHttp d' (List.replicate HTTPCLIENT_CHUNK_SIZE 0) 0 (left - d.client.limit) := by
  refine ⟨?_, ?_, ?_, ?_, rfl, by rw [Nat.zero_add]; exact fewer, full⟩
  · rw [client]
    exact piece.plain
  · rw [client]
    exact piece.known
  · rw [client]
  · have small := piece.small
    omega

/-- A download that succeeds has handed on all but what each of the calls before the last has left behind. -/
theorem download_written {d d' : Download} {data : List UInt8} {len left : Nat}
    (piece : Piece otaHttp d data len left) (fuel : Nat)
    (run : download otaHttp fuel d data len = some (.success, d')) :
    (data.take len ++ d.stream).length = left ∧
      d'.http.handed.length + left / d.client.limit * (d.client.limit % HTTP_FLASH_WR_BUF_MAX otaHttp) =
        d.http.handed.length + left ∧
      (left < d.client.limit ∨ HTTP_FLASH_WR_BUF_MAX otaHttp ∣ d.client.limit →
        d'.http.handed = d.http.handed ++ (data.take len ++ d.stream)) := by
  induction fuel generalizing d data len left with
  | zero => cases run
  | succ fuel ih =>
    rw [download] at run
    split at run
    · cases run
    next next call =>
      obtain ⟨⟨same, -⟩ | ⟨full, conn | ⟨-, enough, client, -, fewer⟩⟩, written⟩ := retrieve_piece piece _ call
      · cases same
      · cases conn
      · change d.client.limit ≤ left at enough
        change next.stream.length ≤ left - d.client.limit at fewer
        have limit : next.client.limit = d.client.limit := by
          rw [client]
          rfl
        obtain ⟨rest, handed, exactly⟩ := ih (piece.next client fewer full) run
        change next.stream.length = left - d.client.limit at rest
        have coming : (data.take len ++ d.stream).length ≤ left := by
          rw [List.length_append, piece.there]
          exact piece.coming
        obtain ⟨all, waiting, whole⟩ := written.more piece.full coming enough rest
        change next.http.wrBuf.length = d.client.limit % _ at waiting
        change _ = d.http.handed ++ (data.take len ++ d.stream) at whole
        have lengths := congrArg List.length whole
        simp only [List.length_append, waiting, rest] at lengths
        rw [List.length_append] at all
        rw [limit] at handed exactly
        refine ⟨by rw [List.length_append, all], ?_, fun fits => ?_⟩
        · rcases Nat.eq_zero_or_pos d.client.limit with none | some
          · rw [none] at handed lengths waiting ⊢
            simp only [Nat.div_zero, Nat.zero_mod, Nat.mul_zero, Nat.sub_zero] at handed lengths ⊢
            omega
          · rw [Nat.div_eq_sub_div some enough, Nat.succ_mul]
            omega
        · -- a cut on the edge of a block leaves nothing behind
          have edge := fits.resolve_left (Nat.not_lt.mpr enough)
          have empty : next.http.wrBuf = [] := by
            rw [Nat.mod_eq_zero_of_dvd edge] at waiting
            exact List.length_eq_zero_iff.mp waiting
          rw [empty, List.nil_append] at whole
          rw [exactly (.inr edge)]
          exact whole
    next ret next other call =>
      obtain ⟨rfl, rfl⟩ := Prod.mk.inj (Option.some.inj run)
      obtain ⟨⟨-, small, -, whole⟩ | ⟨-, conn | ⟨more, -⟩⟩, written⟩ := retrieve_piece piece _ call
      · change left < d.client.limit at small
        have handed := written.1 rfl
        refine ⟨whole, ?_, fun _ => handed⟩
        rw [Nat.div_eq_of_lt small, Nat.zero_mul, handed, List.length_append, whole]
        rfl
      · cases conn
      · cases more

end Bk7251.Http
