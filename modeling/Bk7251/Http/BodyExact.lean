import Bk7251.Http.Fillings

/-!
# What a download hands on

With a length in the header, what a download hands on is the body, however the stream is cut, unless a
filling of the response buffer ends inside a block. In a chunked response nothing but full blocks is
handed on, because nobody flushes the last one, and what came with the header of a chunk is written
whole; and the end of a chunk is looked for where the chunk itself began.
-/
namespace Bk7251.Http

open Lib

/-! ### Responses -/

/-- The header of a chunk: digits and extensions. -/
structure SizeLine where
  digits : List UInt8
  extension : List UInt8
  present : digits ≠ []
  hex : ∀ c ∈ digits, isHexDigit c = true
  /-- An extension starts with a semicolon or a blank. -/
  start : ∀ c, extension.head? = some c → c = 59 ∨ c = 32 ∨ c = 9
  line : 13 ∉ extension

namespace SizeLine

def bytes (l : SizeLine) : List UInt8 := l.digits ++ l.extension

def value (l : SizeLine) : Nat := l.digits.foldl (fun n c => 16 * n + hexVal c) 0

end SizeLine

structure Chunk where
  header : SizeLine
  data : List UInt8
  size : header.value = data.length
  present : data ≠ []

/-- A response, from the end of its headers on. -/
inductive Response where
  | contentLength (body : List UInt8)
  | chunked (chunks : List Chunk) (last : SizeLine) (isLast : last.value = 0) (trailer : List UInt8)

namespace Response

def body : Response → List UInt8
  | contentLength body => body
  | chunked chunks .. => chunks.flatMap Chunk.data

def isChunked : Response → Bool
  | contentLength _ => false
  | chunked .. => true

/-- The bytes behind the headers. -/
def wire : Response → List UInt8
  | contentLength body => body
  | chunked chunks last _ trailer =>
    chunks.flatMap (fun c => c.header.bytes ++ [13, 10] ++ c.data ++ [13, 10]) ++
      (last.bytes ++ [13, 10] ++ (trailer ++ [13, 10]))

/-- `client_data` after the headers; `%d` reads a length that an `int` can hold. -/
def client (r : Response) (responseBufLen : UInt32) : ClientData :=
  match r with
  | contentLength body =>
    ⟨true, false, (UInt32.ofNat body.length).toInt32.toInt, UInt32.ofNat body.length, responseBufLen⟩
  | chunked .. => ⟨true, true, 0, 0, responseBufLen⟩

/-- The length is given and fits into an `int`, and below the length of the response buffer unless that
is filled with whole blocks; or there is no body, or the first chunk is taken whole and does not start
like the line end that is looked for there. -/
def Fits (otaHttp : Bool) (r : Response) (responseBufLen : UInt32) : Prop :=
  match r with
  | contentLength body =>
    body.length < 2 ^ 31 ∧ (body.length < (responseBufLen - 1).toNat ∨
      HTTP_FLASH_WR_BUF_MAX otaHttp ∣ (responseBufLen - 1).toNat)
  | chunked [] .. => True
  | chunked (chunk :: _) .. =>
    chunk.data.head? ≠ some 13 ∧ chunk.data.length < (responseBufLen - 1).toNat

end Response

/-- A download of `r` starts with the first `len` bytes behind the headers in `data`, and the others
on their way; nothing has been written yet. -/
structure Start (r : Response) (responseBufLen : UInt32) (d : Download) (data : List UInt8)
    (len : Nat) : Prop where
  client : d.client = r.client responseBufLen
  size : data.length = HTTPCLIENT_CHUNK_SIZE
  within : len < HTTPCLIENT_CHUNK_SIZE
  wire : data.take len ++ d.stream = r.wire
  idle : d.http.doData = false
  fresh : d.http.wrBuf = [] ∧ d.http.blocks = []

variable {otaHttp : Bool}

/-! ### A response with a length -/

/-- The first call of the download of a body of known length. -/
theorem Start.piece {body : List UInt8} {responseBufLen : UInt32} {d : Download} {data : List UInt8}
    {len : Nat} (start : Start (.contentLength body) responseBufLen d data len)
    (small : body.length < 2 ^ 31) : Piece otaHttp d data len body.length := by
  have wire : data.take len ++ d.stream = body := start.wire
  have there : (data.take len).length = len := by
    rw [List.length_take, start.size]
    exact Nat.min_eq_left (Nat.le_of_lt start.within)
  refine ⟨?_, ?_, ?_, small, there, ?_, ?_⟩
  · rw [start.client]
    rfl
  · rw [start.client]
    exact length_known small
  · rw [start.client]
    exact toInt_length small
  · rw [← wire, List.length_append, there]
  · rw [start.fresh.2]
    exact fun _ member => nomatch member

/-- A download of a body of known length that succeeds hands it on where it takes one call, or each call
but the last one ends on the edge of a block, and nowhere else. -/
theorem Start.handed_iff {body : List UInt8} {responseBufLen : UInt32} {d d' : Download} {data : List UInt8}
    {len : Nat} (start : Start (.contentLength body) responseBufLen d data len) (small : body.length < 2 ^ 31)
    (fuel : Nat) (run : download otaHttp fuel d data len = some (.success, d')) :
    d'.http.handed = body ↔ (Response.contentLength body).Fits otaHttp responseBufLen := by
  have wire : data.take len ++ d.stream = body := start.wire
  have limit : d.client.limit = (responseBufLen - 1).toNat := by
    rw [start.client]
    rfl
  have fresh : d.http.handed = [] := by
    rw [HttpData.handed, start.fresh.2]
    rfl
  obtain ⟨-, lost, exactly⟩ := download_written (start.piece small) fuel run
  rw [fresh, wire, List.nil_append] at exactly
  rw [fresh, List.length_nil, Nat.zero_add] at lost
  rw [Response.Fits, ← limit, and_iff_right small]
  constructor
  · intro same
    rw [same] at lost
    rcases Nat.mul_eq_zero.mp (Nat.left_eq_add.mp lost.symm) with once | edge
    · -- one call, or a buffer that takes nothing
      rcases Nat.div_eq_zero_iff.mp once with none | below
      · rw [none]
        exact .inr (Nat.dvd_zero _)
      · exact .inl below
    · exact .inr (Nat.dvd_of_mod_eq_zero edge)
  · exact exactly

/-- A download that succeeds, whatever the body. -/
theorem exists_start (otaHttp : Bool) (body : List UInt8) (small : body.length < 2 ^ 31) {responseBufLen : UInt32}
    (pos : 0 < (responseBufLen - 1).toNat) :
    ∃ d data fuel d', Start (.contentLength body) responseBufLen d data 0 ∧
      download otaHttp fuel d data 0 = some (.success, d') := by
  obtain ⟨turns, fuel, success⟩ := exists_success otaHttp body.length _ pos
  have start : Start (.contentLength body) responseBufLen
      ⟨(Response.contentLength body).client responseBufLen, ⟨0, false, [], 0, []⟩, body, turns⟩
      (List.replicate HTTPCLIENT_CHUNK_SIZE 0) 0 :=
    ⟨rfl, List.length_replicate, by decide, rfl, rfl, rfl, rfl⟩
  have piece : Piece otaHttp _ _ 0 body.length := start.piece small
  obtain ⟨d', run⟩ := success _ (List.replicate HTTPCLIENT_CHUNK_SIZE 0) fuel
    ⟨piece.plain, piece.known, piece.owed, piece.small, rfl⟩ rfl rfl (Nat.le_refl fuel)
  exact ⟨_, _, fuel, d', start, run⟩

/-! ### A chunked response without a body -/

/-- While `do_data` is not set, a read brings the next bytes of the stream. -/
theorem read_plain {len : Nat} {turns : List Turn} {http : HttpData} {stream buf : List UInt8}
    {r : Received} (idle : http.doData = false)
    (read : halTcpReadLoop otaHttp len turns http stream buf 0 false = some r) :
    r.http = http ∧ ∃ bytes, stream = bytes ++ r.stream ∧ r.ret.toNat = bytes.length ∧
      r.buf = splice buf 0 bytes ∧ bytes.length ≤ len := by
  induction turns with
  | nil => cases read
  | cons turn turns ih =>
    have leave : ∀ errCode : Int, errCode ≤ 0 → some ⟨errCode, buf, http, stream, turns⟩ = some r →
        r.http = http ∧ ∃ bytes, stream = bytes ++ r.stream ∧ r.ret.toNat = bytes.length ∧
          r.buf = splice buf 0 bytes ∧ bytes.length ≤ len := by
      intro errCode negative same
      obtain rfl := Option.some.inj same
      exact ⟨rfl, [], rfl, Int.toNat_of_nonpos negative, by simp [splice], Nat.zero_le _⟩
    cases turn with
    | expired =>
      simp only [halTcpReadLoop, idle, Bool.false_eq_true, if_false] at read
      exact leave 0 (Int.le_refl 0) read
    | again =>
      simp only [halTcpReadLoop] at read
      split at read
      · exact ih read
      · exact leave 0 (Int.le_refl 0) read
    | closed => exact leave (-1) (by decide) read
    | failed => exact leave (-2) (by decide) read
    | segment n =>
      simp only [halTcpReadLoop] at read
      split at read
      · exact leave (-1) (by decide) read
      · split at read
        · exact ih read
        · obtain ⟨rest, whole⟩ := List.take_prefix (min (n + 1) len) stream
          have atMost : (stream.take (min (n + 1) len)).length ≤ len := by
            rw [List.length_take]
            omega
          generalize stream.take (min (n + 1) len) = bytes at read whole atMost
          subst whole
          -- the loop ends: either `len` bytes are there, or there were no more
          have last : ¬ ((http.doData = true ∧ 0 + bytes.length < http.httpTotal.toNat) ∨
              (0 + bytes.length < len ∧ (false || decide (bytes.length < len)) = false)) := by
            simp [idle]
          rw [List.drop_left] at read
          simp only [idle, Bool.false_eq_true, if_false] at read last
          rw [if_neg last] at read
          obtain rfl := Option.some.inj read
          exact ⟨rfl, bytes, rfl, by simp, rfl, atMost⟩

/-- `data` holds the first `len` bytes of what comes behind the headers, and the others are on their
way. -/
structure Holding (wire : List UInt8) (d : Download) (data : List UInt8) (len : Nat) : Prop where
  size : data.length = HTTPCLIENT_CHUNK_SIZE
  within : len < HTTPCLIENT_CHUNK_SIZE
  whole : data.take len ++ d.stream = wire

theorem Holding.there {wire : List UInt8} {d : Download} {data : List UInt8} {len : Nat}
    (holding : Holding wire d data len) : (data.take len).length = len := by
  rw [List.length_take, holding.size]
  exact Nat.min_eq_left (Nat.le_of_lt holding.within)

/-- The terminator behind the bytes. -/
theorem Holding.terminated {wire : List UInt8} {d : Download} {data : List UInt8} {len : Nat}
    (holding : Holding wire d data len) : Holding wire d (splice data len [0]) len := by
  have fits : len + 1 ≤ data.length := by
    rw [holding.size]
    exact holding.within
  refine ⟨(length_splice fits).trans holding.size, holding.within, ?_⟩
  rw [take_splice (Nat.le_of_succ_le fits)]
  exact holding.whole

theorem httpclientRecv_client {d d' : Download} {buf tail : List UInt8} {maxLen new : Nat}
    {ret : Option Ret} (recv : httpclientRecv otaHttp d buf maxLen = some (ret, new, tail, d')) :
    d'.client = d.client ∧ ∀ other, ret = some other → other = .errorHttpConn := by
  obtain ⟨r, -, same⟩ := Option.map_eq_some_iff.mp recv
  obtain ⟨rfl, -, -, rfl⟩ : _ = ret ∧ _ = new ∧ _ = tail ∧ _ = d' := by simpa using same
  refine ⟨rfl, fun other error => ?_⟩
  split at error
  · exact (Option.some.inj error).symm
  · cases error

/-- More bytes, as many as there is room for. -/
theorem Holding.read {wire : List UInt8} {d d' : Download} {data tail : List UInt8} {len new : Nat}
    {ret : Option Ret} (holding : Holding wire d data len) (idle : d.http.doData = false)
    (recv : httpclientRecv otaHttp d (data.drop len) (HTTPCLIENT_CHUNK_SIZE - len - 1) =
      some (ret, new, tail, d')) :
    d'.http = d.http ∧ d'.client = d.client ∧ (ret = none ∨ ret = some .errorHttpConn) ∧
      Holding wire d' (data.take len ++ tail) (len + new) := by
  obtain ⟨r, read, same⟩ := Option.map_eq_some_iff.mp recv
  obtain ⟨rfl, rfl, rfl, rfl⟩ : _ = ret ∧ _ = new ∧ _ = tail ∧ _ = d' := by simpa using same
  obtain ⟨http, bytes, stream, ret, buf, few⟩ := read_plain idle read
  have within := holding.within
  have room : 0 + bytes.length ≤ (data.drop len).length := by
    rw [List.length_drop, holding.size]
    omega
  have front := holding.there
  refine ⟨http, rfl, ?_, ?_, ?_, ?_⟩
  · split
    · exact .inr rfl
    · exact .inl rfl
  · rw [buf, List.length_append, front, length_splice room, List.length_drop, holding.size]
    omega
  · rw [ret]
    omega
  · change (data.take len ++ r.buf).take (len + r.ret.toNat) ++ r.stream = wire
    rw [ret, buf, ← holding.whole, stream]
    have cut : (data.take len ++ splice (data.drop len) 0 bytes).take (len + bytes.length) =
        data.take len ++ bytes := by
      rw [List.take_append, front, Nat.add_sub_cancel_left, List.take_of_length_le (by omega)]
      simp [splice]
    rw [cut, List.append_assoc]

/-- The search leaves everything in its place. -/
theorem header_found {wire : List UInt8} (fuel : Nat) {d d' : Download} {data : List UInt8}
    {len : Nat} {res : Except Ret (List UInt8 × Nat × Nat)} (holding : Holding wire d data len)
    (idle : d.http.doData = false)
    (run : headerLoop otaHttp fuel d data len = some (res, d')) :
    d'.http = d.http ∧ d'.client = d.client ∧
      (∀ ret, res = .error ret → ret = .errorHttpConn) ∧
      ∀ data' len' pos, res = .ok (data', len', pos) →
        Holding wire d' data' len' ∧ findCrlf data' len' = some pos := by
  -- by induction on the searches, each with more of the stream in the buffer
  induction fuel generalizing d data len with
  | zero => cases run
  | succ fuel ih =>
    rw [headerLoop, if_neg (Nat.not_le.mpr holding.within)] at run
    have terminated := holding.terminated
    generalize splice data len [0] = data at run terminated
    simp only at run
    split at run
    next pos found =>
      obtain ⟨rfl, rfl⟩ := Prod.mk.inj (Option.some.inj run)
      refine ⟨rfl, rfl, fun _ same => (by cases same), fun data' len' pos' same => ?_⟩
      obtain ⟨rfl, rfl, rfl⟩ : data = data' ∧ len = len' ∧ pos = pos' := by simpa using same
      exact ⟨terminated, found⟩
    next none =>
      split at run
      · cases run
      next ret _ _ next recv =>
        obtain ⟨rfl, rfl⟩ := Prod.mk.inj (Option.some.inj run)
        obtain ⟨http, client, error, -⟩ := terminated.read idle recv
        refine ⟨http, client, fun other same => ?_, fun _ _ _ same => (by cases same)⟩
        obtain rfl := Except.error.inj same
        simpa using error
      next new tail next recv =>
        obtain ⟨http, client, -, more⟩ := terminated.read idle recv
        obtain ⟨http', client', result⟩ := ih more (by rw [http, idle]) run
        exact ⟨http'.trans http, client'.trans client, result⟩

theorem isHexDigit_plain {c : UInt8} (hex : isHexDigit c = true) :
    c ≠ 0 ∧ c ≠ 13 ∧ ¬ (c = 32 ∨ (9 ≤ c ∧ c ≤ 13)) ∧ c ≠ 45 ∧ c ≠ 43 ∧ c ≠ 120 ∧ c ≠ 88 := by
  simp only [isHexDigit, Bool.or_eq_true, Bool.and_eq_true, decide_eq_true_eq, UInt8.le_iff_toNat_le,
    ne_eq, ← UInt8.toNat_inj, UInt8.reduceToNat] at hex ⊢
  omega

/-- Behind the digits there is nothing, or an extension. -/
theorem sscanfX_digits {digits : List UInt8} (rest : List UInt8) (present : digits ≠ [])
    (hex : ∀ c ∈ digits, isHexDigit c = true)
    (after : ∀ c, rest.head? = some c → c = 0 ∨ c = 59 ∨ c = 32 ∨ c = 9) :
    sscanfX (digits ++ rest) =
      let value := digits.foldl (fun n c => 16 * n + hexVal c) 0
      some (if 2 ^ 32 ≤ value then UInt32.ofNat (2 ^ 32 - 1) else UInt32.ofNat value) := by
  have text : (digits ++ rest).takeWhile (· ≠ 0) = digits ++ rest.takeWhile (· ≠ 0) :=
    List.takeWhile_append_of_pos fun c member => by simpa using (isHexDigit_plain (hex c member)).1
  -- neither the digits nor the prefix go on behind the header
  have stops : ∀ c, (rest.takeWhile (· ≠ 0)).head? = some c →
      isHexDigit c = false ∧ c ≠ 120 ∧ c ≠ 88 := by
    intro c first
    cases rest with
    | nil => cases first
    | cons a rest =>
      rw [List.takeWhile_cons] at first
      split at first
      next nonzero =>
        obtain rfl := Option.some.inj first
        rcases after a rfl with rfl | rfl | rfl | rfl
        · simp at nonzero
        · decide
        · decide
        · decide
      · cases first
  generalize rest.takeWhile (· ≠ 0) = rest' at text stops
  have number : (digits ++ rest').takeWhile isHexDigit = digits := by
    rw [List.takeWhile_append_of_pos hex]
    cases rest' with
    | nil => simp
    | cons a rest' => simp [(stops a rfl).1]
  obtain ⟨first, others, rfl⟩ := List.exists_cons_of_ne_nil present
  obtain ⟨-, -, blank, minus, plus, -, -⟩ := isHexDigit_plain (hex first (by simp))
  have second : ∀ c, (others ++ rest').head? = some c → c ≠ 120 ∧ c ≠ 88 := by
    intro c next
    cases others with
    | nil => exact (stops c next).2
    | cons a others =>
      obtain rfl := Option.some.inj next
      obtain ⟨-, -, -, -, -, small, big⟩ := isHexDigit_plain (hex a (by simp))
      exact ⟨small, big⟩
  -- a zero in front is a digit, and no prefix
  have base : ¬ ((others ++ rest').head? = some 120 ∨ (others ++ rest').head? = some 88) := by
    rintro (x | x)
    · exact (second 120 x).1 rfl
    · exact (second 88 x).2 rfl
  rw [List.cons_append] at number
  simp only [sscanfX, text]
  rw [List.cons_append, List.dropWhile_cons_of_neg (by simpa using blank)]
  simp only [List.head?_cons, List.tail_cons, Option.some.injEq, minus, plus, base, or_self,
    and_false, if_false, number, reduceCtorEq]

theorem getD_prefix {data : List UInt8} {len i : Nat} (inside : i < len) (fits : len ≤ data.length)
    (stream : List UInt8) : (data.take len ++ stream).getD i 0 = data.getD i 0 := by
  simp only [List.getD_eq_getElem?_getD]
  rw [List.getElem?_append_left (by rw [List.length_take]; omega), List.getElem?_take_of_lt inside]

/-- The first line end that the search finds is that of the first line. -/
theorem findCrlf_line {line rest : List UInt8} {d : Download} {data : List UInt8} {len pos : Nat}
    (holding : Holding (line ++ [13, 10] ++ rest) d data len) (clean : 13 ∉ line)
    (found : findCrlf data len = some pos) :
    pos = line.length ∧ pos + 2 < len ∧ data.take pos = line := by
  obtain ⟨here, inside, first⟩ := List.find?_range_eq_some.mp found
  rw [List.mem_range] at inside
  have fits : len ≤ data.length := by
    rw [holding.size]
    exact Nat.le_of_lt holding.within
  have byte : ∀ i, i < len → data.getD i 0 = (line ++ [13, 10] ++ rest).getD i 0 := by
    intro i within
    rw [← holding.whole, getD_prefix within fits]
  simp only [decide_eq_true_eq] at here
  -- before the end of the line there is no carriage return
  have after : line.length ≤ pos := by
    by_contra before
    have before := Nat.not_le.mp before
    rw [byte pos (by omega), List.append_assoc, List.getD_eq_getElem?_getD,
      List.getElem?_append_left before, List.getElem?_eq_getElem before] at here
    exact clean (here.1 ▸ List.getElem_mem before)
  -- and at its end the search stops
  have end' : pos = line.length := by
    refine Nat.le_antisymm (Nat.not_lt.mp fun later => ?_) after
    have stop := first line.length later
    rw [byte line.length (by omega), byte (line.length + 1) (by omega)] at stop
    simp [List.getD_eq_getElem?_getD] at stop
  subst end'
  refine ⟨rfl, by omega, ?_⟩
  have same := congrArg (List.take line.length) holding.whole
  rw [List.take_append_of_le_length (by rw [List.length_take]; omega), List.take_take,
    Nat.min_eq_left (by omega)] at same
  rw [same]
  simp

theorem SizeLine.clean (l : SizeLine) : 13 ∉ l.bytes := by
  intro member
  rcases List.mem_append.mp member with digit | extension
  · exact (isHexDigit_plain (l.hex 13 digit)).2.1 rfl
  · exact l.line extension

/-- The number in a header that is followed by the terminator of a string. -/
theorem SizeLine.scanned (l : SizeLine) (word : l.value < 2 ^ 32) (rest : List UInt8) :
    sscanfX (l.bytes ++ 0 :: rest) = some (UInt32.ofNat l.value) := by
  have scanned := sscanfX_digits (l.extension ++ 0 :: rest) l.present l.hex fun c first => by
    cases extension : l.extension with
    | nil =>
      rw [extension] at first
      exact .inl (Option.some.inj first).symm
    | cons a others =>
      rw [extension] at first
      exact .inr (l.start c (by rw [extension]; exact first))
  rw [SizeLine.bytes, List.append_assoc, scanned]
  exact congrArg some (if_neg (Nat.not_le.mpr word))

/-- The header of the last chunk ends the download, and nothing is written. -/
theorem chunkHeader_last {last : SizeLine} (isLast : last.value = 0) {rest : List UInt8}
    {d d' : Download} {data : List UInt8} {len : Nat}
    (holding : Holding (last.bytes ++ [13, 10] ++ rest) d data len) (idle : d.http.doData = false)
    (fuel : Nat) {res : Except Ret (List UInt8 × Nat × Nat)}
    (run : chunkHeader otaHttp fuel d data len = some (res, d')) :
    d'.http = d.http ∧ (res = .error .errorHttpConn ∨ res = .error .success) := by
  rw [chunkHeader] at run
  split at run
  · cases run
  next ret next searched =>
    obtain ⟨rfl, rfl⟩ := Prod.mk.inj (Option.some.inj run)
    obtain ⟨http, -, error, -⟩ := header_found fuel holding idle searched
    exact ⟨http, .inl (congrArg Except.error (error ret rfl))⟩
  next data' len' pos next searched =>
    obtain ⟨http, -, -, result⟩ := header_found fuel holding idle searched
    obtain ⟨holding', found⟩ := result data' len' pos rfl
    obtain ⟨-, -, line⟩ := findCrlf_line holding' last.clean found
    have scanned : sscanfX (splice data' pos [0]) = some 0 := by
      rw [splice, line, List.append_assoc, List.singleton_append, last.scanned (by rw [isLast]; decide), isLast]
      rfl
    simp only [scanned, if_true] at run
    obtain ⟨rfl, rfl⟩ := Prod.mk.inj (Option.some.inj run)
    exact ⟨http, .inr rfl⟩

theorem contentLoop_last {last : SizeLine} (isLast : last.value = 0) {rest : List UInt8}
    {d d' : Download} {data : List UInt8} {len count : Nat}
    (chunked : d.client.isChunked = true ∧ d.client.retrieveLen ≤ 0)
    (holding : Holding (last.bytes ++ [13, 10] ++ rest) d data len) (idle : d.http.doData = false)
    (fuel : Nat) {ret : Ret} (run : contentLoop otaHttp fuel d data len count = some (ret, d')) :
    d'.http = d.http ∧ (ret = .errorHttpConn ∨ ret = .success) := by
  cases fuel with
  | zero => cases run
  | succ fuel =>
    rw [contentLoop] at run
    simp only [chunked, and_self, if_true] at run
    split at run
    · cases run
    next res next header =>
      obtain ⟨rfl, rfl⟩ := Prod.mk.inj (Option.some.inj run)
      simpa using chunkHeader_last isLast holding idle _ header
    next data' len' readLen next header =>
      simpa using (chunkHeader_last isLast holding idle _ header).2

/-- The download of a response without a chunk hands nothing on. -/
theorem download_empty {last : SizeLine} {isLast : last.value = 0} {trailer : List UInt8}
    {responseBufLen : UInt32} {d d' : Download} {data : List UInt8} {len : Nat}
    (start : Start (.chunked [] last isLast trailer) responseBufLen d data len) (fuel : Nat)
    {ret : Ret} (run : download otaHttp fuel d data len = some (ret, d')) : d'.http.handed = [] := by
  have chunked : d.client.isChunked = true ∧ d.client.retrieveLen ≤ 0 := by
    rw [start.client]
    exact ⟨rfl, Int.le_refl 0⟩
  have known : ¬ (d.client.responseContentLen = -1 ∧ d.client.isChunked = false) := by
    rw [chunked.1]
    exact fun unknown => absurd unknown.2 (by decide)
  have once : ∀ ret d', retrieveContent otaHttp fuel d data len = some (ret, d') →
      d'.http = d.http ∧ (ret = .errorHttpConn ∨ ret = .success) := by
    intro ret d' call
    rw [retrieveContent, if_neg known] at call
    exact contentLoop_last (d := { d with client.isMore := true }) isLast chunked
      ⟨start.size, start.within, start.wire⟩ start.idle fuel call
  cases fuel with
  | zero => cases run
  | succ fuel =>
    rw [download] at run
    split at run
    · cases run
    -- the call never asks to be repeated
    next next call => simpa using (once _ _ call).2
    next ret' next other call =>
      obtain ⟨rfl, rfl⟩ := Prod.mk.inj (Option.some.inj run)
      rw [HttpData.handed, (once _ _ call).1, start.fresh.2]
      rfl

/-! ### The first chunk -/

/-- What is moved to the front comes first. -/
theorem getD_moved {data : List UInt8} {k len : Nat} (inside : k < len) (fits : len ≤ data.length) :
    (splice data 0 ((data.drop k).take (len - k))).getD 0 0 = data.getD k 0 := by
  have moved : ((data.drop k).take (len - k)).length = len - k := by
    rw [List.length_take, List.length_drop]
    omega
  rw [List.getD_eq_getElem?_getD, getElem?_splice (by omega), if_pos ⟨Nat.le_refl 0, by omega⟩,
    List.getElem?_take_of_lt (by omega), List.getElem?_drop, List.getD_eq_getElem?_getD]
  rfl

/-- The header of the first chunk is taken off, and the chunk starts at the start of the buffer. -/
theorem chunkHeader_first {c : Chunk} (word : c.data.length < 2 ^ 32) {rest : List UInt8}
    {d d' : Download} {data : List UInt8} {len : Nat}
    (holding : Holding (c.header.bytes ++ [13, 10] ++ (c.data ++ rest)) d data len)
    (idle : d.http.doData = false) (fuel : Nat) {res : Except Ret (List UInt8 × Nat × Nat)}
    (run : chunkHeader otaHttp fuel d data len = some (res, d')) :
    d'.client.isChunked = d.client.isChunked ∧ d'.client.limit = d.client.limit ∧
      (res = .error .errorHttpConn ∨ ∃ data' len', res = .ok (data', len', c.data.length) ∧
        0 < data'.length ∧ data'.getD 0 0 = c.data.getD 0 0) := by
  rw [chunkHeader] at run
  split at run
  · cases run
  next ret next searched =>
    obtain ⟨rfl, rfl⟩ := Prod.mk.inj (Option.some.inj run)
    obtain ⟨-, client, error, -⟩ := header_found fuel holding idle searched
    rw [client]
    exact ⟨rfl, rfl, .inl (congrArg Except.error (error ret rfl))⟩
  next data' len' pos next searched =>
    obtain ⟨-, client, -, result⟩ := header_found fuel holding idle searched
    obtain ⟨holding', found⟩ := result data' len' pos rfl
    obtain ⟨rfl, inside, line⟩ := findCrlf_line holding' c.header.clean found
    have scanned : sscanfX (splice data' c.header.bytes.length [0]) = some (UInt32.ofNat c.data.length) := by
      rw [splice, line, List.append_assoc, List.singleton_append, c.header.scanned (by rw [c.size]; exact word),
        c.size]
    have toNat : (UInt32.ofNat c.data.length).toNat = c.data.length := UInt32.toNat_ofNat_of_lt' word
    have nonempty : UInt32.ofNat c.data.length ≠ 0 := by
      rw [toNat_ne_zero, toNat]
      exact fun none => c.present (List.length_eq_zero_iff.mp none)
    -- behind the line end is the chunk
    have first : data'.getD (c.header.bytes.length + 2) 0 = c.data.getD 0 0 := by
      rw [← getD_prefix inside (by rw [holding'.size]; exact Nat.le_of_lt holding'.within) next.stream,
        holding'.whole]
      obtain ⟨a, others, whole⟩ := List.exists_cons_of_ne_nil c.present
      rw [whole]
      simp [List.getD_eq_getElem?_getD]
    have size := holding'.size
    have within := holding'.within
    simp only [scanned, nonempty, if_false, toNat] at run
    obtain ⟨rfl, rfl⟩ := Prod.mk.inj (Option.some.inj run)
    have terminated : (splice data' c.header.bytes.length [0]).length = data'.length :=
      length_splice (by simp; omega)
    refine ⟨by simp only [client], by simp only [ClientData.limit, client], .inr ⟨_, _, rfl, ?_, ?_⟩⟩
    · rw [length_splice (by rw [List.length_take]; omega), terminated, size]
      decide
    · -- the terminator is in front of it
      rw [getD_moved inside (by omega), List.getD_eq_getElem?_getD, getElem?_splice (by simp; omega),
        if_neg (by simp), ← List.getD_eq_getElem?_getD, first]

/-- A chunk that fits into the response buffer ends with all of it received, or with an error. -/
theorem bodyLoop_fits (fuel : Nat) {d d' : Download} {count len readLen : Nat} (owed : 0 < readLen)
    (fits : count + readLen < d.client.limit) {res : Except Ret (Nat × Nat)}
    (run : bodyLoop otaHttp fuel d count len readLen = some (res, d')) :
    d'.client.isChunked = d.client.isChunked ∧ (res = .error .errorHttpConn ∨ res = .error .fault ∨
      ∃ count' len', res = .ok (count', len') ∧ 0 < len') := by
  -- by induction on the turns, each with less of the chunk to come
  induction fuel generalizing d count len readLen with
  | zero => cases run
  | succ fuel ih =>
    rw [bodyLoop] at run
    have room : count + min len readLen < d.client.limit := by omega
    simp only [room, if_true] at run
    split at run
    next more =>
      split at run
      · obtain ⟨rfl, rfl⟩ := Prod.mk.inj (Option.some.inj run)
        exact ⟨rfl, .inr (.inl rfl)⟩
      · obtain ⟨rfl, rfl⟩ := Prod.mk.inj (Option.some.inj run)
        exact ⟨rfl, .inr (.inr ⟨_, _, rfl, Nat.sub_pos_of_lt more⟩)⟩
    next most =>
      split at run
      next all =>
        obtain ⟨rfl, rfl⟩ := Prod.mk.inj (Option.some.inj run)
        exact ⟨rfl, .inr (.inr ⟨_, _, rfl, by omega⟩)⟩
      next missing =>
        split at run
        · cases run
        next ret _ _ next recv =>
          obtain ⟨rfl, rfl⟩ := Prod.mk.inj (Option.some.inj run)
          obtain ⟨client, error⟩ := httpclientRecv_client recv
          exact ⟨by rw [client], .inl (congrArg Except.error (error ret rfl))⟩
        next new _ next recv =>
          obtain ⟨client, -⟩ := httpclientRecv_client recv
          have limit : next.client.limit = d.client.limit := by rw [client]; rfl
          obtain ⟨same, result⟩ := ih (by omega) (by rw [limit]; omega) run
          exact ⟨same.trans (by rw [client]), result⟩

/-- What was a chunk does not start like a line end. -/
theorem chunkEnd_refused {d d' : Download} {data : List UInt8} {len : Nat} (pos : 0 < len)
    (present : 0 < data.length) (other : data.getD 0 0 ≠ 13) {res : Except Ret (List UInt8 × Nat)}
    (run : chunkEnd otaHttp d data len = some (res, d')) :
    res = .error .errorHttpConn ∨ res = .error .errorHttpUnresolvedDns := by
  -- one more read keeps the byte in front
  have kept : ∀ tail, (data.take len ++ tail).getD 0 0 ≠ 13 := by
    intro tail
    obtain ⟨a, others, rfl⟩ := List.exists_cons_of_length_pos present
    obtain ⟨len, rfl⟩ := Nat.exists_eq_succ_of_ne_zero (Nat.ne_of_gt pos)
    exact other
  rw [chunkEnd] at run
  split at run
  · cases run
  next ret next short =>
    obtain ⟨rfl, rfl⟩ := Prod.mk.inj (Option.some.inj run)
    split at short
    · split at short
      · cases short
      next recv =>
        obtain ⟨same, -⟩ := Prod.mk.inj (Option.some.inj short)
        obtain ⟨-, error⟩ := httpclientRecv_client recv
        exact .inl (same ▸ congrArg Except.error (error _ rfl))
      · cases short
    · cases short
  next data' len' next enough =>
    have byte : data'.getD 0 0 ≠ 13 := by
      split at enough
      · split at enough
        · cases enough
        · cases enough
        · obtain ⟨same, -⟩ := Prod.mk.inj (Option.some.inj enough)
          obtain ⟨rfl, -⟩ := Prod.mk.inj (Except.ok.inj same)
          exact kept _
      · obtain ⟨same, -⟩ := Prod.mk.inj (Option.some.inj enough)
        obtain ⟨rfl, -⟩ := Prod.mk.inj (Except.ok.inj same)
        exact other
    rw [if_pos (.inl byte)] at run
    obtain ⟨rfl, rfl⟩ := Prod.mk.inj (Option.some.inj run)
    exact .inr rfl

/-- Such a chunk ends with an error. -/
theorem chunk_refused (fuel : Nat) {d d' : Download} {data : List UInt8} {len count readLen : Nat}
    (chunked : d.client.isChunked = true) (owed : 0 < readLen) (fits : count + readLen < d.client.limit)
    (present : 0 < data.length) (other : data.getD 0 0 ≠ 13)
    {res : Except Ret (List UInt8 × Nat × Nat)}
    (run : chunk otaHttp fuel d data len count readLen = some (res, d')) :
    ∃ ret, res = .error ret ∧ ret ≠ .success ∧ ret ≠ .retrieveMoreData := by
  have received {res : Except Ret (Nat × Nat)} {next : Download}
      (body : bodyLoop otaHttp fuel { d with http := startBody otaHttp d.http data len readLen } count
        len readLen = some (res, next)) :=
    bodyLoop_fits (d := { d with http := startBody otaHttp d.http data len readLen }) fuel owed fits body
  rw [chunk] at run
  split at run
  · cases run
  next ret next body =>
    obtain ⟨rfl, rfl⟩ := Prod.mk.inj (Option.some.inj run)
    obtain ⟨-, error | fault | ⟨_, _, ok, -⟩⟩ := received body
    · obtain rfl := Except.error.inj error
      exact ⟨_, rfl, by decide, by decide⟩
    · obtain rfl := Except.error.inj fault
      exact ⟨_, rfl, by decide, by decide⟩
    · cases ok
  next count' len' next body =>
    obtain ⟨same, error | fault | ⟨_, _, ok, pos⟩⟩ := received body
    · cases error
    · cases fault
    · obtain ⟨rfl, rfl⟩ := Prod.mk.inj (Except.ok.inj ok)
      simp only [same.trans chunked, if_true] at run
      split at run
      · cases run
      next ret next line =>
        obtain ⟨rfl, rfl⟩ := Prod.mk.inj (Option.some.inj run)
        rcases chunkEnd_refused pos present other line with error | error
        · obtain rfl := Except.error.inj error
          exact ⟨_, rfl, by decide, by decide⟩
        · obtain rfl := Except.error.inj error
          exact ⟨_, rfl, by decide, by decide⟩
      next line =>
        rcases chunkEnd_refused pos present other line with error | error
        · cases error
        · cases error

/-- After a first chunk that is taken whole, its line end is looked for in the chunk. -/
theorem contentLoop_first {c : Chunk} {rest : List UInt8} {d d' : Download} {data : List UInt8}
    {len : Nat} (chunked : d.client.isChunked = true ∧ d.client.retrieveLen ≤ 0)
    (other : c.data.head? ≠ some 13) (fits : c.data.length < d.client.limit)
    (holding : Holding (c.header.bytes ++ [13, 10] ++ (c.data ++ rest)) d data len)
    (idle : d.http.doData = false) (fuel : Nat) {ret : Ret}
    (run : contentLoop otaHttp fuel d data len 0 = some (ret, d')) :
    ret ≠ .success ∧ ret ≠ .retrieveMoreData := by
  have word : c.data.length < 2 ^ 32 := Nat.lt_trans fits (UInt32.toNat_lt _)
  cases fuel with
  | zero => cases run
  | succ fuel =>
    rw [contentLoop] at run
    simp only [chunked, and_self, if_true] at run
    split at run
    · cases run
    next res next header =>
      obtain ⟨rfl, rfl⟩ := Prod.mk.inj (Option.some.inj run)
      obtain ⟨-, -, error | ⟨_, _, ok, -⟩⟩ := chunkHeader_first word holding idle _ header
      · obtain rfl := Except.error.inj error
        exact ⟨by decide, by decide⟩
      · cases ok
    next data' len' readLen next header =>
      obtain ⟨still, limit, error | ⟨_, _, ok, present, first⟩⟩ :=
        chunkHeader_first word holding idle _ header
      · cases error
      · obtain ⟨rfl, rfl, rfl⟩ : data' = _ ∧ len' = _ ∧ readLen = _ := by simpa using ok
        have byte : data'.getD 0 0 ≠ 13 := by
          rw [first]
          obtain ⟨a, others, whole⟩ := List.exists_cons_of_ne_nil c.present
          rw [whole] at other ⊢
          exact fun same => other (congrArg some same)
        have refused : ∀ res next', chunk otaHttp (fuel + 1) next data' len' 0 c.data.length =
            some (res, next') → ∃ ret, res = .error ret ∧ ret ≠ .success ∧ ret ≠ .retrieveMoreData :=
          fun res next' call => chunk_refused _ (still.trans chunked.1)
            (List.length_pos_iff.mpr c.present) (by rw [limit, Nat.zero_add]; exact fits) present byte call
        split at run
        · cases run
        next ret' next' call =>
          obtain ⟨rfl, rfl⟩ := Prod.mk.inj (Option.some.inj run)
          obtain ⟨_, same, result⟩ := refused _ _ call
          obtain rfl := Except.error.inj same
          exact result
        next call =>
          obtain ⟨_, same, -⟩ := refused _ _ call
          cases same

theorem download_first {c : Chunk} {chunks : List Chunk} {last : SizeLine} {isLast : last.value = 0}
    {trailer : List UInt8} {responseBufLen : UInt32} {d d' : Download} {data : List UInt8} {len : Nat}
    (start : Start (.chunked (c :: chunks) last isLast trailer) responseBufLen d data len)
    (other : c.data.head? ≠ some 13) (fits : c.data.length < (responseBufLen - 1).toNat) (fuel : Nat)
    {ret : Ret} (run : download otaHttp fuel d data len = some (ret, d')) : ret ≠ .success := by
  have chunked : d.client.isChunked = true ∧ d.client.retrieveLen ≤ 0 := by
    rw [start.client]
    exact ⟨rfl, Int.le_refl 0⟩
  have limit : d.client.limit = (responseBufLen - 1).toNat := by
    rw [start.client]
    rfl
  have known : ¬ (d.client.responseContentLen = -1 ∧ d.client.isChunked = false) := by
    rw [chunked.1]
    exact fun unknown => absurd unknown.2 (by decide)
  have wire : data.take len ++ d.stream = c.header.bytes ++ [13, 10] ++ (c.data ++ ([13, 10] ++
      (chunks.flatMap (fun c => c.header.bytes ++ [13, 10] ++ c.data ++ [13, 10]) ++
        (last.bytes ++ [13, 10] ++ (trailer ++ [13, 10]))))) := by
    rw [start.wire]
    simp only [Response.wire, List.flatMap_cons, List.append_assoc]
  have once : ∀ ret d', retrieveContent otaHttp fuel d data len = some (ret, d') →
      ret ≠ .success ∧ ret ≠ .retrieveMoreData := by
    intro ret d' call
    rw [retrieveContent, if_neg known] at call
    exact contentLoop_first (d := { d with client.isMore := true }) chunked other (limit ▸ fits)
      ⟨start.size, start.within, wire⟩ start.idle fuel call
  cases fuel with
  | zero => cases run
  | succ fuel =>
    rw [download] at run
    split at run
    · cases run
    next next call => exact absurd rfl (once _ _ call).2
    next ret' next other call =>
      obtain ⟨rfl, rfl⟩ := Prod.mk.inj (Option.some.inj run)
      exact (once _ _ call).1

/-! ### Every download -/

theorem Start.full {r : Response} {responseBufLen : UInt32} {d : Download} {data : List UInt8}
    {len : Nat} (start : Start r responseBufLen d data len) (chunked : r.isChunked = true) :
    FullBlocks otaHttp d := by
  obtain ⟨empty, none⟩ := start.fresh
  refine ⟨?_, ?_, ?_⟩
  · rw [start.client]
    cases r with
    | contentLength body => cases chunked
    | chunked => rfl
  · rw [empty]
    exact HttpData.HTTP_FLASH_WR_BUF_MAX_pos
  · rw [none]
    exact fun _ member => nomatch member

/-- Every download of the response that succeeds has handed on its body, whatever the buffer holds
behind the headers, however the stream is cut, and for every length of the response buffer. -/
def Exact (otaHttp : Bool) (r : Response) (responseBufLen : UInt32) : Prop :=
  ∀ d data len, Start r responseBufLen d data len → ∀ fuel d',
    download otaHttp fuel d data len = some (.success, d') → d'.http.handed = r.body

/-- A response that fits is handed on exactly, and of the responses with a length that an `int` can hold
no other is. A chunked body that does not consist of full blocks never is. -/
theorem http_body_exact (otaHttp : Bool) (r : Response) (responseBufLen : UInt32) :
    (r.Fits otaHttp responseBufLen → Exact otaHttp r responseBufLen) ∧
      (r.isChunked = false → r.body.length < 2 ^ 31 →
        (Exact otaHttp r responseBufLen ↔ r.Fits otaHttp responseBufLen)) ∧
      (r.isChunked = true → ¬ HTTP_FLASH_WR_BUF_MAX otaHttp ∣ r.body.length →
        ∀ d data len, Start r responseBufLen d data len → ∀ fuel d',
          download otaHttp fuel d data len = some (.success, d') → d'.http.handed ≠ r.body) := by
  have fitting : r.Fits otaHttp responseBufLen → Exact otaHttp r responseBufLen := by
    intro fits d data len start fuel d' run
    match r, fits with
    | .contentLength body, fits => exact (start.handed_iff fits.1 fuel run).mpr fits
    | .chunked [] .., _ => exact download_empty start fuel run
    | .chunked (c :: chunks) .., fits => exact absurd rfl (download_first start fits.1 fits.2 fuel run)
  refine ⟨fitting, fun plain small => ⟨fun exact_ => ?_, fitting⟩, ?_⟩
  · cases r with
    | chunked => cases plain
    | contentLength body =>
      -- an empty buffer is full of whole blocks
      rcases Nat.eq_zero_or_pos (responseBufLen - 1).toNat with none | pos
      · exact ⟨small, .inr (none ▸ Nat.dvd_zero _)⟩
      · obtain ⟨d, data, fuel, d', start, run⟩ := exists_start otaHttp body small pos
        exact (start.handed_iff small fuel run).mp (exact_ d data 0 start fuel d' run)
  · -- blocks that are all full have a multiple of the block size of bytes
    intro chunked uneven d data len start fuel d' run same
    apply uneven
    rw [← same]
    exact ((start.full chunked).download fuel run).dvd

/-- Nine bytes, of which three come with the headers, and the others with two segments. -/
def nineBytes : Download :=
  ⟨(Response.contentLength [1, 2, 3, 4, 5, 6, 7, 8, 9]).client 100, ⟨0, false, [], 0, []⟩,
    [4, 5, 6, 7, 8, 9], [.segment 1, .again, .segment 100]⟩

theorem http_body_exact_nine :
    ∃ d', download true 3 nineBytes ([1, 2, 3] ++ List.replicate 253 0) 3 = some (.success, d') ∧
      d'.http.handed = [1, 2, 3, 4, 5, 6, 7, 8, 9] := by
  have start : Start (.contentLength [1, 2, 3, 4, 5, 6, 7, 8, 9]) 100 nineBytes
      ([1, 2, 3] ++ List.replicate 253 0) 3 :=
    ⟨rfl, by decide +kernel, by decide, by decide +kernel, rfl, rfl, rfl⟩
  have ends : ((download true 3 nineBytes ([1, 2, 3] ++ List.replicate 253 0) 3).map Prod.fst) =
      some .success := by decide +kernel
  obtain ⟨⟨ret, d'⟩, run, rfl⟩ := Option.map_eq_some_iff.mp ends
  have fits : (Response.contentLength [1, 2, 3, 4, 5, 6, 7, 8, 9]).Fits true 100 :=
    ⟨by decide, .inl (by decide)⟩
  exact ⟨d', run, (http_body_exact true _ 100).1 fits _ _ _ start 3 d' run⟩

/-- A header of one digit. -/
def oneDigit (c : UInt8) (hex : isHexDigit c = true) : SizeLine :=
  ⟨[c], [], by simp, by simpa using hex, by simp, by simp⟩

/-- A chunk of one byte, a carriage return, that comes with one byte of what follows it. -/
def oneChunk : Response :=
  .chunked [⟨oneDigit 49 rfl, [13], rfl, by simp⟩] (oneDigit 48 rfl) rfl []

theorem http_body_exact_fails : ¬ ∀ otaHttp r responseBufLen, Exact otaHttp r responseBufLen := by
  intro always
  have start : Start oneChunk 100
      ⟨oneChunk.client 100, ⟨0, false, [], 0, []⟩, [10, 48, 13, 10, 13, 10], [.segment 99, .segment 99]⟩
      ([49, 13, 10, 13, 13] ++ List.replicate 251 0) 5 :=
    ⟨rfl, by decide +kernel, by decide, by decide +kernel, rfl, rfl, rfl⟩
  have ends : ((download true 4 ⟨oneChunk.client 100, ⟨0, false, [], 0, []⟩, [10, 48, 13, 10, 13, 10],
      [.segment 99, .segment 99]⟩ ([49, 13, 10, 13, 13] ++ List.replicate 251 0) 5).map
        fun p => (p.1, p.2.http.handed)) = some (.success, []) := by decide +kernel
  obtain ⟨⟨ret, d'⟩, run, same⟩ := Option.map_eq_some_iff.mp ends
  obtain ⟨rfl, empty⟩ := Prod.mk.inj same
  have handed := always true oneChunk 100 _ _ _ start 4 d' run
  rw [show d'.http.handed = [] from empty] at handed
  cases handed

end Bk7251.Http
