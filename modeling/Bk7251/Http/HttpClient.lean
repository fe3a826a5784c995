import Bk7251.Http.HttpFlash
import Bk7251.Lib.Bytes

/-!
# The body of a response

`HAL_TCP_Read` (`app/http/utils_net.c`), `httpclient_recv`, `httpclient_retrieve_content` and the calls
of it that `httpclient_recv_response` makes (`app/http/utils_httpc.c`). Reading is also writing: while
`do_data` is set, what `HAL_TCP_Read` receives goes to `http_wr_to_flash`.
-/
namespace Bk7251.Http

open Lib

def HTTPCLIENT_CHUNK_SIZE : Nat := 256
def TCP_LEN_MAX : Nat := 1460

inductive Ret where
  | success
  | retrieveMoreData
  | errorHttp
  | errorHttpConn
  | errorHttpUnresolvedDns
  /-- Memory outside a buffer was accessed; nothing is said about what follows. -/
  | fault
deriving DecidableEq

/-- What a turn of the loop of `HAL_TCP_Read` meets: the time is over; it has to be repeated; `recv`
can take `n + 1` bytes at most; the peer has closed the connection; an error. -/
inductive Turn where
  | expired
  | again
  | segment (n : Nat)
  | closed
  | failed

/-- `httpclient_data_t`. -/
structure ClientData where
  isMore : Bool
  isChunked : Bool
  retrieveLen : Int
  responseContentLen : UInt32
  responseBufLen : UInt32

structure Download where
  client : ClientData
  http : HttpData
  /-- The bytes of the response that are still to be received. -/
  stream : List UInt8
  turns : List Turn

/-- The value of `HAL_TCP_Read`, and the start of the buffer. -/
structure Received where
  ret : Int
  buf : List UInt8
  http : HttpData
  stream : List UInt8
  turns : List Turn

section

variable (otaHttp : Bool)

/-- The loop of `HAL_TCP_Read`; without a further turn it waits. -/
def halTcpReadLoop (len : Nat) :
    List Turn → HttpData → List UInt8 → List UInt8 → Nat → Bool → Option Received
  | [], _, _, _, _, _ => none
  | turn :: turns, http, stream, buf, lenRecv, dataOver =>
    let leave (errCode : Int) : Option Received :=
      some ⟨if lenRecv ≠ 0 then lenRecv else errCode, buf, http, stream, turns⟩
    match turn with
    | .expired =>
      -- while a body is written the time limit is ignored
      if http.doData then halTcpReadLoop len turns http stream buf lenRecv dataOver else leave 0
    | .again =>
      if (http.doData ∧ lenRecv < http.httpTotal.toNat) ∨ (lenRecv < len ∧ dataOver = false) then
        halTcpReadLoop len turns http stream buf lenRecv dataOver
      else leave 0
    | .closed => leave (-1)
    | .failed => leave (-2)
    | .segment n =>
      if len = 0 then leave (-1)
      -- nothing has arrived
      else if stream = [] then halTcpReadLoop len turns http stream buf lenRecv dataOver
      else
        -- `recv` takes a part of what has arrived, and never more than was asked for
        let bytes := stream.take (min (n + 1) len)
        let dataOver := dataOver || decide (bytes.length < len)
        let http := if http.doData then http.wrToFlash otaHttp bytes else http
        let stream := stream.drop bytes.length
        let lenRecv := lenRecv + bytes.length
        -- every turn writes to the start of the buffer
        let buf := splice buf 0 bytes
        if (http.doData ∧ lenRecv < http.httpTotal.toNat) ∨ (lenRecv < len ∧ dataOver = false) then
          halTcpReadLoop len turns http stream buf lenRecv dataOver
        else some ⟨lenRecv, buf, http, stream, turns⟩

/-- `httpclient_recv` into the buffer `buf`: its value, the length read, and the buffer. -/
def httpclientRecv (d : Download) (buf : List UInt8) (maxLen : Nat) :
    Option (Option Ret × Nat × List UInt8 × Download) :=
  (halTcpReadLoop otaHttp maxLen d.turns d.http d.stream buf 0 false).map fun r =>
    (if r.ret < 0 then some .errorHttpConn else none, r.ret.toNat, r.buf,
      { d with http := r.http, stream := r.stream, turns := r.turns })

/-- `client_data->response_buf_len - 1`. -/
def ClientData.limit (c : ClientData) : Nat := (c.responseBufLen - 1).toNat

/-- The loop of a response without a length. -/
def plainLoop : Nat → Download → List UInt8 → Nat → Nat → Option (Ret × Download)
  | 0, _, _, _, _ => none
  | fuel + 1, d, data, len, count =>
    if count + len < d.client.limit then
      let count := count + len
      -- this loop itself hands nothing on
      let maxLen := min (HTTPCLIENT_CHUNK_SIZE - 1) (d.client.limit - count)
      match httpclientRecv otaHttp d data maxLen with
      | none => none
      | some (some ret, _, _, d) => some (ret, d)
      | some (none, len, data, d) =>
        if len = 0 then some (.success, { d with client.isMore := false })
        else plainLoop fuel d data len count
    else some (.retrieveMoreData, d)

def findCrlf (data : List UInt8) (len : Nat) : Option Nat :=
  (List.range (len - 2)).find? fun i => data.getD i 0 = 13 ∧ data.getD (i + 1) 0 = 10

def isHexDigit (c : UInt8) : Bool :=
  (48 ≤ c && c ≤ 57) || (97 ≤ c && c ≤ 102) || (65 ≤ c && c ≤ 70)

def hexVal (c : UInt8) : Nat :=
  if c ≤ 57 then c.toNat - 48 else if c ≤ 70 then c.toNat - 55 else c.toNat - 87

/-- `sscanf(data, "%x", ..)`. -/
def sscanfX (data : List UInt8) : Option UInt32 :=
  let s := (data.takeWhile (· ≠ 0)).dropWhile fun c => c = 32 ∨ (9 ≤ c ∧ c ≤ 13)
  let negative := s.head? = some 45
  let s := if s.head? = some 45 ∨ s.head? = some 43 then s.tail else s
  let s := if s.head? = some 48 ∧ (s.tail.head? = some 120 ∨ s.tail.head? = some 88) then s.drop 2 else s
  let digits := s.takeWhile isHexDigit
  if digits = [] then none
  else
    let value := digits.foldl (fun n c => 16 * n + hexVal c) 0
    some (if 2 ^ 32 ≤ value then UInt32.ofNat (2 ^ 32 - 1)
      else if negative then UInt32.ofNat (2 ^ 32 - value)
      else UInt32.ofNat value)

/-- The search for the end of a chunk header, with more to read as long as it is not found: the
buffer, its length and the position. -/
def headerLoop : Nat → Download → List UInt8 → Nat →
    Option (Except Ret (List UInt8 × Nat × Nat) × Download)
  | 0, _, _, _ => none
  | fuel + 1, d, data, len =>
    -- `data[len] = 0`
    if HTTPCLIENT_CHUNK_SIZE ≤ len then some (.error .fault, d)
    else
      let data := splice data len [0]
      match findCrlf data len with
      | some pos => some (.ok (data, len, pos), d)
      | none =>
        match httpclientRecv otaHttp d (data.drop len) (HTTPCLIENT_CHUNK_SIZE - len - 1) with
        | none => none
        | some (some ret, _, _, d) => some (.error ret, d)
        | some (none, new, tail, d) => headerLoop fuel d (data.take len ++ tail) (len + new)

/-- The `do`-`while` of a body, or of a chunk, with `readLen` bytes to come of which `len` are there.
`b_data` has `TCP_LEN_MAX + 1` bytes; what is in it nobody reads. -/
def bodyLoop : Nat → Download → Nat → Nat → Nat →
    Option (Except Ret (Nat × Nat) × Download)
  | 0, _, _, _, _ => none
  | fuel + 1, d, count, len, readLen =>
    let templen := min len readLen
    if count + templen < d.client.limit then
      let count := count + templen
      let d := { d with client.retrieveLen := d.client.retrieveLen - templen }
      -- more is there than belongs to the chunk: the rest moves to the front of `b_data`
      if readLen < len then
        if TCP_LEN_MAX + 1 < len then some (.error .fault, d)
        else some (.ok (count, len - readLen), { d with client.retrieveLen := 0 })
      else if readLen - len = 0 then some (.ok (count, len), d)
      else
        let maxLen := min (min TCP_LEN_MAX (d.client.limit - count)) (readLen - len)
        match httpclientRecv otaHttp d [] maxLen with
        | none => none
        | some (some ret, _, _, d) => some (.error ret, d)
        | some (none, new, _, d) => bodyLoop fuel d count new (readLen - len)
    else
      -- the response buffer would be full; the caller comes back for the rest
      some (.error .retrieveMoreData,
        { d with client.retrieveLen := d.client.retrieveLen - (d.client.limit - count : Nat) })

/-- After a chunk: its line end, which is looked for at the start of `data`. -/
def chunkEnd (d : Download) (data : List UInt8) (len : Nat) :
    Option (Except Ret (List UInt8 × Nat) × Download) :=
  let read : Option (Except Ret (List UInt8 × Nat) × Download) :=
    -- too short to hold a line end; one read is made, whatever it brings
    if len < 2 then
      match httpclientRecv otaHttp d (data.drop len) (HTTPCLIENT_CHUNK_SIZE - len - 1) with
      | none => none
      | some (some ret, _, _, d) => some (.error ret, d)
      | some (none, new, tail, d) => some (.ok (data.take len ++ tail, len + new), d)
    else some (.ok (data, len), d)
  match read with
  | none => none
  | some (.error ret, d) => some (.error ret, d)
  | some (.ok (data, len), d) =>
    if data.getD 0 0 ≠ 13 ∨ data.getD 1 0 ≠ 10 then some (.error .errorHttpUnresolvedDns, d)
    -- `os_memmove(data, &data[2], len - 2)`
    else if len < 2 ∨ HTTPCLIENT_CHUNK_SIZE < len then some (.error .fault, d)
    else some (.ok (splice data 0 ((data.drop 2).take (len - 2)), len - 2), d)

/-- The bytes of the body that are there already are written, and the rest is on its way. -/
def startBody (h : HttpData) (data : List UInt8) (len readLen : Nat) : HttpData :=
  { h.flashInit.wrToFlash otaHttp (data.take len) with
    doData := true
    httpTotal := UInt32.ofNat readLen - UInt32.ofNat len }

/-- The header of a chunk, taken off the buffer: the buffer, its length and the length of the chunk.
The last chunk ends the download. -/
def chunkHeader (fuel : Nat) (d : Download) (data : List UInt8) (len : Nat) :
    Option (Except Ret (List UInt8 × Nat × Nat) × Download) :=
  match headerLoop otaHttp fuel d data len with
  | none => none
  | some (.error ret, d) => some (.error ret, d)
  | some (.ok (data, len, pos), d) =>
    let data := splice data pos [0]
    let readLen := sscanfX data
    let d := { d with
      client.retrieveLen := (readLen.getD 0).toInt32.toInt
      client.responseContentLen := d.client.responseContentLen + readLen.getD 0 }
    match readLen with
    | none => some (.error .errorHttpUnresolvedDns, d)
    | some readLen =>
      let data := splice data 0 ((data.drop (pos + 2)).take (len - (pos + 2)))
      if readLen = 0 then some (.error .success, { d with client.isMore := false })
      else some (.ok (data, len - (pos + 2), readLen.toNat), d)

/-- A chunk, or the whole body of a response with a length, which then ends the download. -/
def chunk (fuel : Nat) (d : Download) (data : List UInt8) (len count readLen : Nat) :
    Option (Except Ret (List UInt8 × Nat × Nat) × Download) :=
  match bodyLoop otaHttp fuel { d with http := startBody otaHttp d.http data len readLen }
      count len readLen with
  | none => none
  | some (.error ret, d) => some (.error ret, d)
  | some (.ok (count, len), d) =>
    let d := { d with http.doData := false }
    if d.client.isChunked then
      match chunkEnd otaHttp d data len with
      | none => none
      | some (.error ret, d) => some (.error ret, d)
      | some (.ok (data, len), d) => some (.ok (data, len, count), d)
    else
      -- only this branch hands on a block that is not full
      some (.error .success,
        { d with http := (d.http.handOn otaHttp).flashDeinit, client.isMore := false })

/-- The `while` loop over the chunks; a response with a length is one turn of it. -/
def contentLoop : Nat → Download → List UInt8 → Nat → Nat → Option (Ret × Download)
  | 0, _, _, _, _ => none
  | fuel + 1, d, data, len, count =>
    let header :=
      -- a retrieved length that is not used up yet belongs to the chunk of the call before
      if d.client.isChunked ∧ d.client.retrieveLen ≤ 0 then chunkHeader otaHttp (fuel + 1) d data len
      else some (.ok (data, len, (UInt32.ofInt d.client.retrieveLen).toNat), d)
    match header with
    | none => none
    | some (.error ret, d) => some (ret, d)
    | some (.ok (data, len, readLen), d) =>
      match chunk otaHttp (fuel + 1) d data len count readLen with
      | none => none
      | some (.error ret, d) => some (ret, d)
      | some (.ok (data, len, count), d) => contentLoop fuel d data len count

/-- `httpclient_retrieve_content`, with the `len` bytes of the body that came with the headers at the
start of `data`. -/
def retrieveContent (fuel : Nat) (d : Download) (data : List UInt8) (len : Nat) :
    Option (Ret × Download) :=
  let d := { d with client.isMore := true }
  if d.client.responseContentLen = -1 ∧ d.client.isChunked = false then
    plainLoop otaHttp fuel d data len 0
  else contentLoop otaHttp fuel d data len 0

/-- The calls of `httpclient_retrieve_content` that make up a download: each but the last one has said
that there is more to retrieve, and the next one (`httpclient_recv_response`) starts without data. -/
def download : Nat → Download → List UInt8 → Nat → Option (Ret × Download)
  | 0, _, _, _ => none
  | fuel + 1, d, data, len =>
    match retrieveContent otaHttp (fuel + 1) d data len with
    | none => none
    | some (.retrieveMoreData, d) =>
      download fuel d (List.replicate HTTPCLIENT_CHUNK_SIZE 0) 0
    | some (ret, d) => some (ret, d)

end

end Bk7251.Http
