import Bk7251.Http.Pieces

/-!
# A download that succeeds

Each filling of the response buffer that is not the last can be received up to its last byte and no
further, when an error ends the reading there. So a body of known length is downloaded with success for
every length of the response buffer but zero.
-/
namespace Bk7251.Http

open Lib

variable (otaHttp : Bool)

/-- Byte by byte, while there are more to come. -/
theorem read_bytes {len : Nat} (k lenRecv : Nat) (turns : List Turn) {http : HttpData}
    {stream : List UInt8} (buf : List UInt8) (dataOver : Bool) (doData : http.doData = true) (pos : 0 < len) (few : k ≤ stream.length)
    (more : lenRecv + k < http.httpTotal.toNat) :
    ∃ http' buf' dataOver', http'.doData = true ∧ http'.httpTotal = http.httpTotal ∧
      halTcpReadLoop otaHttp len (List.replicate k (.segment 0) ++ turns) http stream buf lenRecv dataOver =
        halTcpReadLoop otaHttp len turns http' (stream.drop k) buf' (lenRecv + k) dataOver' := by
  induction k generalizing http stream buf lenRecv dataOver with
  | zero => exact ⟨http, buf, dataOver, doData, rfl, rfl⟩
  | succ k ih =>
    cases stream with
    | nil => cases few
    | cons byte stream =>
      have one : min (0 + 1) len = 1 := by omega
      have total : (http.wrToFlash otaHttp [byte]).httpTotal = http.httpTotal :=
        (HttpData.wrLoop_control 1 http [byte]).2
      have kept : (http.wrToFlash otaHttp [byte]).doData = true := by
        rw [HttpData.wrToFlash_doData, doData]
      obtain ⟨http', buf', dataOver', doData', total', rest⟩ := ih (lenRecv + 1) (splice buf 0 [byte])
        (dataOver || decide (1 < len)) kept (Nat.le_of_succ_le_succ few) (by rw [total]; omega)
      refine ⟨http', buf', dataOver', doData', total'.trans total, ?_⟩
      have going : lenRecv + 1 < http.httpTotal.toNat := by omega
      rw [List.replicate_succ, List.cons_append, halTcpReadLoop]
      simp only [one, List.take_succ_cons, List.take_zero, List.length_singleton, doData, if_true,
        List.cons_ne_nil, if_false, Nat.ne_of_gt pos, kept, total, going, and_self, true_or,
        List.drop_succ_cons, List.drop_zero]
      rw [rest, Nat.add_assoc, Nat.add_comm 1 k]

/-- `k` bytes are received, and an error ends the reading if more are to come. -/
theorem recv_bytes {d : Download} {k maxLen : Nat} {rest : List Turn} (doData : d.http.doData = true)
    (some : 0 < k) (pos : 0 < maxLen) (short : maxLen ≤ k) (few : k ≤ d.stream.length)
    (bound : k ≤ d.http.httpTotal.toNat)
    (turns : d.turns =
      List.replicate k (.segment 0) ++ ((if k < d.http.httpTotal.toNat then [.failed] else []) ++ rest)) :
    ∃ http buf, httpclientRecv otaHttp d [] maxLen =
      Option.some (none, k, buf, { d with http, stream := d.stream.drop k, turns := rest }) := by
  suffices read : ∃ http buf, halTcpReadLoop otaHttp maxLen d.turns d.http d.stream [] 0 false =
      Option.some ⟨k, buf, http, d.stream.drop k, rest⟩ by
    obtain ⟨http, buf, read⟩ := read
    refine ⟨http, buf, ?_⟩
    rw [httpclientRecv, read, Option.map_some]
    simp
  rw [turns]
  by_cases more : k < d.http.httpTotal.toNat
  · obtain ⟨http, buf, dataOver, -, -, read⟩ := read_bytes otaHttp k 0 (.failed :: rest) [] false doData pos
      few (by omega)
    refine ⟨http, buf, ?_⟩
    rw [if_pos more, List.singleton_append, read, halTcpReadLoop]
    simp [Nat.ne_of_gt some]
  · -- the last byte ends the reading by itself
    obtain ⟨j, rfl⟩ := Nat.exists_eq_succ_of_ne_zero (Nat.ne_of_gt some)
    have total : d.http.httpTotal.toNat = j + 1 := by omega
    obtain ⟨http, buf, dataOver, kept, same, read⟩ := read_bytes otaHttp j 0 (.segment 0 :: rest) [] false doData
      pos (by omega : j ≤ d.stream.length) (by omega)
    have one : min (0 + 1) maxLen = 1 := by omega
    have left : d.stream.drop j ≠ [] := by
      intro none
      have length := congrArg List.length none
      rw [List.length_drop, List.length_nil] at length
      omega
    have taken : ((d.stream.drop j).take 1).length = 1 := by
      rw [List.length_take, List.length_drop]
      omega
    refine ⟨http.wrToFlash otaHttp ((d.stream.drop j).take 1), splice buf 0 ((d.stream.drop j).take 1), ?_⟩
    rw [if_neg more, List.nil_append, Nat.succ_eq_add_one, List.replicate_succ', List.append_assoc,
      List.singleton_append, read, halTcpReadLoop]
    have last : ¬(((http.wrToFlash otaHttp ((d.stream.drop j).take 1)).doData = true ∧
        0 + j + 1 < (http.wrToFlash otaHttp ((d.stream.drop j).take 1)).httpTotal.toNat) ∨
          (0 + j + 1 < maxLen ∧ (dataOver || decide (1 < maxLen)) = false)) := by
      rintro (⟨-, below⟩ | ⟨below, -⟩)
      · rw [HttpData.wrToFlash, (HttpData.wrLoop_control _ _ _).2, same, total] at below
        omega
      · omega
    simp only [one, kept, if_true, Nat.ne_of_gt pos, left, if_false, taken, last, List.drop_drop]
    simp

/-- A call that starts without data, with all of the `left` bytes of the body on their way. -/
structure Awaits (d : Download) (left : Nat) : Prop where
  plain : d.client.isChunked = false
  known : d.client.responseContentLen ≠ -1
  owed : d.client.retrieveLen = left
  small : left < 2 ^ 31
  coming : d.stream.length = left

variable {d : Download} {left : Nat}

/-- Such a call is one loop over the body. -/
theorem Awaits.retrieve (awaits : Awaits d left) {fuel : Nat} {data : List UInt8} {ret : Ret} {d' : Download}
    (ends : chunk otaHttp (fuel + 1) { d with client.isMore := true } data 0 0 left = some (.error ret, d')) :
    retrieveContent otaHttp (fuel + 1) d data 0 = some (ret, d') := by
  have total : (UInt32.ofInt d.client.retrieveLen).toNat = left := by
    rw [awaits.owed, ofInt_length awaits.small]
  have plain : ¬(d.client.isChunked = true ∧ d.client.retrieveLen ≤ 0) := fun chunked =>
    Bool.false_ne_true (awaits.plain.symm.trans chunked.1)
  rw [retrieveContent, if_neg fun unknown => awaits.known unknown.1, contentLoop]
  simp only [if_neg plain, total, ends]

/-- The state that the loop over the body starts in. -/
theorem startBody_total (http : HttpData) (data : List UInt8) (small : left < 2 ^ 31) :
    (startBody otaHttp http data 0 left).doData = true ∧
      (startBody otaHttp http data 0 left).httpTotal.toNat = left := by
  refine ⟨rfl, ?_⟩
  change (UInt32.ofNat left - UInt32.ofNat 0).toNat = left
  rw [UInt32.toNat_sub, UInt32.toNat_ofNat', UInt32.toNat_ofNat']
  omega

/-- One turn of the loop of a body that reads `k` bytes. -/
theorem bodyLoop_reads (left k : Nat) {d : Download} {maxLen : Nat} {rest : List Turn} (doData : d.http.doData = true)
    (some : 0 < k) (few : k ≤ d.stream.length) (bound : k ≤ left) (total : d.http.httpTotal.toNat = left)
    (room : 0 < d.client.limit) (short : min (min TCP_LEN_MAX d.client.limit) left = maxLen) (pos : 0 < maxLen)
    (fits : maxLen ≤ k)
    (turns : d.turns = List.replicate k (.segment 0) ++ ((if k < left then [.failed] else []) ++ rest))
    (fuel : Nat) :
    ∃ http, bodyLoop otaHttp (fuel + 1) d 0 0 left =
      bodyLoop otaHttp fuel { d with http, stream := d.stream.drop k, turns := rest } 0 k left := by
  rw [← total] at bound turns
  obtain ⟨http, buf, recv⟩ := recv_bytes otaHttp doData some pos fits few bound turns
  refine ⟨http, ?_⟩
  have same : d.client.retrieveLen - ((0 : Nat) : Int) = d.client.retrieveLen := Int.sub_zero _
  have more : left ≠ 0 := by omega
  rw [bodyLoop]
  simp only [Nat.zero_min, Nat.add_zero, room, if_true, Nat.not_lt_zero, if_false, Nat.sub_zero, more, same,
    short, recv]

/-- All the bytes are there. -/
theorem bodyLoop_done {d : Download} (fits : left < d.client.limit) (fuel : Nat) :
    bodyLoop otaHttp (fuel + 1) d 0 left left =
      some (.ok (left, left), { d with client.retrieveLen := d.client.retrieveLen - left }) := by
  rw [bodyLoop]
  simp only [Nat.min_self, Nat.zero_add, fits, if_true, Nat.lt_irrefl, if_false, Nat.sub_self]

/-- The response buffer is filled to its last byte. -/
theorem Awaits.more (awaits : Awaits d left) (pos : 0 < d.client.limit) (enough : d.client.limit ≤ left)
    {rest : List Turn} (turns : d.turns =
      List.replicate d.client.limit (.segment 0) ++ ((if d.client.limit < left then [.failed] else []) ++ rest))
    (fuel : Nat) (data : List UInt8) :
    ∃ d', retrieveContent otaHttp (fuel + 2) d data 0 = some (.retrieveMoreData, d') ∧
      Awaits d' (left - d.client.limit) ∧ d'.client.limit = d.client.limit ∧ d'.turns = rest := by
  obtain ⟨doData, total⟩ := startBody_total otaHttp d.http data awaits.small
  have coming := awaits.coming
  have tcp : 0 < TCP_LEN_MAX := by decide
  obtain ⟨http, reads⟩ := bodyLoop_reads otaHttp left d.client.limit
    (d := { d with client.isMore := true, http := startBody otaHttp d.http data 0 left }) doData pos
    (by change d.client.limit ≤ d.stream.length; omega) enough total pos rfl
    (by change 0 < min (min TCP_LEN_MAX d.client.limit) left; omega)
    (by change min (min TCP_LEN_MAX d.client.limit) left ≤ _; omega) turns (fuel + 1)
  have full : ¬0 + min d.client.limit left < d.client.limit := by omega
  have full' : ¬0 + min d.client.limit left < ClientData.limit { d.client with isMore := true } := full
  have ends : ∃ d', chunk otaHttp (fuel + 2) { d with client.isMore := true } data 0 0 left =
      some (.error .retrieveMoreData, d') ∧
      d' = { d with
        client.isMore := true, http, stream := d.stream.drop d.client.limit, turns := rest
        client.retrieveLen := d.client.retrieveLen - (d.client.limit - 0 : Nat) } := by
    rw [chunk, reads, bodyLoop]
    simp only [full', if_false]
    exact ⟨_, rfl, rfl⟩
  obtain ⟨d', ends, rfl⟩ := ends
  refine ⟨_, awaits.retrieve otaHttp ends, ⟨awaits.plain, awaits.known, ?_, ?_, ?_⟩, rfl, rfl⟩
  · change d.client.retrieveLen - ((d.client.limit - 0 : Nat) : Int) = _
    rw [awaits.owed]
    omega
  · have small := awaits.small
    omega
  · change (d.stream.drop d.client.limit).length = _
    rw [List.length_drop, coming]

/-- The last call, which the response buffer holds. -/
theorem Awaits.last (awaits : Awaits d left) (fits : left < d.client.limit) {rest : List Turn}
    (turns : d.turns = List.replicate left (.segment 0) ++ rest) (fuel : Nat) (data : List UInt8) :
    ∃ d', retrieveContent otaHttp (fuel + 2) d data 0 = some (.success, d') := by
  obtain ⟨doData, total⟩ := startBody_total otaHttp d.http data awaits.small
  have coming := awaits.coming
  have tcp : 0 < TCP_LEN_MAX := by decide
  have ends : ∃ d', bodyLoop otaHttp (fuel + 2)
      { d with client.isMore := true, http := startBody otaHttp d.http data 0 left } 0 0 left =
        some (.ok (left, left), d') ∧ d'.client.isChunked = false := by
    rcases Nat.eq_zero_or_pos left with rfl | some
    · refine ⟨_, bodyLoop_done otaHttp ?_ _, awaits.plain⟩
      exact fits
    · obtain ⟨http, reads⟩ := bodyLoop_reads otaHttp left left
        (d := { d with client.isMore := true, http := startBody otaHttp d.http data 0 left }) doData some
        (by change left ≤ d.stream.length; omega) (Nat.le_refl left) total
        (by change 0 < d.client.limit; omega) rfl
        (by change 0 < min (min TCP_LEN_MAX d.client.limit) left; omega)
        (by change min (min TCP_LEN_MAX d.client.limit) left ≤ _; omega)
        (by rw [if_neg (Nat.lt_irrefl left), List.nil_append]; exact turns) (fuel + 1)
      rw [reads]
      refine ⟨_, bodyLoop_done otaHttp ?_ _, awaits.plain⟩
      exact fits
  obtain ⟨d', looped, plain⟩ := ends
  have success : ∃ d', chunk otaHttp (fuel + 2) { d with client.isMore := true } data 0 0 left =
      some (.error .success, d') := by
    rw [chunk, looped]
    simp only [plain, Bool.false_eq_true, if_false]
    exact ⟨_, rfl⟩
  obtain ⟨d', success⟩ := success
  exact ⟨d', awaits.retrieve otaHttp success⟩

/-- For any response buffer that takes a byte there is a course of the reads that makes the download
succeed. -/
theorem exists_success (left limit : Nat) (pos : 0 < limit) :
    ∃ turns enough, ∀ d data fuel, Awaits d left → d.client.limit = limit → d.turns = turns → enough ≤ fuel →
      ∃ d', download otaHttp fuel d data 0 = some (.success, d') := by
  induction left using Nat.strong_induction_on with
  | _ left ih =>
    by_cases fits : left < limit
    · refine ⟨List.replicate left (.segment 0) ++ [], 2, fun d data fuel awaits bound turns enough => ?_⟩
      obtain ⟨fuel, rfl⟩ := Nat.exists_eq_add_of_le' enough
      obtain ⟨d', last⟩ := awaits.last otaHttp (bound ▸ fits) turns fuel data
      exact ⟨d', by rw [download, last]⟩
    · have filled := Nat.not_lt.mp fits
      obtain ⟨later, enough, rest⟩ := ih (left - limit) (by omega)
      refine ⟨List.replicate limit (.segment 0) ++ ((if limit < left then [.failed] else []) ++ later),
        enough + 2, fun d data fuel awaits bound turns more => ?_⟩
      subst bound
      obtain ⟨fuel, rfl⟩ := Nat.exists_eq_add_of_le' (Nat.le_trans (Nat.le_add_left 2 enough) more)
      obtain ⟨d', first, awaits', limit', turns'⟩ := awaits.more otaHttp pos filled turns fuel data
      obtain ⟨d'', success⟩ := rest d' (List.replicate HTTPCLIENT_CHUNK_SIZE 0) (fuel + 1) awaits' limit' turns'
        (by omega)
      exact ⟨d'', by rw [download, first]; exact success⟩

end Bk7251.Http
