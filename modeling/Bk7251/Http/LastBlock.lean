import Bk7251.Http.BodyExact

/-!
# The last block of a body

A download of a body of known length hands on full blocks, call after call, and at its end what is left
of the bytes of its last call.
-/
namespace Bk7251.Http

open Lib

variable {otaHttp : Bool}

/-- The calls of a download, one for each filling of the response buffer. -/
theorem download_piece {d d' : Download} {data bytes : List UInt8} {len left : Nat}
    (piece : Piece otaHttp d data len left) (suffix : data.take len ++ d.stream <:+ bytes) (fuel : Nat)
    {ret : Ret} (run : download otaHttp fuel d data len = some (ret, d')) :
    (ret = .success → ∃ rest, rest <:+ bytes ∧ rest.length = left % d.client.limit ∧
        EndsWith otaHttp d'.http.blocks rest) ∧
      (ret ≠ .success → ∀ b ∈ d'.http.blocks, b.src.length = HTTP_FLASH_WR_BUF_MAX otaHttp) := by
  induction fuel generalizing d data len left with
  | zero => cases run
  | succ fuel ih =>
    rw [download] at run
    split at run
    · cases run
    next next call =>
      obtain ⟨same, -⟩ | ⟨full, conn | ⟨-, enough, client, later, fewer⟩⟩ := (retrieve_piece piece _ call).1
      · cases same
      · cases conn
      · -- the next call starts without data, with as much less to come as the buffer takes
        change d.client.limit ≤ left at enough
        change next.stream.length ≤ left - d.client.limit at fewer
        change next.client =
          { d.client with isMore := true, retrieveLen := (left - d.client.limit : Nat) } at client
        have piece' := piece.next client fewer full
        have limit : next.client.limit = d.client.limit := by
          rw [client]
          rfl
        have suffix' : (List.replicate HTTPCLIENT_CHUNK_SIZE 0).take 0 ++ next.stream <:+ bytes :=
          later.trans (List.IsSuffix.trans ⟨_, rfl⟩ suffix)
        have rest := ih piece' suffix' run
        rwa [limit, ← Nat.mod_eq_sub_mod enough] at rest
    next ret' next other call =>
      obtain ⟨rfl, rfl⟩ := Prod.mk.inj (Option.some.inj run)
      obtain ⟨rfl, small, ends, whole⟩ | ⟨full, conn | ⟨more, -⟩⟩ := (retrieve_piece piece _ call).1
      · refine ⟨fun _ => ⟨_, suffix, ?_, ends⟩, fun failed => absurd rfl failed⟩
        rw [whole]
        exact (Nat.mod_eq_of_lt small).symm
      · exact ⟨fun success => (by rw [success] at conn; cases conn), fun _ => full⟩
      · exact absurd more other

/-- A download of a body of known length hands on full blocks; one that succeeds ends with what is left of
the last filling of the response buffer. -/
theorem download_blocks {body : List UInt8} {responseBufLen : UInt32} {d d' : Download} {data : List UInt8}
    {len : Nat} (start : Start (.contentLength body) responseBufLen d data len) (small : body.length < 2 ^ 31)
    (fuel : Nat) {ret : Ret} (run : download otaHttp fuel d data len = some (ret, d')) :
    (ret = .success → ∃ rest, rest <:+ body ∧ rest.length = body.length % (responseBufLen - 1).toNat ∧
        EndsWith otaHttp d'.http.blocks rest) ∧
      (ret ≠ .success → ∀ b ∈ d'.http.blocks, b.src.length = HTTP_FLASH_WR_BUF_MAX otaHttp) := by
  have limit : d.client.limit = (responseBufLen - 1).toNat := by
    rw [start.client]
    rfl
  rw [← limit]
  exact download_piece (start.piece small) ⟨[], start.wire⟩ fuel run

end Bk7251.Http
