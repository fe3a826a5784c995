import Mathlib.Data.List.Nodup
import Bk7251.Lib.Bytes

/-!
# Tables of typed items

A table is a list of items, each stored as its type, the length of its payload and the payload.
The first item of a type is the one that is found; overwriting keeps the tail of a longer payload.
-/
namespace Lib

namespace Tlv

structure Entry where
  type : UInt32
  payload : List UInt8
deriving DecidableEq

/-- Type and length in front of a payload. -/
def head (type : UInt32) (len : Nat) : List UInt8 := toLe32 type ++ toLe32 (UInt32.ofNat len)

@[simp] theorem length_head (type : UInt32) (len : Nat) : (head type len).length = 8 := rfl

def Entry.bytes (e : Entry) : List UInt8 := head e.type e.payload.length ++ e.payload

def Entry.size (e : Entry) : Nat := 8 + e.payload.length

@[simp] theorem Entry.length_bytes (e : Entry) : e.bytes.length = e.size := by
  simp [Entry.bytes, Entry.size]

def encode : List Entry → List UInt8
  | [] => []
  | e :: es => e.bytes ++ encode es

def size : List Entry → Nat
  | [] => 0
  | e :: es => e.size + size es

def types (es : List Entry) : List UInt32 := es.map Entry.type

def lookup (type : UInt32) : List Entry → Option (List UInt8)
  | [] => none
  | e :: es => if e.type = type then some e.payload else lookup type es

/-- Where the first item of the type begins, or the end of the table. -/
def offsetOf (type : UInt32) : List Entry → Nat
  | [] => 0
  | e :: es => if e.type = type then 0 else e.size + offsetOf type es

/-- Write `xs` over the front of `old`. -/
def overwrite (xs old : List UInt8) : List UInt8 := xs ++ old.drop xs.length

/-- Overwrite the payload of a type; a new item starts as `n` zeros. -/
def put (type : UInt32) (xs : List UInt8) (n : Nat) (es : List Entry) : List Entry :=
  if type ∈ types es then
    es.map fun e => if e.type = type then ⟨type, overwrite xs e.payload⟩ else e
  else es ++ [⟨type, overwrite xs (List.replicate n 0)⟩]

@[simp] theorem length_encode (es : List Entry) : (encode es).length = size es := by
  induction es with
  | nil => rfl
  | cons e es ih => simp [encode, size, ih]

theorem encode_append (es fs : List Entry) : encode (es ++ fs) = encode es ++ encode fs := by
  induction es with
  | nil => rfl
  | cons e es ih => simp [encode, ih]

theorem size_append (es fs : List Entry) : size (es ++ fs) = size es + size fs := by
  induction es with
  | nil => simp [size]
  | cons e es ih => simp [size, ih, Nat.add_assoc]

theorem length_overwrite (xs old : List UInt8) (fits : xs.length ≤ old.length) :
    (overwrite xs old).length = old.length := by
  simp [overwrite]
  omega

theorem offsetOf_of_not_mem {type : UInt32} {es : List Entry} (absent : type ∉ types es) :
    offsetOf type es = size es := by
  induction es with
  | nil => rfl
  | cons e es ih =>
    simp only [types, List.map_cons, List.mem_cons, not_or] at absent
    rw [offsetOf, if_neg (Ne.symm absent.1), ih absent.2, size]

theorem mem_types_iff_lookup {type : UInt32} {es : List Entry} :
    type ∈ types es ↔ (lookup type es).isSome := by
  induction es with
  | nil => simp [types, lookup]
  | cons e es ih =>
    by_cases same : e.type = type
    · simp [types, lookup, same]
    · simp only [types, List.map_cons, List.mem_cons, Ne.symm same, false_or, lookup, if_neg same]
      exact ih

/-- The table around the only item of a type. -/
theorem split_of_mem {type : UInt32} {es : List Entry} (nodup : (types es).Nodup)
    (present : type ∈ types es) :
    ∃ front payload back, es = front ++ ⟨type, payload⟩ :: back ∧ type ∉ types front ∧
      type ∉ types back ∧ offsetOf type es = size front := by
  induction es with
  | nil => simp [types] at present
  | cons e es ih =>
    simp only [types, List.map_cons, List.nodup_cons] at nodup
    by_cases same : e.type = type
    · subst same
      exact ⟨[], e.payload, es, rfl, by simp [types], nodup.1, by simp [offsetOf, size]⟩
    · have later : type ∈ types es := by
        simpa [types, Ne.symm same] using present
      obtain ⟨front, payload, back, rfl, first, rest, offset⟩ := ih nodup.2 later
      refine ⟨e :: front, payload, back, rfl, ?_, rest, ?_⟩
      · simp only [types, List.map_cons, List.mem_cons, not_or]
        exact ⟨Ne.symm same, first⟩
      · rw [offsetOf, if_neg same, offset, size]

private theorem map_of_not_mem {type : UInt32} {es : List Entry} (f : Entry → Entry)
    (absent : type ∉ types es) : es.map (fun e => if e.type = type then f e else e) = es := by
  induction es with
  | nil => rfl
  | cons e es ih =>
    simp only [types, List.map_cons, List.mem_cons, not_or] at absent
    rw [List.map_cons, if_neg (Ne.symm absent.1), ih absent.2]

theorem put_of_mem {type : UInt32} {front back : List Entry} {payload : List UInt8}
    (first : type ∉ types front) (rest : type ∉ types back) (xs : List UInt8) (n : Nat) :
    put type xs n (front ++ ⟨type, payload⟩ :: back) =
      front ++ ⟨type, overwrite xs payload⟩ :: back := by
  rw [put, if_pos (by simp [types]), List.map_append, List.map_cons, map_of_not_mem _ first,
    map_of_not_mem _ rest, if_pos rfl]

theorem put_of_not_mem {type : UInt32} {es : List Entry} (absent : type ∉ types es)
    (xs : List UInt8) (n : Nat) :
    put type xs n es = es ++ [⟨type, overwrite xs (List.replicate n 0)⟩] := by
  rw [put, if_neg absent]

theorem lookup_append (type : UInt32) (es fs : List Entry) :
    lookup type (es ++ fs) = (lookup type es).or (lookup type fs) := by
  induction es with
  | nil => simp [lookup]
  | cons e es ih =>
    simp only [List.cons_append, lookup, ih]
    split <;> simp

theorem lookup_of_not_mem {type : UInt32} {es : List Entry} (absent : type ∉ types es) :
    lookup type es = none := by
  rwa [mem_types_iff_lookup, Option.not_isSome_iff_eq_none] at absent

/-- What is put is found, over what was there or over zeros. -/
theorem lookup_put_self {type : UInt32} {es : List Entry} (nodup : (types es).Nodup)
    (xs : List UInt8) (n : Nat) :
    lookup type (put type xs n es) =
      some (overwrite xs ((lookup type es).getD (List.replicate n 0))) := by
  by_cases present : type ∈ types es
  · obtain ⟨front, payload, back, rfl, first, rest, -⟩ := split_of_mem nodup present
    rw [put_of_mem first rest, lookup_append, lookup_append, lookup_of_not_mem first]
    simp [lookup]
  · rw [put_of_not_mem present, lookup_append, lookup_of_not_mem present]
    simp [lookup]

theorem lookup_put_other {type other : UInt32} (differs : other ≠ type) (xs : List UInt8) (n : Nat)
    (es : List Entry) : lookup other (put type xs n es) = lookup other es := by
  rw [put]
  split
  · clear ‹type ∈ types es›
    induction es with
    | nil => rfl
    | cons e es ih =>
      rw [List.map_cons, lookup, ih]
      by_cases same : e.type = type
      · simp [same, Ne.symm differs, lookup]
      · simp [same, lookup]
  · rw [lookup_append]
    simp [lookup, Ne.symm differs]

theorem types_put (type : UInt32) (xs : List UInt8) (n : Nat) (es : List Entry) :
    types (put type xs n es) = if type ∈ types es then types es else types es ++ [type] := by
  rw [put]
  split
  · rw [types, List.map_map, types]
    apply List.map_congr_left
    intro e _
    simp only [Function.comp_apply]
    split
    next same => exact same.symm
    · rfl
  · simp [types]

theorem nodup_put {type : UInt32} {es : List Entry} (nodup : (types es).Nodup) (xs : List UInt8)
    (n : Nat) : (types (put type xs n es)).Nodup := by
  rw [types_put]
  split
  · exact nodup
  next absent =>
    rw [List.nodup_append_comm]
    exact List.nodup_cons.mpr ⟨absent, nodup⟩

theorem size_le_put (type : UInt32) (xs : List UInt8) (n : Nat) (es : List Entry) :
    size es ≤ size (put type xs n es) := by
  rw [put]
  split
  · clear ‹type ∈ types es›
    induction es with
    | nil => exact Nat.le_refl _
    | cons e es ih =>
      rw [List.map_cons, size, size]
      apply Nat.add_le_add _ ih
      split
      · simp only [Entry.size, overwrite, List.length_append, List.length_drop]
        omega
      · exact Nat.le_refl _
  · rw [size_append]
    exact Nat.le_add_right _ _

end Tlv

end Lib
