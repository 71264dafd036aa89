/-
# `FlipLink.Proto.Minicbor` — the CBOR library as a parameter

The value codec is written against `minicbor`, which is not part of the
repository.  `Minicbor ε` is what `value.rs` uses of it: the primitive writers
of `Encoder` (which cannot fail on a growing `Vec`), the primitive readers of
`Decoder`, and `datatype`.  A decoder is the input it has not read yet, and an
error is a value of `ε`.

`Minicbor.Lawful` is what the codec relies on, with the library's documented
behaviour as the only source:

  * the writers emit shortest-form RFC 8949 heads (`Lib.Cbor.head`);
  * the readers invert the writers;
  * `datatype` names the next item by its major type and the width of its head,
    and a reader that follows it reads an item of that type;
  * a reader that succeeds has consumed at least one byte.

`rfc8949` is a reading of the RFC with these properties (`rfc8949_lawful`), so
nothing here is assumed in vain.
-/
import FlipLink.Lib.Cbor
import FlipLink.Proto.Frame

namespace FlipLink

open Lib Lib.Cbor

/-! ## The interface -/

/-- `minicbor::data::Type`, the item types `datatype` can report. -/
inductive CborType where
  | null | bool | undefined | simple | f16 | f32 | f64
  | u8 | u16 | u32 | u64 | i8 | i16 | i32 | i64 | int
  | bytes | bytesIndef | string | stringIndef
  | array | arrayIndef | map | mapIndef | tag | break | unknown
  deriving DecidableEq, Repr

/-- The four signed types. -/
def CborType.signed : CborType → Bool
  | .i8 | .i16 | .i32 | .i64 => true
  | _ => false

/-- The primitives of `minicbor` that the value codec calls. -/
structure Minicbor (ε : Type) where
  encNull : List UInt8
  encBool : Bool → List UInt8
  encU64 : UInt64 → List UInt8
  encI64 : Int64 → List UInt8
  encStr : String → List UInt8
  encBytes : List UInt8 → List UInt8
  encArray : UInt64 → List UInt8
  encMap : UInt64 → List UInt8
  datatype : List UInt8 → Except ε CborType
  null : List UInt8 → Except ε (List UInt8)
  bool : List UInt8 → Except ε (Bool × List UInt8)
  u64 : List UInt8 → Except ε (UInt64 × List UInt8)
  i64 : List UInt8 → Except ε (Int64 × List UInt8)
  str : List UInt8 → Except ε (String × List UInt8)
  bytes : List UInt8 → Except ε (List UInt8 × List UInt8)
  /-- The length is `none` for an indefinite array. -/
  array : List UInt8 → Except ε (Option UInt64 × List UInt8)
  map : List UInt8 → Except ε (Option UInt64 × List UInt8)
  skip : List UInt8 → Except ε (List UInt8)
  /-- `decode::Error::message`. -/
  message : String → ε

/-- The bytes of a string. -/
def utf8 (s : String) : List UInt8 := s.toByteArray.data.toList

/-- The type an unsigned item of this value is reported as. -/
def unsignedType (n : Nat) : CborType :=
  if n < 2 ^ 8 then .u8 else if n < 2 ^ 16 then .u16 else if n < 2 ^ 32 then .u32 else .u64

/-- The type a negative item `-1 - n` is reported as: the smallest signed type
that holds it, `int` when not even `i64` does. -/
def negativeType (n : Nat) : CborType :=
  if n < 2 ^ 7 then .i8
  else if n < 2 ^ 15 then .i16
  else if n < 2 ^ 31 then .i32
  else if n < 2 ^ 63 then .i64
  else .int

/-- The argument of the head of a negative number. -/
def negArg (n : Int64) : Nat := (-1 - n.toInt).toNat

/-- What the value codec relies on. -/
structure Minicbor.Lawful {ε : Type} (cb : Minicbor ε) : Prop where
  -- the writers emit shortest-form heads
  encNull_eq : cb.encNull = [0xF6]
  encBool_eq : ∀ b, cb.encBool b = [if b then 0xF5 else 0xF4]
  encU64_eq : ∀ n, cb.encU64 n = head 0 n.toNat
  encI64_eq : ∀ n, cb.encI64 n = if 0 ≤ n.toInt then head 0 n.toInt.toNat else head 1 (negArg n)
  encStr_eq : ∀ s, cb.encStr s = head 3 (utf8 s).length ++ utf8 s
  encBytes_eq : ∀ b, cb.encBytes b = head 2 b.length ++ b
  encArray_eq : ∀ n, cb.encArray n = head 4 n.toNat
  encMap_eq : ∀ n, cb.encMap n = head 5 n.toNat
  -- the readers invert the writers
  null_enc : ∀ rest, cb.null (cb.encNull ++ rest) = .ok rest
  bool_enc : ∀ b rest, cb.bool (cb.encBool b ++ rest) = .ok (b, rest)
  u64_enc : ∀ n rest, cb.u64 (cb.encU64 n ++ rest) = .ok (n, rest)
  i64_enc : ∀ n rest, cb.i64 (cb.encI64 n ++ rest) = .ok (n, rest)
  str_enc : ∀ s rest, (utf8 s).length < 2 ^ 64 → cb.str (cb.encStr s ++ rest) = .ok (s, rest)
  bytes_enc : ∀ b rest, b.length < 2 ^ 64 → cb.bytes (cb.encBytes b ++ rest) = .ok (b, rest)
  array_enc : ∀ n rest, cb.array (cb.encArray n ++ rest) = .ok (some n, rest)
  map_enc : ∀ n rest, cb.map (cb.encMap n ++ rest) = .ok (some n, rest)
  -- `datatype` goes by major type and width
  datatype_null : ∀ rest, cb.datatype (0xF6 :: rest) = .ok .null
  datatype_bool : ∀ (b : Bool) rest, cb.datatype ((if b then 0xF5 else 0xF4) :: rest) = .ok .bool
  datatype_unsigned : ∀ n rest, n < 2 ^ 64 →
    cb.datatype (head 0 n ++ rest) = .ok (unsignedType n)
  datatype_negative : ∀ n rest, n < 2 ^ 64 →
    cb.datatype (head 1 n ++ rest) = .ok (negativeType n)
  datatype_bytes : ∀ n rest, n < 2 ^ 64 → cb.datatype (head 2 n ++ rest) = .ok .bytes
  datatype_string : ∀ n rest, n < 2 ^ 64 → cb.datatype (head 3 n ++ rest) = .ok .string
  datatype_array : ∀ n rest, n < 2 ^ 64 → cb.datatype (head 4 n ++ rest) = .ok .array
  datatype_map : ∀ n rest, n < 2 ^ 64 → cb.datatype (head 5 n ++ rest) = .ok .map
  /-- A signed type is reported of negative items only. -/
  i64_neg : ∀ {d t n rest}, cb.datatype d = .ok t → t.signed = true →
    cb.i64 d = .ok (n, rest) → n.toInt < 0
  -- a reader that succeeds has read something
  null_lt : ∀ {d rest}, cb.null d = .ok rest → rest.length < d.length
  bool_lt : ∀ {d b rest}, cb.bool d = .ok (b, rest) → rest.length < d.length
  u64_lt : ∀ {d n rest}, cb.u64 d = .ok (n, rest) → rest.length < d.length
  i64_lt : ∀ {d n rest}, cb.i64 d = .ok (n, rest) → rest.length < d.length
  str_lt : ∀ {d s rest}, cb.str d = .ok (s, rest) → (utf8 s).length + rest.length < d.length
  bytes_lt : ∀ {d b rest}, cb.bytes d = .ok (b, rest) → b.length + rest.length < d.length
  array_lt : ∀ {d n rest}, cb.array d = .ok (n, rest) → rest.length < d.length
  map_lt : ∀ {d n rest}, cb.map d = .ok (n, rest) → rest.length < d.length
  skip_lt : ∀ {d rest}, cb.skip d = .ok rest → rest.length < d.length

end FlipLink
