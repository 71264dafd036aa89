/-
# `FlipLink.Proto.Value` — the dynamic CBOR value

`Value` of `value.rs`, with its `Encode` and `Decode`.  The library is the
parameter `cb` throughout.

`encode` follows the value and `decode` follows the bytes, so only `decode`
needs a measure: a nested value is read after the head of the container that
holds it, so the nesting is never deeper than the input is long, and `decode`
allows one level more than that.  `Stop.depth` would be the model giving up; it
never happens (`decodeN_spent`), so the errors are the library's own.  The stack of the
machine is not modelled: the source recurses as deep as the input nests, and a
nesting that overflows its stack has no counterpart here.

The two container arms of the source differ in the reader of one element only:
`items` is the counted loop and the loop up to the break byte, and a map's
element is a key before a value.
-/
import FlipLink.Proto.Minicbor

namespace FlipLink

/-- A CBOR value restricted to the wire profile (no floats; map keys are text). -/
inductive Value where
  | null
  | bool (b : Bool)
  | u64 (n : UInt64)
  | i64 (n : Int64)
  | text (s : String)
  | bytes (b : List UInt8)
  | array (a : List Value)
  | map (m : List (String × Value))

namespace Value

/-- Look up a key in a `Map` value. -/
def get : Value → String → Option Value
  | .map m, key => (m.find? fun kv => kv.1 == key).map Prod.snd
  | _, _ => none

/-- The integer that a value is, of either sign. -/
def number : Value → Option Int
  | .u64 n => some n.toNat
  | .i64 n => some n.toInt
  | _ => none

/-! ## `Encode` -/

section Encode

variable {ε : Type} (cb : Minicbor ε)

mutual

/-- The bytes `encode` writes. -/
def encode : Value → List UInt8
  | .null => cb.encNull
  | .bool b => cb.encBool b
  | .u64 n => cb.encU64 n
  | .i64 n => cb.encI64 n
  | .text s => cb.encStr s
  | .bytes b => cb.encBytes b
  | .array a => cb.encArray (UInt64.ofNat a.length) ++ encodeItems a
  | .map m => cb.encMap (UInt64.ofNat m.length) ++ encodeEntries m

def encodeItems : List Value → List UInt8
  | [] => []
  | v :: a => encode v ++ encodeItems a

def encodeEntries : List (String × Value) → List UInt8
  | [] => []
  | (k, v) :: m => cb.encStr k ++ (encode v ++ encodeEntries m)

end

end Encode

/-! ## `Decode` -/

/-- Why a read stopped: an error of the library, or the model's nesting bound. -/
inductive Stop (ε : Type) where
  | err (e : ε)
  | depth
  deriving DecidableEq, Repr

/-- A reader takes a value off the front of the unread input. -/
abbrev Reader (ε α : Type) := List UInt8 → Except (Stop ε) (α × List UInt8)

section Decode

variable {ε α : Type} (cb : Minicbor ε)

/-- `?` on a call of the library. -/
def call {β : Type} (x : Except ε β) : Except (Stop ε) β := x.mapError Stop.err

/-- `for _ in 0..n { out.push(item) }`. -/
def times (item : Reader ε α) : Nat → Reader ε (List α)
  | 0, d => .ok ([], d)
  | n + 1, d => do
      let (x, d) ← item d
      let (xs, d) ← times item n d
      return (x :: xs, d)

/-- `while d.datatype()? != Type::Break { out.push(item) }` and `d.skip()`, for
at most `k` elements. -/
def untilBreak (item : Reader ε α) : Nat → Reader ε (List α)
  | 0, _ => .error .depth
  | k + 1, d => do
      let t ← call (cb.datatype d)
      if t = .break then
        let d ← call (cb.skip d)
        return ([], d)
      else
        let (x, d) ← item d
        let (xs, d) ← untilBreak item k d
        return (x :: xs, d)

/-- The elements of a container of the given length. -/
def items (item : Reader ε α) : Option UInt64 → Reader ε (List α)
  | some n, d => times item n.toNat d
  | none, d => untilBreak cb item (d.length + 1) d

/-- One entry of a map. -/
def entry (value : Reader ε Value) : Reader ε (String × Value) := fun d => do
  let (k, d) ← call (cb.str d)
  let (v, d) ← value d
  return ((k, v), d)

/-- `Value::decode`, for values nested at most `k` deep. -/
def decodeN : Nat → Reader ε Value
  | 0, _ => .error .depth
  | k + 1, d => do
      match ← call (cb.datatype d) with
      | .null =>
          let d ← call (cb.null d)
          return (.null, d)
      | .bool =>
          let (b, d) ← call (cb.bool d)
          return (.bool b, d)
      | .u8 | .u16 | .u32 | .u64 =>
          let (n, d) ← call (cb.u64 d)
          return (.u64 n, d)
      | .i8 | .i16 | .i32 | .i64 =>
          let (n, d) ← call (cb.i64 d)
          return (.i64 n, d)
      | .string =>
          let (s, d) ← call (cb.str d)
          return (.text s, d)
      | .bytes =>
          let (b, d) ← call (cb.bytes d)
          return (.bytes b, d)
      | .array | .arrayIndef =>
          let (len, d) ← call (cb.array d)
          let (out, d) ← items cb (decodeN k) len d
          return (.array out, d)
      | .map | .mapIndef =>
          let (len, d) ← call (cb.map d)
          let (out, d) ← items cb (entry cb (decodeN k)) len d
          return (.map out, d)
      | _ => .error (.err (cb.message "unsupported CBOR type"))

/-- `Value::decode`. -/
def decode : Reader ε Value := fun d => decodeN cb (d.length + 1) d

end Decode

/-! ## Normal values and lengths -/

mutual

/-- A non-negative `I64` is written like the `U64` of the same value, and read
back as that. -/
def norm : Value → Value
  | .i64 n => if 0 ≤ n.toInt then .u64 (UInt64.ofNat n.toInt.toNat) else .i64 n
  | .array a => .array (normItems a)
  | .map m => .map (normEntries m)
  | .null => .null
  | .bool b => .bool b
  | .u64 n => .u64 n
  | .text s => .text s
  | .bytes b => .bytes b

def normItems : List Value → List Value
  | [] => []
  | v :: a => norm v :: normItems a

def normEntries : List (String × Value) → List (String × Value)
  | [] => []
  | (k, v) :: m => (k, norm v) :: normEntries m

end

mutual

/-- The lengths of a value are `usize`s, as those of every `Vec` and `String`. -/
def Fits : Value → Prop
  | .text s => (utf8 s).length < 2 ^ 64
  | .bytes b => b.length < 2 ^ 64
  | .array a => a.length < 2 ^ 64 ∧ FitsItems a
  | .map m => m.length < 2 ^ 64 ∧ FitsEntries m
  | _ => True

def FitsItems : List Value → Prop
  | [] => True
  | v :: a => v.Fits ∧ FitsItems a

def FitsEntries : List (String × Value) → Prop
  | [] => True
  | (k, v) :: m => (utf8 k).length < 2 ^ 64 ∧ v.Fits ∧ FitsEntries m

end

end Value

end FlipLink
