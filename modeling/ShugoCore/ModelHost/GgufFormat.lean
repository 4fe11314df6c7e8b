import ShugoCore.ModelHost.GgufReader

/-!
# GGUF headers

The header of a GGUF file, versions 2 and 3: pairs of a key and a value of one of thirteen types, of
which two have no fixed width.  A text has its length in front.  The items of an array have one type,
which stands in front of their number, and the items of an array of arrays have both again.

What is built here is well formed: an array is of one type, lengths and numbers fit the bytes they
have, texts have no surrogates and keys are distinct.
-/

namespace ShugoCore.Gguf

open Py

/-! ## Types -/

/-- The types of integers. -/
inductive IntKind where
  | uint8 | int8 | uint16 | int16 | uint32 | int32 | uint64 | int64
deriving DecidableEq, Repr

/-- The number of bytes. -/
def IntKind.width : IntKind → Nat
  | .uint8 | .int8 => 1
  | .uint16 | .int16 => 2
  | .uint32 | .int32 => 4
  | .uint64 | .int64 => 8

def IntKind.signed : IntKind → Bool
  | .int8 | .int16 | .int32 | .int64 => true
  | .uint8 | .uint16 | .uint32 | .uint64 => false

/-- The types of values. -/
inductive Kind where
  | int (k : IntKind)
  | float32
  | bool
  | string
  | array
  | float64
deriving DecidableEq, Repr

/-- The number that stands for a type. -/
def Kind.tag : Kind → Nat
  | .int .uint8 => 0
  | .int .int8 => 1
  | .int .uint16 => 2
  | .int .int16 => 3
  | .int .uint32 => 4
  | .int .int32 => 5
  | .float32 => 6
  | .bool => 7
  | .string => 8
  | .array => 9
  | .int .uint64 => 10
  | .int .int64 => 11
  | .float64 => 12

/-! ## Values -/

/-- A text that can be written. -/
structure Text where
  text : Str
  plain : Plain text
  size_lt : (utf8 text).length < 2 ^ 64

/-- The bytes of a text. -/
def Text.size (t : Text) : Nat := (utf8 t.text).length

mutual

/-- A value of a type. -/
inductive Value : Kind → Type
  | int {k : IntKind} (bits : BitVec (8 * k.width)) : Value (.int k)
  | float32 (bits : BitVec 32) : Value .float32
  | bool (b : Bool) : Value .bool
  | string (t : Text) : Value .string
  | array {item : Kind} {n : Nat} (items : Items item n) (h : n < 2 ^ 64) : Value .array
  | float64 (bits : BitVec 64) : Value .float64

/-- A number of values of one type. -/
inductive Items : Kind → Nat → Type
  | nil {item : Kind} : Items item 0
  | cons {item : Kind} {n : Nat} (v : Value item) (rest : Items item n) : Items item (n + 1)

end

/-- What a value says. -/
inductive Datum where
  | scalar (x : Scalar)
  | list (xs : List Datum)

mutual

/-- What is stored in a value. -/
def Value.datum : {k : Kind} → Value k → Datum
  | .int k, .int bits => .scalar (.int (if k.signed then bits.toInt else bits.toNat))
  | _, .float32 bits => .scalar (.float (floatFromBits 8 23 bits.toNat))
  | _, .bool b => .scalar (.bool b)
  | _, .string t => .scalar (.text t.text)
  | _, .array items _ => .list items.data
  | _, .float64 bits => .scalar (.float (floatFromBits 11 52 bits.toNat))

/-- What is stored in the items of an array. -/
def Items.data : {item : Kind} → {n : Nat} → Items item n → List Datum
  | _, _, .nil => []
  | _, _, .cons v rest => v.datum :: rest.data

end

/-! ## Bytes -/

/-- A text with its length. -/
def Text.encode (t : Text) : List Nat := toBytes 8 t.size ++ utf8 t.text

mutual

/-- The bytes of a value behind its type. -/
def Value.encode : {k : Kind} → Value k → List Nat
  | .int k, .int bits => toBytes k.width bits.toNat
  | _, .float32 bits => toBytes 4 bits.toNat
  | _, .bool b => [if b then 1 else 0]
  | _, .string t => t.encode
  | _, @Value.array item n items _ => toBytes 4 item.tag ++ toBytes 8 n ++ items.encode
  | _, .float64 bits => toBytes 8 bits.toNat

/-- The bytes of the items of an array. -/
def Items.encode : {item : Kind} → {n : Nat} → Items item n → List Nat
  | _, _, .nil => []
  | _, _, .cons v rest => v.encode ++ rest.encode

end

/-- A pair of the header. -/
structure Pair where
  key : Text
  kind : Kind
  value : Value kind

def Pair.encode (p : Pair) : List Nat := p.key.encode ++ (toBytes 4 p.kind.tag ++ p.value.encode)

/-- A header.  The number of tensors is not looked at. -/
structure Header where
  version : Nat
  tensorCount : Nat
  pairs : List Pair
  version_known : version = 2 ∨ version = 3
  count_lt : pairs.length < 2 ^ 64
  keys_nodup : (pairs.map fun p => p.key.text).Nodup

def Header.encode (h : Header) : List Nat :=
  magic ++ (toBytes 4 h.version ++ (toBytes 8 h.tensorCount ++
    (toBytes 8 h.pairs.length ++ h.pairs.flatMap Pair.encode)))

/-- The file stores a value under a name. -/
def Header.Stores (h : Header) (name : Str) (x : Scalar) : Prop :=
  ∃ p ∈ h.pairs, p.key.text = name ∧ p.value.datum = .scalar x

end ShugoCore.Gguf
