import Mathlib.Algebra.Order.Ring.Rat
import Mathlib.Data.List.Sort
import Mathlib.Data.Nat.Digits.Lemmas
import ShugoCore.Lib.Dict
import ShugoCore.Lib.PyText

/-!
# JSON as Python's `json` module writes and reads it

Three things are kept apart.

* `PyVal` is a Python object that `json.dumps` can write.  The keys of its
  dictionaries are whatever Python allows.
* `Json` is a document: members in the order of the text, keys as text.
* `Str` is the text itself.

`encode` is the part of `dumps` with `sort_keys=True` that turns an object into a
document.  It sorts the items of a dictionary by their keys as Python compares
them, and only then writes the keys as text.  `render` writes a document.  `parse`
reads a document and `load` makes the object of it, where a repeated key keeps
its first place and its last value.

A float is known by the decimal literal that `repr` writes for it and that
`float` reads back.  `FloatFormat` says that much, and which rational it is, and
nothing else.
-/

namespace Py

/-! ## Number literals -/

/-- The sign of an exponent, as written. -/
inductive ExpSign where
  | none | plus | minus
deriving DecidableEq, Repr

/-- A number in a document.  Digits are most significant first.  An absent
fraction has no digits. -/
structure Literal where
  neg : Bool
  int : List Nat
  frac : List Nat
  exp : Option (ExpSign × List Nat)
deriving DecidableEq, Repr

namespace Literal

/-- A literal with a fraction or an exponent is read as a float. -/
def isFloat (l : Literal) : Bool := !l.frac.isEmpty || l.exp.isSome

/-- The shape that the grammar of numbers asks for. -/
structure WF (l : Literal) : Prop where
  int_digits : ∀ d ∈ l.int, d < 10
  int_head : l.int = [0] ∨ ∃ d ds, l.int = d :: ds ∧ d ≠ 0
  frac_digits : ∀ d ∈ l.frac, d < 10
  exp_digits : ∀ e ∈ l.exp, e.2 ≠ [] ∧ ∀ d ∈ e.2, d < 10

/-- A decimal digit. -/
def digit (d : Nat) : CodePoint := Fin.ofNat 0x110000 (48 + d)

/-- The text of an exponent sign. -/
def signText : ExpSign → Str
  | .none => []
  | .plus => [43]
  | .minus => [45]

/-- The text of a fraction. -/
def fracText : List Nat → Str
  | [] => []
  | d :: ds => 46 :: (d :: ds).map digit

/-- The text of an exponent. -/
def expText : Option (ExpSign × List Nat) → Str
  | none => []
  | some (sign, ds) => 101 :: (signText sign ++ ds.map digit)

/-- The text of a literal. -/
def text (l : Literal) : Str :=
  (if l.neg then [45] else []) ++ (l.int.map digit ++ (fracText l.frac ++ expText l.exp))

/-- `int.__repr__`. -/
def ofInt (i : Int) : Literal where
  neg := decide (i < 0)
  int := if i = 0 then [0] else (Nat.digits 10 i.natAbs).reverse
  frac := []
  exp := none

/-- The integer that an integer literal stands for. -/
def toInt (l : Literal) : Int :=
  if l.neg then -(Nat.ofDigits 10 l.int.reverse : Nat) else (Nat.ofDigits 10 l.int.reverse : Nat)

end Literal

/-! ## Objects and documents -/

/-- A float, over the type of the finite ones. -/
inductive PyFloat (φ : Type) where
  | nan | posInf | negInf
  | finite (x : φ)
deriving DecidableEq, Repr

/-- A key that `json.dumps` accepts. -/
inductive Key (φ : Type) where
  | none
  | bool (b : Bool)
  | int (i : Int)
  | float (x : PyFloat φ)
  | str (s : Str)
deriving DecidableEq, Repr

/-- What the model takes from the interpreter's floats. -/
class FloatFormat (φ : Type) where
  /-- `float.__repr__`. -/
  repr : φ → Literal
  /-- `float` of the text of a literal. -/
  read : Literal → PyFloat φ
  /-- The number a finite float is. -/
  value : φ → ℚ
  /-- What `sorted` makes of items with a NaN among their keys.  No comparison
  holds of a NaN, so the order is whatever the sort happens to leave. -/
  sortNaN : {α : Type} → List (Key φ × α) → List (Key φ × α)
  /-- The sort looks at the keys only, which are distinct objects. -/
  sortNaN_map : ∀ {α β : Type} (f : α → β) (items : List (Key φ × α)),
    sortNaN (items.map fun i => (i.1, f i.2)) = (sortNaN items).map fun i => (i.1, f i.2)
  sortNaN_perm : ∀ {α : Type} (items : List (Key φ × α)), (sortNaN items).Perm items
  repr_wf : ∀ x, (repr x).WF
  repr_isFloat : ∀ x, (repr x).isFloat = true
  read_repr : ∀ x, read (repr x) = .finite x

/-- An object that `json.dumps` can write.  Tuples are lists.  The items of a
dictionary are in insertion order. -/
inductive PyVal (φ : Type) where
  | none
  | bool (b : Bool)
  | int (i : Int)
  | float (x : PyFloat φ)
  | str (s : Str)
  | list (xs : List (PyVal φ))
  | dict (items : List (Key φ × PyVal φ))

/-- A document. -/
inductive Json (φ : Type) where
  | null
  | bool (b : Bool)
  | int (i : Int)
  | float (x : PyFloat φ)
  | str (s : Str)
  | arr (xs : List (Json φ))
  | obj (members : List (Str × Json φ))

variable {φ : Type}

/-! ## Writing -/

/-- `null`. -/
def nullText : Str := [110, 117, 108, 108]
/-- `true`. -/
def trueText : Str := [116, 114, 117, 101]
/-- `false`. -/
def falseText : Str := [102, 97, 108, 115, 101]
/-- `NaN`. -/
def nanText : Str := [78, 97, 78]
/-- `Infinity`. -/
def infinityText : Str := [73, 110, 102, 105, 110, 105, 116, 121]
/-- `-Infinity`. -/
def negInfinityText : Str := 45 :: infinityText

/-- How a float is written. -/
def floatText [FloatFormat φ] : PyFloat φ → Str
  | .nan => nanText
  | .posInf => infinityText
  | .negInf => negInfinityText
  | .finite x => (FloatFormat.repr x).text

/-- A hexadecimal digit, in lower case. -/
def hexDigit (d : Nat) : CodePoint := Fin.ofNat 0x110000 (if d < 10 then 48 + d else 87 + d)

/-- `\uXXXX`. -/
def unicodeEscape (n : Nat) : Str :=
  [92, 117, hexDigit (n / 4096 % 16), hexDigit (n / 256 % 16), hexDigit (n / 16 % 16),
    hexDigit (n % 16)]

/-- The letter of a two-character escape, for the characters that have one. -/
def shortEscape (c : CodePoint) : Option CodePoint :=
  if c = 34 then some 34
  else if c = 92 then some 92
  else if c = 8 then some 98
  else if c = 12 then some 102
  else if c = 10 then some 110
  else if c = 13 then some 114
  else if c = 9 then some 116
  else none

/-- One character of a string, with `ensure_ascii`. -/
def escapeChar (c : CodePoint) : Str :=
  match shortEscape c with
  | some e => [92, e]
  | none =>
      if 0x20 ≤ c.val ∧ c.val ≤ 0x7E then [c]
      else if c.val < 0x10000 then unicodeEscape c.val
      else unicodeEscape (0xD800 + (c.val - 0x10000) / 0x400) ++
        unicodeEscape (0xDC00 + (c.val - 0x10000) % 0x400)

/-- A string literal. -/
def quoted (s : Str) : Str := 34 :: (s.flatMap escapeChar ++ [34])

/-- The `separators` of a call to `dumps`. -/
structure Separators where
  item : Str
  key : Str

/-- The default. -/
def spaced : Separators := ⟨[44, 32], [58, 32]⟩

/-- `separators=(",", ":")`. -/
def compact : Separators := ⟨[44], [58]⟩

section

variable [FloatFormat φ]

mutual

/-- The text of a document. -/
def render (sep : Separators) : Json φ → Str
  | .null => nullText
  | .bool b => if b then trueText else falseText
  | .int i => (Literal.ofInt i).text
  | .float x => floatText x
  | .str s => quoted s
  | .arr [] => [91, 93]
  | .arr (x :: xs) => 91 :: (render sep x ++ renderElems sep xs)
  | .obj [] => [123, 125]
  | .obj ((k, x) :: ms) => 123 :: (quoted k ++ (sep.key ++ (render sep x ++ renderMembers sep ms)))

/-- The elements after the first, up to the closing bracket. -/
def renderElems (sep : Separators) : List (Json φ) → Str
  | [] => [93]
  | x :: xs => sep.item ++ (render sep x ++ renderElems sep xs)

/-- The members after the first, up to the closing brace. -/
def renderMembers (sep : Separators) : List (Str × Json φ) → Str
  | [] => [125]
  | (k, x) :: ms =>
      sep.item ++ (quoted k ++ (sep.key ++ (render sep x ++ renderMembers sep ms)))

end

end

/-! ## Sorting and encoding -/

namespace Key

/-- How a key is written. -/
def text [FloatFormat φ] : Key φ → Str
  | .none => nullText
  | .bool b => if b then trueText else falseText
  | .int i => (Literal.ofInt i).text
  | .float x => floatText x
  | .str s => s

/-- The text of a string key. -/
def asStr : Key φ → Option Str
  | .str s => some s
  | _ => Option.none

/-- Where a number lies: below, at or above the rationals, and which one. -/
def rank [FloatFormat φ] : Key φ → Int × ℚ
  | .bool b => (0, if b then 1 else 0)
  | .int i => (0, i)
  | .float .posInf => (1, 0)
  | .float .negInf => (-1, 0)
  | .float (.finite x) => (0, FloatFormat.value x)
  | _ => (0, 0)

/-- Booleans are numbers. -/
def isNumber : Key φ → Bool
  | .bool _ | .int _ | .float _ => true
  | _ => false

/-- The key that compares with nothing. -/
def isNaN : Key φ → Bool
  | .float .nan => true
  | _ => false

end Key

/-- The order of two string keys. -/
def strLe {α : Type} (a b : Key φ × α) : Prop := a.1.asStr.getD [] ≤ b.1.asStr.getD []

/-- The order of two numeric keys. -/
def numLe [FloatFormat φ] {α : Type} (a b : Key φ × α) : Prop :=
  a.1.rank.1 < b.1.rank.1 ∨ a.1.rank.1 = b.1.rank.1 ∧ a.1.rank.2 ≤ b.1.rank.2

instance {α : Type} : DecidableRel (strLe : Key φ × α → Key φ × α → Prop) :=
  fun _ _ => inferInstanceAs (Decidable (_ ≤ _))

instance [FloatFormat φ] {α : Type} : DecidableRel (numLe : Key φ × α → Key φ × α → Prop) :=
  fun _ _ => inferInstanceAs (Decidable (_ ∨ _))

section

variable [FloatFormat φ]

/-- `sorted(d.items())`.  Keys that do not compare raise. -/
def sortItems {α : Type} (items : List (Key φ × α)) : Option (List (Key φ × α)) :=
  if items.length ≤ 1 then some items
  else if items.all fun i => i.1.asStr.isSome then some (items.insertionSort strLe)
  else if items.all fun i => i.1.isNumber then
    if items.any fun i => i.1.isNaN then some (FloatFormat.sortNaN items)
    else some (items.insertionSort numLe)
  else none

mutual

/-- The document of an object, with `sort_keys=True`.  `none` is the `TypeError`
of keys that do not compare. -/
def encode : PyVal φ → Option (Json φ)
  | .none => some .null
  | .bool b => some (.bool b)
  | .int i => some (.int i)
  | .float x => some (.float x)
  | .str s => some (.str s)
  | .list xs => (encodeList xs).map .arr
  | .dict items => do
      let encoded ← encodeItems items
      let sorted ← sortItems encoded
      return .obj (sorted.map fun i => (i.1.text, i.2))

/-- Element by element. -/
def encodeList : List (PyVal φ) → Option (List (Json φ))
  | [] => some []
  | x :: xs => do
      let y ← encode x
      let ys ← encodeList xs
      return y :: ys

/-- Value by value. -/
def encodeItems : List (Key φ × PyVal φ) → Option (List (Key φ × Json φ))
  | [] => some []
  | (k, x) :: items => do
      let y ← encode x
      let ys ← encodeItems items
      return (k, y) :: ys

end

/-- `json.dumps(v, sort_keys=True, separators=sep)`. -/
def dumps (sep : Separators) (v : PyVal φ) : Option Str := (encode v).map (render sep)

end

/-! ## Reading -/

/-- The whitespace of a document. -/
def isJsonSpace (c : CodePoint) : Bool := c = 32 || c = 9 || c = 10 || c = 13

/-- Skip whitespace. -/
def skipWs (s : Str) : Str := s.dropWhile isJsonSpace

/-- The value of a hexadecimal digit of either case. -/
def hexValue (c : CodePoint) : Option Nat :=
  if 48 ≤ c.val ∧ c.val ≤ 57 then some (c.val - 48)
  else if 97 ≤ c.val ∧ c.val ≤ 102 then some (c.val - 87)
  else if 65 ≤ c.val ∧ c.val ≤ 70 then some (c.val - 55)
  else none

/-- Four hexadecimal digits. -/
def scanHex : Str → Option (CodePoint × Str)
  | a :: b :: c :: d :: s => do
      let a ← hexValue a
      let b ← hexValue b
      let c ← hexValue c
      let d ← hexValue d
      return (Fin.ofNat 0x110000 (a * 4096 + b * 256 + c * 16 + d), s)
  | _ => none

/-- `\uXXXX` for a trailing surrogate. -/
def scanLow : Str → Option (CodePoint × Str)
  | b :: u :: s =>
      if b = 92 ∧ u = 117 then (scanHex s).filter fun p => isLow p.1 else none
  | _ => none

/-- A leading surrogate takes a trailing one with it. -/
def scanPair (c : CodePoint) (s : Str) : CodePoint × Str :=
  match scanLow s with
  | some (l, s) => (joinPair c l, s)
  | none => (c, s)

/-- What follows `\u`: a character, or two escapes that are one. -/
def scanUnicode (s : Str) : Option (CodePoint × Str) :=
  (scanHex s).map fun p => if isHigh p.1 then scanPair p.1 p.2 else p

/-- The character of a two-character escape. -/
def shortUnescape (e : CodePoint) : Option CodePoint :=
  if e = 34 then some 34
  else if e = 92 then some 92
  else if e = 47 then some 47
  else if e = 98 then some 8
  else if e = 102 then some 12
  else if e = 110 then some 10
  else if e = 114 then some 13
  else if e = 116 then some 9
  else none

/-- One character of a string.  Control characters are refused. -/
def scanChar : Str → Option (CodePoint × Str)
  | [] => none
  | c :: s =>
      if c = 92 then
        match s with
        | [] => none
        | e :: s => if e = 117 then scanUnicode s else (shortUnescape e).map fun c => (c, s)
      else if c.val < 0x20 then none
      else some (c, s)

/-- The characters of a string up to its closing quote. -/
def scanString : Nat → Str → Option (Str × Str)
  | 0, _ => none
  | _, [] => none
  | n + 1, c :: s =>
      if c = 34 then some ([], s)
      else do
        let (d, s) ← scanChar (c :: s)
        let (ds, s) ← scanString n s
        return (d :: ds, s)

/-- A decimal digit. -/
def isDigit (c : CodePoint) : Bool := 48 ≤ c.val && c.val ≤ 57

/-- The longest run of digits, and the rest. -/
def scanDigits (s : Str) : List Nat × Str :=
  ((s.takeWhile isDigit).map fun c => c.val - 48, s.dropWhile isDigit)

/-- A fraction, if one begins here. -/
def scanFrac : Str → List Nat × Str
  | [] => ([], [])
  | c :: s =>
      if c = 46 ∧ (scanDigits s).1 ≠ [] then scanDigits s else ([], c :: s)

/-- The sign of an exponent. -/
def scanSign : Str → ExpSign × Str
  | [] => (.none, [])
  | c :: s => if c = 43 then (.plus, s) else if c = 45 then (.minus, s) else (.none, c :: s)

/-- An exponent, if one begins here. -/
def scanExp : Str → Option (ExpSign × List Nat) × Str
  | [] => (none, [])
  | c :: s =>
      let (sign, r) := scanSign s
      let (ds, r) := scanDigits r
      if (c = 101 ∨ c = 69) ∧ ds ≠ [] then (some (sign, ds), r) else (none, c :: s)

/-- The digits before the point: a zero, or a run that does not begin with one. -/
def scanInt : Str → Option (List Nat × Str)
  | [] => none
  | c :: s =>
      if c = 48 then some ([0], s)
      else if isDigit c then some (scanDigits (c :: s))
      else none

/-- A leading minus sign. -/
def scanMinus : Str → Bool × Str
  | [] => (false, [])
  | c :: s => if c = 45 then (true, s) else (false, c :: s)

/-- A number. -/
def scanNumber (s : Str) : Option (Literal × Str) := do
  let (neg, s) := scanMinus s
  let (int, s) ← scanInt s
  let (frac, s) := scanFrac s
  let (exp, s) := scanExp s
  return (⟨neg, int, frac, exp⟩, s)

section

variable [FloatFormat φ]

/-- The value of a number. -/
def ofLiteral (l : Literal) : Json φ :=
  if l.isFloat then .float (FloatFormat.read l) else .int l.toInt

/-- A constant or a number. -/
def parseAtom (s : Str) : Option (Json φ × Str) :=
  if nullText.isPrefixOf s then some (.null, s.drop 4)
  else if trueText.isPrefixOf s then some (.bool true, s.drop 4)
  else if falseText.isPrefixOf s then some (.bool false, s.drop 5)
  else if nanText.isPrefixOf s then some (.float .nan, s.drop 3)
  else if infinityText.isPrefixOf s then some (.float .posInf, s.drop 8)
  else if negInfinityText.isPrefixOf s then some (.float .negInf, s.drop 9)
  else (scanNumber s).map fun p => (ofLiteral p.1, p.2)

/-- A string after its opening quote. -/
def parseString (s : Str) : Option (Str × Str) := scanString (s.length + 1) s

/-- A key with its opening quote, and the colon after it. -/
def parseKey : Str → Option (Str × Str)
  | [] => none
  | q :: s =>
      if q = 34 then do
        let (k, s) ← parseString s
        match skipWs s with
        | c :: s => if c = 58 then some (k, skipWs s) else none
        | [] => none
      else none

mutual

/-- A value, and the text after it. -/
def parseValue : Nat → Str → Option (Json φ × Str)
  | 0, _ => none
  | _, [] => none
  | n + 1, c :: s =>
      if c = 34 then (parseString s).map fun p => (.str p.1, p.2)
      else if c = 91 then
        match skipWs s with
        | [] => none
        | d :: s =>
            if d = 93 then some (.arr [], s)
            else do
              let (x, s) ← parseValue n (d :: s)
              let (xs, s) ← parseElems n (skipWs s)
              return (.arr (x :: xs), s)
      else if c = 123 then
        match skipWs s with
        | [] => none
        | d :: s =>
            if d = 125 then some (.obj [], s)
            else do
              let (k, s) ← parseKey (d :: s)
              let (x, s) ← parseValue n s
              let (ms, s) ← parseMembers n (skipWs s)
              return (.obj ((k, x) :: ms), s)
      else parseAtom (c :: s)

/-- The elements after the first, up to the closing bracket. -/
def parseElems : Nat → Str → Option (List (Json φ) × Str)
  | 0, _ => none
  | _, [] => none
  | n + 1, c :: s =>
      if c = 93 then some ([], s)
      else if c = 44 then do
        let (x, s) ← parseValue n (skipWs s)
        let (xs, s) ← parseElems n (skipWs s)
        return (x :: xs, s)
      else none

/-- The members after the first, up to the closing brace. -/
def parseMembers : Nat → Str → Option (List (Str × Json φ) × Str)
  | 0, _ => none
  | _, [] => none
  | n + 1, c :: s =>
      if c = 125 then some ([], s)
      else if c = 44 then do
        let (k, s) ← parseKey (skipWs s)
        let (x, s) ← parseValue n s
        let (ms, s) ← parseMembers n (skipWs s)
        return ((k, x) :: ms, s)
      else none

end

/-- The document that a text is.  A byte order mark is refused. -/
def parse (s : Str) : Option (Json φ) :=
  if s.head? = some 0xFEFF then none
  else do
    let (j, s) ← parseValue (s.length + 1) (skipWs s)
    if skipWs s = [] then some j else none

end

mutual

/-- The object of a document. -/
def load : Json φ → PyVal φ
  | .null => .none
  | .bool b => .bool b
  | .int i => .int i
  | .float x => .float x
  | .str s => .str s
  | .arr xs => .list (loadList xs)
  | .obj ms => .dict ((Dict.ofPairs (loadMembers ms)).map fun m => (.str m.1, m.2))

/-- Element by element. -/
def loadList : List (Json φ) → List (PyVal φ)
  | [] => []
  | x :: xs => load x :: loadList xs

/-- Value by value. -/
def loadMembers : List (Str × Json φ) → List (Str × PyVal φ)
  | [] => []
  | (k, x) :: ms => (k, load x) :: loadMembers ms

end

/-- `json.loads`.  `none` is the `ValueError` of a malformed text. -/
def loads [FloatFormat φ] (s : Str) : Option (PyVal φ) := (parse s).map load

end Py
