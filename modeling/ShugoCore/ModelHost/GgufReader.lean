import ShugoCore.Lib.ByteStrings
import ShugoCore.Lib.Dict

/-!
# Reading a GGUF header

`read_metadata` of `gguf_meta.py` takes the geometry of a model off the header of its file.  It goes
through the pairs of the header, keeps the values of the keys it wants, and walks past the others.

The state of each function is what has not been read of the file.  A loop that walks past the items
of an array ends at the first item it cannot read.  How a float is written is a parameter.
-/

namespace ShugoCore

open Py

/-- `str(x)` of a float. -/
class FloatWriter where
  floatText : PyFloat ℚ → Str

namespace Gguf

/-- A value that is kept. -/
inductive Scalar where
  | int (n : Int)
  | float (x : PyFloat ℚ)
  | bool (b : Bool)
  | text (s : Str)
deriving DecidableEq, Repr

/-- `GGUF_MAGIC`. -/
def magic : List Nat := [0x47, 0x47, 0x55, 0x46]

/-- `_FIXED_WIDTH`. -/
def fixedWidth : Dict Nat Nat :=
  [(0, 1), (1, 1), (2, 2), (3, 2), (4, 4), (5, 4), (6, 4), (7, 1), (10, 8), (11, 8), (12, 8)]

/-- The key of the architecture. -/
def archKey : Str := lit "general.architecture"

/-- `WANTED_SUFFIXES`. -/
def wantedSuffixes : List Str :=
  [lit "block_count", lit "attention.head_count", lit "attention.head_count_kv",
    lit "attention.key_length", lit "attention.value_length", lit "embedding_length",
    lit "context_length"]

/-- `NEEDED`. -/
def needed : List Str :=
  [lit "block_count", lit "attention.head_count", lit "embedding_length",
    lit "attention.head_count_kv"]

/-! ## Values -/

/-- `_u32`. -/
def u32 (data : List Nat) : Nat := if 4 ≤ data.length then fromBytes (data.take 4) else 0

/-- `_u64`. -/
def u64 (data : List Nat) : Nat := if 8 ≤ data.length then fromBytes (data.take 8) else 0

/-- The length from which a text is not read. -/
def maxText : Nat := 4 * 1024 * 1024

/-- `_read_string`. -/
def readString : Reader (Option Str) := do
  let raw ← readBytes 8
  if raw.length < 8 then return none
  else
    let length := u64 raw
    if length = 0 then return some []
    else if maxText < length then return none
    else
      let data ← readBytes length
      if data.length < length then return none
      else return some (decodeReplacing data)

/-- `_item_size`. -/
def itemSize (itemKind : Nat) : Reader Nat :=
  match Dict.get? fixedWidth itemKind with
  | some width => do
      let data ← readBytes width
      return if data.length = width then width else 0
  | none =>
      if itemKind = 12 then do
        let data ← readBytes 8
        return if data.length = 8 then 8 else 0
      else if itemKind = 8 then do
        let value ← readString
        return value.elim 0 fun text => 8 + (utf8 text).length
      else if itemKind = 9 then do
        let head ← readBytes 12
        return if head.length = 12 then 16 else 0
      else return 0

/-- The loop over the items of an array: what has been spent. -/
def skipItems (itemKind : Nat) : Nat → Nat → Reader Nat
  | 0, spent => return spent
  | items + 1, spent => do
      let size ← itemSize itemKind
      if size = 0 then return spent + size else skipItems itemKind items (spent + size)

/-- `_read_value` of an array, behind its type: nothing is kept. -/
def readArray : Reader (Option (Option Scalar × Nat)) := do
  let head ← readBytes 12
  if head.length < 12 then return some (none, 4)
  else
    let itemKind := u32 (head.take 4)
    let items := u64 (head.drop 4)
    if 4096 < items then return none
    else
      let spent ← skipItems itemKind items 16
      return some (none, spent)

/-- `_read_value` behind the type of a value. -/
def readBody (kind : Nat) : Reader (Option (Option Scalar × Nat)) :=
  match Dict.get? fixedWidth kind with
  | some width => do
      let data ← readBytes width
      if data.length < width then return some (none, 4)
      else if kind = 6 then return some (some (.float (unpackFloat data)), 4 + width)
      else if kind = 7 then return some (some (.bool (data.head? ≠ some 0)), 4 + width)
      else return some (some (.int (intFromBytes (kind ∈ [1, 3, 5, 11]) data)), 4 + width)
  | none =>
      if kind = 12 then do
        let data ← readBytes 8
        return some (if data.length = 8 then some (.float (unpackDouble data)) else none, 12)
      else if kind = 8 then do
        let value ← readString
        return some (value.map .text, 4 + value.elim 8 fun text => 8 + (utf8 text).length)
      else if kind = 9 then readArray
      else return some (none, 4)

/-- `_read_value`: the value and the bytes it says it has consumed, or `_StopScan`. -/
def readValue (depth : Nat) : Reader (Option (Option Scalar × Nat)) := do
  let raw ← readBytes 4
  if raw.length < 4 then return some (none, 0)
  else if 2 < depth then return some (none, 4)
  else readBody (u32 raw)

/-! ## The scan -/

/-- What the scan keeps. -/
structure Scan where
  out : Dict Str (Option Scalar)
  arch : Str
  consumed : Nat

/-- `str(value or "")`. -/
def textOf [FloatWriter] : Option Scalar → Str
  | none => []
  | some (.int n) => if n = 0 then [] else (Literal.ofInt n).text
  | some (.float x) => if x = .finite 0 then [] else FloatWriter.floatText x
  | some (.bool b) => if b then lit "True" else []
  | some (.text s) => s

/-- `name.split(".", 1)[1]`, of a name with a dot. -/
def afterDot (name : Str) : Str := (name.dropWhile fun c => c ≠ 46).tail

/-- A name starts with the architecture and a dot, and what stands behind its first dot is wanted. -/
def wanted (arch name : Str) : Bool :=
  arch ≠ [] && (arch ++ [46]).isPrefixOf name && afterDot name ∈ wantedSuffixes

variable [FloatWriter]

/-- A value is kept if it is the architecture, or wanted. -/
def Scan.note (s : Scan) (name : Str) (value : Option Scalar) : Scan :=
  if name = archKey then { s with arch := textOf value }
  else if wanted s.arch name then
    { s with out := Dict.set s.out (afterDot name) value }
  else s

/-- Everything that is needed has been found. -/
def Scan.complete (s : Scan) : Bool :=
  s.arch ≠ [] && needed.all fun key => key ∈ s.out.map Prod.fst

/-- Something has been read. -/
def Scan.consume (s : Scan) (size : Nat) : Scan := { s with consumed := s.consumed + size }

/-- The loop over the pairs. -/
def scan (maxBytes : Int) : Nat → Scan → Reader Scan
  | 0, s => return s
  | count + 1, s => do
      match ← readString with
      | none => return s
      | some name =>
          let s := s.consume (name.length + 8)
          if maxBytes < s.consumed then return s
          else
            match ← readValue 0 with
            | none => return s
            | some (value, size) =>
                let s := (s.consume size).note name value
                if s.complete then return s else scan maxBytes count s

/-- What is returned of a scan. -/
def Scan.report (s : Scan) : Dict Str (Option Scalar) :=
  if s.arch ≠ [] then Dict.set s.out (lit "architecture") (some (.text s.arch)) else s.out

/-- `_parse`. -/
def parse (maxBytes maxPairs : Int) : Reader (Dict Str (Option Scalar)) := do
  let head ← readBytes 4
  if head ≠ magic then return []
  else
    let raw ← readBytes 4
    if u32 raw ≠ 2 ∧ u32 raw ≠ 3 then return []
    else
      let _ ← readBytes 8
      let raw ← readBytes 8
      let count := u64 raw
      if count = 0 ∨ maxPairs < count then return []
      else
        let s ← scan maxBytes count ⟨[], [], 0⟩
        return s.report

/-- `read_metadata`, of the bytes of a file.  There are none if it cannot be opened. -/
def readMetadata (maxBytes maxPairs : Int) : Option (List Nat) → Dict Str (Option Scalar)
  | none => []
  | some bytes => (parse maxBytes maxPairs bytes).1

/-! ## The end of the file -/

omit [FloatWriter]

theorem readString_readsOn : ReadsOn readString := by
  refine .bind (.readBytes 8) fun raw => ?_
  split
  · exact .pure none
  · dsimp only
    split
    · exact .pure (some [])
    · split
      · exact .pure none
      · refine .bind (.readBytes _) fun data => ?_
        split
        · exact .pure none
        · exact .pure (some _)

theorem itemSize_readsOn (itemKind : Nat) : ReadsOn (itemSize itemKind) := by
  rw [itemSize]
  split
  · exact .bind (.readBytes _) fun data => .pure _
  · split
    · exact .bind (.readBytes 8) fun data => .pure _
    · split
      · exact .bind readString_readsOn fun value => .pure _
      · split
        · exact .bind (.readBytes 12) fun head => .pure _
        · exact .pure 0

theorem skipItems_readsOn (itemKind items spent : Nat) :
    ReadsOn (skipItems itemKind items spent) := by
  induction items generalizing spent with
  | zero => exact .pure spent
  | succ items ih =>
      refine .bind (itemSize_readsOn itemKind) fun size => ?_
      split
      · exact .pure _
      · exact ih (spent + size)

theorem readArray_readsOn : ReadsOn readArray := by
  refine .bind (.readBytes 12) fun head => ?_
  split
  · exact .pure _
  · dsimp only
    split
    · exact .pure none
    · exact .bind (skipItems_readsOn _ _ 16) fun spent => .pure _

theorem readBody_readsOn (kind : Nat) : ReadsOn (readBody kind) := by
  rw [readBody]
  split
  · refine .bind (.readBytes _) fun data => ?_
    split_ifs <;> exact .pure _
  · split
    · exact .bind (.readBytes 8) fun data => .pure _
    · split
      · exact .bind readString_readsOn fun value => .pure _
      · split
        · exact readArray_readsOn
        · exact .pure _

theorem readValue_readsOn (depth : Nat) : ReadsOn (readValue depth) := by
  refine .bind (.readBytes 4) fun raw => ?_
  split
  · exact .pure _
  · split
    · exact .pure _
    · exact readBody_readsOn (u32 raw)

variable [FloatWriter]

theorem scan_readsOn (maxBytes : Int) (count : Nat) (s : Scan) : ReadsOn (scan maxBytes count s) := by
  induction count generalizing s with
  | zero => exact .pure s
  | succ count ih =>
      refine .bind readString_readsOn fun name => ?_
      split
      · exact .pure s
      · dsimp only
        split
        · exact .pure _
        · refine .bind (readValue_readsOn 0) fun reading => ?_
          split
          · exact .pure _
          · split
            · exact .pure _
            · exact ih _

/-- Whatever the file is, nothing is read behind the end of it. -/
theorem parse_readsOn (maxBytes maxPairs : Int) : ReadsOn (parse maxBytes maxPairs) := by
  refine .bind (.readBytes 4) fun head => ?_
  split
  · exact .pure []
  · refine .bind (.readBytes 4) fun raw => ?_
    split
    · exact .pure []
    · refine .bind (.readBytes 8) fun _ => .bind (.readBytes 8) fun raw => ?_
      dsimp only
      split
      · exact .pure []
      · exact .bind (scan_readsOn maxBytes _ _) fun s => .pure _

end Gguf

end ShugoCore
