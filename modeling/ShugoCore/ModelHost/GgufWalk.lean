import ShugoCore.ModelHost.GgufFormat

/-!
# Walking through a GGUF header

What the reader does on the bytes of a header.  It walks past a value that is `Walkable`: behind it
stands the next pair.  A text of more than 4 MiB is not walked past, and of an array in an array no
more than the type and the number of its items is.

For a header in which every value that is walked past is walkable, the scan over the bytes is the one
over the pairs (`scan_encode`).
-/

namespace ShugoCore.Gguf

open Py

/-! ## Texts and numbers -/

theorem u32_toBytes {n : Nat} (h : n < 2 ^ 32) : u32 (toBytes 4 n) = n := by
  rw [u32, length_toBytes, if_pos le_rfl, List.take_of_length_le (length_toBytes 4 n).le,
    fromBytes_toBytes h]

theorem u64_toBytes {n : Nat} (h : n < 2 ^ 64) : u64 (toBytes 8 n) = n := by
  rw [u64, length_toBytes, if_pos le_rfl, List.take_of_length_le (length_toBytes 8 n).le,
    fromBytes_toBytes h]

/-- What stands in front is read, and the rest is left to what follows. -/
theorem bind_read {α : Type} {n : Nat} {data : List Nat} (h : data.length = n) (rest : List Nat)
    (f : List Nat → Reader α) : (readBytes n >>= f) (data ++ rest) = f data rest :=
  reader_bind_eq (readBytes_append h rest) f

theorem text_eq_nil {s : Str} (h : (utf8 s).length = 0) : s = [] := by
  cases s with
  | nil => rfl
  | cons c s =>
      have hpos : 0 < (utf8 [c]).length := by
        rw [utf8, List.flatMap_singleton]
        split_ifs <;> simp
      have hsplit : utf8 (c :: s) = utf8 [c] ++ utf8 s := by simp [utf8]
      rw [hsplit, List.length_append] at h
      omega

/-- A text is read, unless it is too long. -/
theorem readString_encode (t : Text) (rest : List Nat) :
    readString (t.encode ++ rest) =
      if t.size ≤ maxText then (some t.text, rest) else (none, utf8 t.text ++ rest) := by
  rw [readString, Text.encode, List.append_assoc, bind_read (length_toBytes 8 t.size),
    if_neg (by simp), u64_toBytes (show t.size < 2 ^ 64 from t.size_lt)]
  split
  · rename_i hzero
    have hnil := text_eq_nil hzero
    rw [if_pos (by omega), hnil]
    rfl
  · by_cases hlong : maxText < t.size
    · rw [if_pos hlong, if_neg (not_le.2 hlong)]
      rfl
    · have hsize : (utf8 t.text).length = t.size := rfl
      rw [if_neg hlong, if_pos (not_lt.1 hlong), bind_read hsize, if_neg (not_lt.2 hsize.ge),
        decodeReplacing_utf8 t.plain]
      rfl

/-! ## Items -/

/-- The width of a type, if it is fixed. -/
def Kind.width : Kind → Option Nat
  | .int k => some k.width
  | .float32 => some 4
  | .bool => some 1
  | .string => none
  | .array => none
  | .float64 => some 8

theorem get?_fixedWidth (k : Kind) : Dict.get? fixedWidth k.tag = k.width := by
  cases k with
  | int k => cases k <;> rfl
  | _ => rfl

theorem length_encode {k : Kind} {w : Nat} (h : k.width = some w) (v : Value k) :
    v.encode.length = w := by
  cases v with
  | int bits =>
      cases h
      exact length_toBytes _ _
  | float32 bits =>
      cases h
      exact length_toBytes _ _
  | bool b =>
      cases h
      rfl
  | string t => cases h
  | array items hn => cases h
  | float64 bits =>
      cases h
      exact length_toBytes _ _

/-- The number of bytes that are counted for an item.  For an array it is more than are read. -/
def Value.itemSize : {k : Kind} → Value k → Nat
  | _, .string t => 8 + t.size
  | _, .array _ _ => 16
  | _, v => v.encode.length

/-- An item that is walked past: an array only if it is empty. -/
def Value.ItemWalkable : {k : Kind} → Value k → Prop
  | _, .string t => t.size ≤ maxText
  | _, @Value.array _ n _ _ => n = 0
  | _, _ => True

theorem itemSize_of_width {k : Kind} {w : Nat} (h : k.width = some w) (v : Value k) :
    v.itemSize = w := by
  cases v with
  | string t => cases h
  | array items hn => cases h
  | _ => exact length_encode h _

/-- The reader finds the size of an item of a fixed width. -/
theorem itemSize_fixed {k : Kind} {w : Nat} (h : k.width = some w) (v : Value k) (rest : List Nat) :
    itemSize k.tag (v.encode ++ rest) = (v.itemSize, rest) := by
  rw [itemSize, get?_fixedWidth, h]
  dsimp only
  rw [bind_read (length_encode h v), if_pos (length_encode h v), itemSize_of_width h]
  rfl

/-- An item is walked past. -/
theorem itemSize_encode {k : Kind} (v : Value k) (h : v.ItemWalkable) (rest : List Nat) :
    itemSize k.tag (v.encode ++ rest) = (v.itemSize, rest) := by
  cases v with
  | string t =>
      have hread := readString_encode t rest
      rw [if_pos (show t.size ≤ maxText from h)] at hread
      rw [itemSize, get?_fixedWidth]
      exact reader_bind_eq hread _
  | @array item n items hn =>
      -- An empty array is its type and the number of its items.
      have hempty : (Value.array items hn).encode = toBytes 4 item.tag ++ toBytes 8 n := by
        obtain rfl : n = 0 := h
        cases items
        rw [Value.encode, Items.encode, List.append_nil]
      rw [hempty, itemSize, get?_fixedWidth]
      exact bind_read (by simp) rest _
  | _ => exact itemSize_fixed rfl _ rest

/-- Every item is walked past. -/
def Items.Walkable : {item : Kind} → {n : Nat} → Items item n → Prop
  | _, _, .nil => True
  | _, _, .cons v rest => v.ItemWalkable ∧ rest.Walkable

/-- What is counted for the items of an array. -/
def Items.size : {item : Kind} → {n : Nat} → Items item n → Nat
  | _, _, .nil => 0
  | _, _, .cons v rest => v.itemSize + rest.size

theorem itemSize_pos {k : Kind} (v : Value k) : v.itemSize ≠ 0 := by
  cases v with
  | int bits =>
      rename_i k
      rw [itemSize_of_width rfl]
      cases k <;> decide
  | string t =>
      rw [Value.itemSize]
      omega
  | array items hn => exact Nat.succ_ne_zero 15
  | _ => exact (itemSize_of_width rfl _).trans_ne (by decide)

/-- The items of an array are walked past. -/
theorem skipItems_encode : {item : Kind} → {n : Nat} → (items : Items item n) → items.Walkable →
    (spent : Nat) → (rest : List Nat) →
    skipItems item.tag n spent (items.encode ++ rest) = (spent + items.size, rest)
  | _, _, .nil, _, _, _ => rfl
  | _, _, .cons v items, h, spent, rest => by
      rw [skipItems, Items.encode, List.append_assoc, reader_bind_eq (itemSize_encode v h.1 _),
        if_neg (itemSize_pos v), skipItems_encode items h.2 (spent + v.itemSize) rest, Items.size,
        Nat.add_assoc]

/-! ## Values -/

/-- What is kept of a value: of an array and of a long text nothing, and of a float of eight bytes
the number in its bytes. -/
def Value.read : {k : Kind} → Value k → Option Scalar
  | .int k, .int bits => some (.int (if k.signed then bits.toInt else bits.toNat))
  | _, .float32 bits => some (.float (floatFromBits 8 23 bits.toNat))
  | _, .bool b => some (.bool b)
  | _, .string t => if t.size ≤ maxText then some (.text t.text) else none
  | _, .array _ _ => none
  | _, .float64 bits => some (.int bits.toNat)

/-- What is counted for a value. -/
def Value.size : {k : Kind} → Value k → Nat
  | _, .string t => 12 + t.size
  | _, .array items _ => 16 + items.size
  | _, v => 4 + v.encode.length

/-- A value that is walked past. -/
def Value.Walkable : {k : Kind} → Value k → Prop
  | _, .string t => t.size ≤ maxText
  | _, .array items _ => items.Walkable
  | _, _ => True

/-- A value at which the scan stops. -/
def Value.stops : {k : Kind} → Value k → Bool
  | _, @Value.array _ n _ _ => 4096 < n
  | _, _ => false

instance : {k : Kind} → (v : Value k) → Decidable v.ItemWalkable
  | _, .int _ | _, .float32 _ | _, .bool _ | _, .float64 _ => inferInstanceAs (Decidable True)
  | _, .string t => inferInstanceAs (Decidable (t.size ≤ maxText))
  | _, @Value.array _ n _ _ => inferInstanceAs (Decidable (n = 0))

instance Items.decidableWalkable : {item : Kind} → {n : Nat} → (items : Items item n) →
    Decidable items.Walkable
  | _, _, .nil => inferInstanceAs (Decidable True)
  | _, _, .cons v rest =>
      have : Decidable rest.Walkable := Items.decidableWalkable rest
      inferInstanceAs (Decidable (v.ItemWalkable ∧ rest.Walkable))

instance : {k : Kind} → (v : Value k) → Decidable v.Walkable
  | _, .int _ | _, .float32 _ | _, .bool _ | _, .float64 _ => inferInstanceAs (Decidable True)
  | _, .string t => inferInstanceAs (Decidable (t.size ≤ maxText))
  | _, .array items _ => inferInstanceAs (Decidable items.Walkable)

theorem tag_lt (k : Kind) : k.tag < 2 ^ 32 := by
  cases k with
  | int k => cases k <;> decide
  | _ => decide

/-- The reader takes the type of a value, and goes on with the value. -/
theorem readValue_tag (k : Kind) (rest : List Nat) :
    readValue 0 (toBytes 4 k.tag ++ rest) = readBody k.tag rest := by
  rw [readValue, bind_read (length_toBytes 4 k.tag), if_neg (by simp), if_neg (by decide),
    u32_toBytes (tag_lt k)]

theorem signed_tag (k : IntKind) : decide ((Kind.int k).tag ∈ [1, 3, 5, 11]) = k.signed := by
  cases k <;> decide

/-- A value of a fixed width is read, and walked past. -/
theorem readBody_fixed {k : Kind} {w : Nat} (h : k.width = some w) (v : Value k) (rest : List Nat) :
    readBody k.tag (v.encode ++ rest) = (some (v.read, v.size), rest) := by
  have hlength := length_encode h v
  rw [readBody, get?_fixedWidth, h]
  dsimp only
  rw [bind_read hlength, if_neg (by omega)]
  cases v with
  | @int k bits =>
      have h6 : (Kind.int k).tag ≠ 6 := by cases k <;> decide
      have h7 : (Kind.int k).tag ≠ 7 := by cases k <;> decide
      have hsize : (Value.int bits).size = 4 + w := congrArg (4 + ·) hlength
      rw [if_neg h6, if_neg h7, signed_tag, Value.encode, intFromBytes_toBytes, hsize]
      rfl
  | float32 bits =>
      have hdata : unpackFloat (toBytes 4 bits.toNat) = floatFromBits 8 23 bits.toNat := by
        rw [unpackFloat, fromBytes_toBytes bits.isLt]
      cases h
      rw [if_pos (show Kind.float32.tag = 6 from rfl), Value.encode, hdata]
      rfl
  | bool b =>
      cases h
      cases b <;> rfl
  | string t => cases h
  | array items hn => cases h
  | float64 bits =>
      have hdata : intFromBytes false (toBytes 8 bits.toNat) = bits.toNat := by
        rw [intFromBytes, if_neg (by simp), fromBytes_toBytes bits.isLt]
      cases h
      rw [if_neg (show Kind.float64.tag ≠ 6 by decide), if_neg (show Kind.float64.tag ≠ 7 by decide),
        show decide (Kind.float64.tag ∈ [1, 3, 5, 11]) = false by decide, Value.encode, hdata]
      rfl

/-- A text is read, and walked past unless it is too long. -/
theorem readBody_string (t : Text) (rest : List Nat) :
    ∃ size rest', readBody Kind.string.tag (t.encode ++ rest) =
        (some ((Value.string t).read, size), rest') ∧
      (t.size ≤ maxText → size = (Value.string t).size ∧ rest' = rest) := by
  have hbody : readBody Kind.string.tag = readString >>= fun value =>
      return some (value.map .text, 4 + value.elim 8 fun text => 8 + (utf8 text).length) := rfl
  have hread := readString_encode t rest
  rw [hbody]
  split at hread
  · rename_i hshort
    refine ⟨12 + t.size, rest, ?_, fun _ => ⟨rfl, rfl⟩⟩
    rw [reader_bind_eq hread, Value.read, if_pos hshort, Option.elim, ← add_assoc]
    rfl
  · rename_i hlong
    refine ⟨12, utf8 t.text ++ rest, ?_, fun h => absurd h hlong⟩
    rw [reader_bind_eq hread, Value.read, if_neg hlong]
    rfl

/-- The number of items decides whether an array is walked into. -/
theorem readArray_encode {item : Kind} {n : Nat} (items : Items item n) (hn : n < 2 ^ 64)
    (rest : List Nat) :
    readArray ((Value.array items hn).encode ++ rest) =
      if 4096 < n then (none, items.encode ++ rest)
      else
        (some (none, (skipItems item.tag n 16 (items.encode ++ rest)).1),
          (skipItems item.tag n 16 (items.encode ++ rest)).2) := by
  rw [Value.encode, List.append_assoc, readArray, bind_read (by simp), if_neg (by simp),
    List.take_left' (length_toBytes 4 item.tag), List.drop_left' (length_toBytes 4 item.tag),
    u32_toBytes (tag_lt item), u64_toBytes hn]
  split <;> rfl

theorem readBody_array : readBody Kind.array.tag = readArray := rfl

/-- Of an array nothing is kept.  It is walked past if its items are. -/
theorem readArray_walk {item : Kind} {n : Nat} (items : Items item n) (hn : n < 2 ^ 64)
    (hstop : n ≤ 4096) (rest : List Nat) :
    ∃ size rest', readArray ((Value.array items hn).encode ++ rest) = (some (none, size), rest') ∧
      (items.Walkable → size = (Value.array items hn).size ∧ rest' = rest) := by
  refine ⟨_, _, (readArray_encode items hn rest).trans (if_neg (not_lt.2 hstop)), fun hwalk => ?_⟩
  rw [skipItems_encode items hwalk]
  exact ⟨rfl, rfl⟩

/-- The scan stops at an array with many items. -/
theorem readBody_stops {k : Kind} {v : Value k} (h : v.stops = true) (rest : List Nat) :
    (readBody k.tag (v.encode ++ rest)).1 = none := by
  cases v with
  | @array item n items hn =>
      have hmany : 4096 < n := by simpa [Value.stops] using h
      rw [readBody_array, readArray_encode, if_pos hmany]
  | _ => cases h

/-- The reader keeps of a value what it keeps, and walks past it if it is walkable. -/
theorem readValue_encode {k : Kind} (v : Value k) (h : v.stops = false) (rest : List Nat) :
    ∃ size rest', readValue 0 (toBytes 4 k.tag ++ (v.encode ++ rest)) =
        (some (v.read, size), rest') ∧
      (v.Walkable → size = v.size ∧ rest' = rest) := by
  rw [readValue_tag]
  cases v with
  | string t => exact readBody_string t rest
  | @array item n items hn =>
      rw [readBody_array]
      exact readArray_walk items hn (by simpa [Value.stops] using h) rest
  | _ => exact ⟨_, _, readBody_fixed rfl _ rest, fun _ => ⟨rfl, rfl⟩⟩

/-! ## The scan over the pairs -/

variable [FloatWriter]

/-- The scan does not come to the value of a pair. -/
def Scan.halts (maxBytes : Int) (s : Scan) (p : Pair) : Bool :=
  maxText < p.key.size || maxBytes < (s.consume (p.key.text.length + 8)).consumed || p.value.stops

/-- The scan with a pair. -/
def Scan.take (s : Scan) (p : Pair) : Scan :=
  ((s.consume (p.key.text.length + 8)).consume p.value.size).note p.key.text p.value.read

/-- The pairs whose values are read. -/
def reached (maxBytes : Int) : List Pair → Scan → List Pair
  | [], _ => []
  | p :: ps, s =>
      if s.halts maxBytes p then []
      else if (s.take p).complete then [p]
      else p :: reached maxBytes ps (s.take p)

/-- Behind every value, as long as the scan goes on, it finds the next pair. -/
def InStep (maxBytes : Int) : List Pair → Scan → Prop
  | [], _ => True
  | p :: ps, s =>
      s.halts maxBytes p = true ∨ (s.take p).complete = true ∨ ps = [] ∨
        p.value.Walkable ∧ InStep maxBytes ps (s.take p)

instance InStep.decidable (maxBytes : Int) :
    (ps : List Pair) → (s : Scan) → Decidable (InStep maxBytes ps s)
  | [], _ => inferInstanceAs (Decidable True)
  | p :: ps, s =>
      have : Decidable (InStep maxBytes ps (s.take p)) := InStep.decidable maxBytes ps (s.take p)
      inferInstanceAs (Decidable (s.halts maxBytes p = true ∨ (s.take p).complete = true ∨ ps = [] ∨
        p.value.Walkable ∧ InStep maxBytes ps (s.take p)))

/-- What has been consumed does not matter to what is kept. -/
theorem note_consume (s : Scan) (size : Nat) (name : Str) (value : Option Scalar) :
    (s.consume size).note name value = (s.note name value).consume size := by
  rw [Scan.note, Scan.note]
  split
  · rfl
  · show (if wanted s.arch name then _ else _) = _
    split <;> rfl

theorem report_note_consume (s : Scan) (size size' : Nat) (name : Str) (value : Option Scalar) :
    (((s.consume size).consume size').note name value).report = (s.note name value).report := by
  rw [note_consume, note_consume]
  rfl

theorem complete_note_consume (s : Scan) (size size' : Nat) (name : Str) (value : Option Scalar) :
    (((s.consume size).consume size').note name value).complete =
      (s.note name value).complete := by
  rw [note_consume, note_consume]
  rfl

/-- One pair: the scan stops in front of its value, or goes on with the value, and behind it if it is
walked past. -/
theorem scan_pair (maxBytes : Int) (count : Nat) (s : Scan) (p : Pair) (rest : List Nat) :
    (s.halts maxBytes p = true →
      (scan maxBytes (count + 1) s (p.encode ++ rest)).1.report = s.report) ∧
    (s.halts maxBytes p = false → ∃ size rest',
      scan maxBytes (count + 1) s (p.encode ++ rest) =
        (let s' := ((s.consume (p.key.text.length + 8)).consume size).note p.key.text p.value.read
        if s'.complete then (s', rest') else scan maxBytes count s' rest') ∧
      (p.value.Walkable → size = p.value.size ∧ rest' = rest)) := by
  have hkey := readString_encode p.key (toBytes 4 p.kind.tag ++ (p.value.encode ++ rest))
  have hpair : p.encode ++ rest =
      p.key.encode ++ (toBytes 4 p.kind.tag ++ (p.value.encode ++ rest)) := by
    simp only [Pair.encode, List.append_assoc]
  rw [hpair, scan]
  split at hkey
  · rename_i hshort
    rw [reader_bind_eq hkey]
    dsimp only
    split
    · rename_i hbytes
      refine ⟨fun _ => rfl, fun hgo => ?_⟩
      simp [Scan.halts, hbytes] at hgo
    · rename_i hbytes
      cases hstop : p.value.stops with
      | true =>
          refine ⟨fun _ => ?_, fun hgo => ?_⟩
          · have hnone : (readValue 0 (toBytes 4 p.kind.tag ++ (p.value.encode ++ rest))).1 = none := by
              rw [readValue_tag]
              exact readBody_stops hstop rest
            rw [reader_bind, hnone]
            rfl
          · simp [Scan.halts, hstop] at hgo
      | false =>
          refine ⟨fun hhalt => ?_, fun _ => ?_⟩
          · have hlong : maxText < p.key.size := by simpa [Scan.halts, hstop, hbytes] using hhalt
            exact absurd hlong (not_lt.2 hshort)
          · obtain ⟨size, rest', hvalue, hwalk⟩ := readValue_encode p.value hstop rest
            refine ⟨size, rest', ?_, hwalk⟩
            rw [reader_bind_eq hvalue]
            dsimp only
            split <;> rfl
  · rename_i hlong
    rw [reader_bind_eq hkey]
    refine ⟨fun _ => rfl, fun hgo => ?_⟩
    simp [Scan.halts, hlong] at hgo

/-- As long as it is in step, the scan over the bytes is the scan over the pairs. -/
theorem scan_encode (maxBytes : Int) {ps : List Pair} {s : Scan} (h : InStep maxBytes ps s)
    (tail : List Nat) :
    (scan maxBytes ps.length s (ps.flatMap Pair.encode ++ tail)).1.report =
      ((reached maxBytes ps s).foldl Scan.take s).report := by
  induction ps generalizing s with
  | nil => rfl
  | cons p ps ih =>
      rw [List.flatMap_cons, List.append_assoc, List.length_cons, reached]
      obtain ⟨hhalt, hgo⟩ := scan_pair maxBytes ps.length s p (ps.flatMap Pair.encode ++ tail)
      cases hhalts : s.halts maxBytes p with
      | true => exact hhalt hhalts
      | false =>
          obtain ⟨size, rest', hscan, hwalk⟩ := hgo hhalts
          have hcomplete : (((s.consume (p.key.text.length + 8)).consume size).note p.key.text
              p.value.read).complete = (s.take p).complete := by
            rw [Scan.take, complete_note_consume, complete_note_consume]
          have hreport : (((s.consume (p.key.text.length + 8)).consume size).note p.key.text
              p.value.read).report = (s.take p).report := by
            rw [Scan.take, report_note_consume, report_note_consume]
          simp only [hscan, hcomplete, Bool.false_eq_true, if_false]
          cases hdone : (s.take p).complete with
          | true => exact hreport
          | false =>
              simp only [Bool.false_eq_true, if_false, List.foldl_cons]
              rcases h with h | h | h | ⟨hw, hstep⟩
              · rw [hhalts] at h
                cases h
              · rw [hdone] at h
                cases h
              · subst h
                exact hreport
              · obtain ⟨rfl, rfl⟩ := hwalk hw
                exact ih hstep

end ShugoCore.Gguf
