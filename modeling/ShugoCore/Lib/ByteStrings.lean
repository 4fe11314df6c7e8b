import Mathlib.Data.Nat.Digits.Defs
import ShugoCore.Lib.Binary64
import ShugoCore.Lib.Sha256

/-!
# Byte strings

Numbers, texts and floats in bytes, and files that are read from front to back.

A number has its lowest byte first.  A text that is decoded with replacement has a replacement
character for each run of bytes that begins a character and does not go on.  So a text without
surrogates comes back from its bytes (`decodeReplacing_utf8`).

The state of a reader is what it has not read.  What it leaves is an end of what it was given
(`ReadsOn`): it reads no byte twice, and none behind the last one.
-/

namespace Py

/-! ## Numbers -/

/-- `int.from_bytes(data, "little")`. -/
def fromBytes (data : List Nat) : Nat := Nat.ofDigits 256 data

/-- `int.from_bytes(data, "little", signed=signed)`. -/
def intFromBytes (signed : Bool) (data : List Nat) : Int :=
  if signed ∧ 2 ^ (8 * data.length) ≤ 2 * fromBytes data then
    fromBytes data - 2 ^ (8 * data.length)
  else fromBytes data

/-- A number in a number of bytes. -/
def toBytes : Nat → Nat → List Nat
  | 0, _ => []
  | width + 1, n => n % 256 :: toBytes width (n / 256)

@[simp] theorem length_toBytes (width n : Nat) : (toBytes width n).length = width := by
  induction width generalizing n with
  | zero => rfl
  | succ width ih => rw [toBytes, List.length_cons, ih]

theorem fromBytes_toBytes {width n : Nat} (h : n < 2 ^ (8 * width)) :
    fromBytes (toBytes width n) = n := by
  induction width generalizing n with
  | zero =>
      have : n = 0 := by simpa using h
      rw [this]
      rfl
  | succ width ih =>
      have hrest : n / 256 < 2 ^ (8 * width) := by
        rw [Nat.div_lt_iff_lt_mul (by decide)]
        calc n < 2 ^ (8 * (width + 1)) := h
          _ = 2 ^ (8 * width) * 256 := pow_add 2 (8 * width) 8
      have hdigits : fromBytes (toBytes width (n / 256)) = n / 256 := ih hrest
      rw [fromBytes] at hdigits
      rw [toBytes, fromBytes, Nat.ofDigits_cons, hdigits]
      exact Nat.mod_add_div n 256

/-- The signed number in the bytes of a word is that of the word. -/
theorem intFromBytes_toBytes {width : Nat} (signed : Bool) (bits : BitVec (8 * width)) :
    intFromBytes signed (toBytes width bits.toNat) =
      if signed then bits.toInt else (bits.toNat : Int) := by
  rw [intFromBytes, fromBytes_toBytes bits.isLt, length_toBytes]
  cases signed with
  | false => simp
  | true =>
      rw [BitVec.toInt_eq_toNat_cond]
      simp only [true_and, if_true]
      split
      · rename_i h
        rw [if_neg (not_lt.2 h)]
        push_cast
        rfl
      · rename_i h
        rw [if_pos (not_le.1 h)]

/-! ## Texts -/

/-- A character that has begun: what its bytes say so far, the range of the next byte, and how many
follow that one. -/
structure Begun where
  value : Nat
  low : Nat
  high : Nat
  missing : Nat

/-- The replacement character. -/
def replacement : CodePoint := 0xFFFD

/-- The first byte of a character.  What cannot begin one is replaced. -/
def firstByte (b : Nat) : Str × Option Begun :=
  if b < 0x80 then ([Fin.ofNat _ b], none)
  else if b < 0xC2 then ([replacement], none)
  else if b < 0xE0 then ([], some ⟨b - 0xC0, 0x80, 0xBF, 0⟩)
  else if b < 0xF0 then
    ([], some ⟨b - 0xE0, if b = 0xE0 then 0xA0 else 0x80, if b = 0xED then 0x9F else 0xBF, 1⟩)
  else if b < 0xF5 then
    ([], some ⟨b - 0xF0, if b = 0xF0 then 0x90 else 0x80, if b = 0xF4 then 0x8F else 0xBF, 2⟩)
  else ([replacement], none)

/-- One byte: what it adds to the text, and what has begun with it. -/
def nextByte : Option Begun → Nat → Str × Option Begun
  | none, b => firstByte b
  | some begun, b =>
      if begun.low ≤ b ∧ b ≤ begun.high then
        match begun.missing with
        | 0 => ([Fin.ofNat _ (64 * begun.value + (b - 0x80))], none)
        | missing + 1 => ([], some ⟨64 * begun.value + (b - 0x80), 0x80, 0xBF, missing⟩)
      else (replacement :: (firstByte b).1, (firstByte b).2)

/-- The text of some bytes, after what has begun. -/
def decodeFrom : Option Begun → List Nat → Str
  | none, [] => []
  | some _, [] => [replacement]
  | begun, b :: bs => (nextByte begun b).1 ++ decodeFrom (nextByte begun b).2 bs

/-- `data.decode("utf-8", "replace")`. -/
def decodeReplacing (data : List Nat) : Str := decodeFrom none data

theorem decodeFrom_cons (begun : Option Begun) (b : Nat) (bs : List Nat) :
    decodeFrom begun (b :: bs) = (nextByte begun b).1 ++ decodeFrom (nextByte begun b).2 bs := by
  cases begun <;> rfl

theorem firstByte_two {k : Nat} (hlow : 2 ≤ k) (hhigh : k < 32) :
    firstByte (0xC0 + k) = ([], some ⟨k, 0x80, 0xBF, 0⟩) := by
  rw [firstByte, if_neg (by omega), if_neg (by omega), if_pos (by omega), Nat.add_sub_cancel_left]

theorem firstByte_three {k : Nat} (h : k < 16) :
    firstByte (0xE0 + k) =
      ([], some ⟨k, if k = 0 then 0xA0 else 0x80, if k = 13 then 0x9F else 0xBF, 1⟩) := by
  have hlast : 0xE0 + k = 0xED ↔ k = 13 := by omega
  rw [firstByte, if_neg (by omega), if_neg (by omega), if_neg (by omega), if_pos (by omega),
    Nat.add_sub_cancel_left]
  simp [hlast]

theorem firstByte_four {k : Nat} (h : k < 5) :
    firstByte (0xF0 + k) =
      ([], some ⟨k, if k = 0 then 0x90 else 0x80, if k = 4 then 0x8F else 0xBF, 2⟩) := by
  have hlast : 0xF0 + k = 0xF4 ↔ k = 4 := by omega
  rw [firstByte, if_neg (by omega), if_neg (by omega), if_neg (by omega), if_neg (by omega),
    if_pos (by omega), Nat.add_sub_cancel_left]
  simp [hlast]

theorem nextByte_last {value low high k : Nat} (hlow : low ≤ 0x80 + k) (hhigh : 0x80 + k ≤ high) :
    nextByte (some ⟨value, low, high, 0⟩) (0x80 + k) =
      ([Fin.ofNat _ (64 * value + k)], none) := by
  simp only [nextByte, if_pos (And.intro hlow hhigh), Nat.add_sub_cancel_left]

theorem nextByte_more {value low high missing k : Nat} (hlow : low ≤ 0x80 + k)
    (hhigh : 0x80 + k ≤ high) :
    nextByte (some ⟨value, low, high, missing + 1⟩) (0x80 + k) =
      ([], some ⟨64 * value + k, 0x80, 0xBF, missing⟩) := by
  simp only [nextByte, if_pos (And.intro hlow hhigh), Nat.add_sub_cancel_left]

/-- A character is decoded from its bytes, whatever follows. -/
theorem decodeFrom_utf8_append {c : CodePoint} (h : isSurrogate c = false) (bs : List Nat) :
    decodeFrom none (utf8 [c] ++ bs) = c :: decodeFrom none bs := by
  have hrange : ¬ (0xD800 ≤ c.val ∧ c.val ≤ 0xDFFF) := by simpa [isSurrogate] using h
  have hmax := c.isLt
  have hback : ∀ n, n = c.val → (Fin.ofNat 0x110000 n : CodePoint) = c := by
    rintro n rfl
    exact Fin.ofNat_val_eq_self c
  rw [utf8, List.flatMap_singleton]
  split_ifs with hone htwo hthree
  · rw [List.singleton_append, decodeFrom_cons, nextByte, firstByte, if_pos hone, hback _ rfl]
    rfl
  · rw [List.cons_append, List.singleton_append, decodeFrom_cons, nextByte,
      firstByte_two (by omega) (by omega)]
    dsimp only [List.nil_append]
    rw [decodeFrom_cons, nextByte_last (by omega) (by omega), hback _ (by omega)]
    rfl
  · -- The second byte tells a character from a surrogate, and from one of fewer bytes.
    have hlow : (if c.val / 4096 = 0 then 0xA0 else 0x80) ≤ 0x80 + c.val / 64 % 64 := by
      split <;> omega
    have hhigh : 0x80 + c.val / 64 % 64 ≤ (if c.val / 4096 = 13 then 0x9F else 0xBF) := by
      split <;> omega
    rw [List.cons_append, List.cons_append, List.singleton_append, decodeFrom_cons, nextByte,
      firstByte_three (by omega)]
    dsimp only [List.nil_append]
    rw [decodeFrom_cons, nextByte_more hlow hhigh]
    dsimp only [List.nil_append]
    rw [decodeFrom_cons, nextByte_last (by omega) (by omega), hback _ (by omega)]
    rfl
  · have hlow : (if c.val / 262144 = 0 then 0x90 else 0x80) ≤ 0x80 + c.val / 4096 % 64 := by
      split <;> omega
    have hhigh : 0x80 + c.val / 4096 % 64 ≤ (if c.val / 262144 = 4 then 0x8F else 0xBF) := by
      split <;> omega
    rw [List.cons_append, List.cons_append, List.cons_append, List.singleton_append,
      decodeFrom_cons, nextByte, firstByte_four (by omega)]
    dsimp only [List.nil_append]
    rw [decodeFrom_cons, nextByte_more hlow hhigh]
    dsimp only [List.nil_append]
    rw [decodeFrom_cons, nextByte_more (by omega) (by omega)]
    dsimp only [List.nil_append]
    rw [decodeFrom_cons, nextByte_last (by omega) (by omega), hback _ (by omega)]
    rfl

/-- A text without surrogates is decoded from its bytes. -/
theorem decodeReplacing_utf8 {s : Str} (h : Plain s) : decodeReplacing (utf8 s) = s := by
  induction s with
  | nil => rfl
  | cons c s ih =>
      have hsplit : utf8 (c :: s) = utf8 [c] ++ utf8 s := by
        simp [utf8]
      rw [decodeReplacing, hsplit, decodeFrom_utf8_append (h c List.mem_cons_self)]
      exact congrArg _ (ih fun d hd => h d (List.mem_cons_of_mem c hd))

/-! ## Floats -/

/-- A float of a sign, an exponent and a mantissa of some bits. -/
def floatFromBits (exponentBits mantissaBits bits : Nat) : PyFloat ℚ :=
  let mantissa := bits % 2 ^ mantissaBits
  let exponent := bits / 2 ^ mantissaBits % 2 ^ exponentBits
  let sign : ℚ := if bits / 2 ^ (exponentBits + mantissaBits) % 2 = 1 then -1 else 1
  let bias : Int := 2 ^ (exponentBits - 1) - 1
  if exponent = 2 ^ exponentBits - 1 then
    if mantissa ≠ 0 then .nan else if sign = 1 then .posInf else .negInf
  else if exponent = 0 then .finite (sign * mantissa * 2 ^ (1 - bias - mantissaBits))
  else
    .finite (sign * (2 ^ mantissaBits + mantissa : Nat) * 2 ^ ((exponent : Int) - bias - mantissaBits))

/-- `struct.unpack("<f", data)[0]`. -/
def unpackFloat (data : List Nat) : PyFloat ℚ := floatFromBits 8 23 (fromBytes data)

/-- `struct.unpack("<d", data)[0]`. -/
def unpackDouble (data : List Nat) : PyFloat ℚ := floatFromBits 11 52 (fromBytes data)

/-! ## Files -/

/-- A computation that reads a file. -/
abbrev Reader := StateM (List Nat)

/-- `handle.read(n)`: fewer bytes at the end of the file. -/
def readBytes (n : Nat) : Reader (List Nat) := fun rest => (rest.take n, rest.drop n)

/-- What is left is an end of what there was. -/
def ReadsOn {α : Type} (p : Reader α) : Prop := ∀ rest, (p rest).2 <:+ rest

variable {α β : Type}

theorem ReadsOn.readBytes (n : Nat) : ReadsOn (readBytes n) := fun rest => List.drop_suffix n rest

theorem ReadsOn.pure (x : α) : ReadsOn (pure x : Reader α) := fun _ => List.suffix_rfl

/-- One computation after another reads on if both do. -/
theorem ReadsOn.bind {p : Reader α} {f : α → Reader β} (hp : ReadsOn p) (hf : ∀ x, ReadsOn (f x)) :
    ReadsOn (p >>= f) := fun rest => (hf (p rest).1 (p rest).2).trans (hp rest)

theorem reader_bind (p : Reader α) (f : α → Reader β) (rest : List Nat) :
    (p >>= f) rest = f (p rest).1 (p rest).2 := rfl

/-- A computation whose result is known is gone on from there. -/
theorem reader_bind_eq {p : Reader α} {rest rest' : List Nat} {x : α} (h : p rest = (x, rest'))
    (f : α → Reader β) : (p >>= f) rest = f x rest' := by
  rw [reader_bind, h]

/-- What stands in front is read, if it has the length that is asked for. -/
theorem readBytes_append {n : Nat} {data : List Nat} (h : data.length = n) (rest : List Nat) :
    readBytes n (data ++ rest) = (data, rest) := by
  rw [readBytes, List.take_left' h, List.drop_left' h]

end Py
