import ShugoCore.Lib.PyText

/-!
# Digests

`hashlib.sha256` and `hmac.new(..., hashlib.sha256)` on texts, as their
`hexdigest()` gives them.  Results that only need a digest to be a function of
the text are stated for any `Hashlib`.  `hashlib` is the real one, computed on
words of 32 bits, so that closed terms can be evaluated.
-/

namespace Py

/-- `str.encode("utf-8")` of a text without surrogates. -/
def utf8 (s : Str) : List Nat :=
  s.flatMap fun c =>
    if c.val < 0x80 then [c.val]
    else if c.val < 0x800 then [0xC0 + c.val / 64, 0x80 + c.val % 64]
    else if c.val < 0x10000 then [0xE0 + c.val / 4096, 0x80 + c.val / 64 % 64, 0x80 + c.val % 64]
    else [0xF0 + c.val / 262144, 0x80 + c.val / 4096 % 64, 0x80 + c.val / 64 % 64,
      0x80 + c.val % 64]

namespace Sha256

/-- Addition of words. -/
def add (a b : Nat) : Nat := (a + b) % 0x100000000

/-- Rotation to the right. -/
def rotr (n a : Nat) : Nat := a >>> n ||| (a <<< (32 - n)) % 0x100000000

/-- The round constants. -/
def constants : List Nat :=
  [0x428a2f98, 0x71374491, 0xb5c0fbcf, 0xe9b5dba5, 0x3956c25b, 0x59f111f1, 0x923f82a4, 0xab1c5ed5,
    0xd807aa98, 0x12835b01, 0x243185be, 0x550c7dc3, 0x72be5d74, 0x80deb1fe, 0x9bdc06a7, 0xc19bf174,
    0xe49b69c1, 0xefbe4786, 0x0fc19dc6, 0x240ca1cc, 0x2de92c6f, 0x4a7484aa, 0x5cb0a9dc, 0x76f988da,
    0x983e5152, 0xa831c66d, 0xb00327c8, 0xbf597fc7, 0xc6e00bf3, 0xd5a79147, 0x06ca6351, 0x14292967,
    0x27b70a85, 0x2e1b2138, 0x4d2c6dfc, 0x53380d13, 0x650a7354, 0x766a0abb, 0x81c2c92e, 0x92722c85,
    0xa2bfe8a1, 0xa81a664b, 0xc24b8b70, 0xc76c51a3, 0xd192e819, 0xd6990624, 0xf40e3585, 0x106aa070,
    0x19a4c116, 0x1e376c08, 0x2748774c, 0x34b0bcb5, 0x391c0cb3, 0x4ed8aa4a, 0x5b9cca4f, 0x682e6ff3,
    0x748f82ee, 0x78a5636f, 0x84c87814, 0x8cc70208, 0x90befffa, 0xa4506ceb, 0xbef9a3f7, 0xc67178f2]

/-- The eight words between blocks. -/
structure State where
  a : Nat
  b : Nat
  c : Nat
  d : Nat
  e : Nat
  f : Nat
  g : Nat
  h : Nat

/-- The words before the first block. -/
def initial : State :=
  ⟨0x6a09e667, 0xbb67ae85, 0x3c6ef372, 0xa54ff53a, 0x510e527f, 0x9b05688c, 0x1f83d9ab, 0x5be0cd19⟩

/-- One round, with the constant and the word of the schedule. -/
def round (s : State) (k w : Nat) : State :=
  let big1 := rotr 6 s.e ^^^ rotr 11 s.e ^^^ rotr 25 s.e
  let choice := (s.e &&& s.f) ^^^ ((s.e ^^^ 0xFFFFFFFF) &&& s.g)
  let t1 := add (add (add (add s.h big1) choice) k) w
  let big0 := rotr 2 s.a ^^^ rotr 13 s.a ^^^ rotr 22 s.a
  let majority := (s.a &&& s.b) ^^^ (s.a &&& s.c) ^^^ (s.b &&& s.c)
  ⟨add t1 (add big0 majority), s.a, s.b, s.c, add s.d t1, s.e, s.f, s.g⟩

/-- The next word of the schedule from the last sixteen. -/
def nextWord (window : List Nat) : Nat :=
  let w15 := window.getD 1 0
  let w2 := window.getD 14 0
  let small0 := rotr 7 w15 ^^^ rotr 18 w15 ^^^ w15 >>> 3
  let small1 := rotr 17 w2 ^^^ rotr 19 w2 ^^^ w2 >>> 10
  add (add (add (window.getD 0 0) small0) (window.getD 9 0)) small1

/-- The rounds of a block.  The window holds the next sixteen words. -/
def rounds : List Nat → List Nat → State → State
  | [], _, s => s
  | _, [], s => s
  | k :: ks, w :: window, s => rounds ks (window ++ [nextWord (w :: window)]) (round s k w)

/-- One block of sixteen words. -/
def compress (s : State) (block : List Nat) : State :=
  let t := rounds constants block s
  ⟨add s.a t.a, add s.b t.b, add s.c t.c, add s.d t.d, add s.e t.e, add s.f t.f, add s.g t.g,
    add s.h t.h⟩

/-- Bytes by fours, most significant first. -/
def words : List Nat → List Nat
  | a :: b :: c :: d :: bytes => (a * 0x1000000 + b * 0x10000 + c * 0x100 + d) :: words bytes
  | _ => []

/-- A number as bytes, most significant first. -/
def bytesOf : Nat → Nat → List Nat
  | 0, _ => []
  | n + 1, v => bytesOf n (v / 256) ++ [v % 256]

/-- The message with its padding. -/
def pad (bytes : List Nat) : List Nat :=
  bytes ++ 0x80 :: List.replicate ((119 - bytes.length % 64) % 64) 0 ++ bytesOf 8 (bytes.length * 8)

/-- Block after block. -/
def blocks : Nat → List Nat → State → State
  | 0, _, s => s
  | n + 1, ws, s => blocks n (ws.drop 16) (compress s (ws.take 16))

/-- The digest of some bytes. -/
def digest (bytes : List Nat) : List Nat :=
  let padded := pad bytes
  let s := blocks (padded.length / 64) (words padded) initial
  [s.a, s.b, s.c, s.d, s.e, s.f, s.g, s.h].flatMap (bytesOf 4)

end Sha256

/-- `hmac.new(key, message, hashlib.sha256)`. -/
def hmacDigest (key message : List Nat) : List Nat :=
  let key := if 64 < key.length then Sha256.digest key else key
  let key := key ++ List.replicate (64 - key.length) 0
  let inner := Sha256.digest (key.map (· ^^^ 0x36) ++ message)
  Sha256.digest (key.map (· ^^^ 0x5C) ++ inner)

/-- `hexdigest()`. -/
def hexdigest (bytes : List Nat) : Str :=
  bytes.flatMap fun b => [b / 16 % 16, b % 16].map fun d =>
    Fin.ofNat 0x110000 (if d < 10 then 48 + d else 87 + d)

/-- Lower-case hexadecimal. -/
def Hex (s : Str) : Prop := ∀ c ∈ s, 48 ≤ c.val ∧ c.val ≤ 57 ∨ 97 ≤ c.val ∧ c.val ≤ 102

instance (s : Str) : Decidable (Hex s) := List.decidableBAll _ s

theorem Hex.plain {s : Str} (h : Hex s) : Plain s := by
  intro c hc
  have hb := h c hc
  simp only [isSurrogate, Bool.and_eq_false_iff, decide_eq_false_iff_not]
  omega

theorem hex_hexdigest (bytes : List Nat) : Hex (hexdigest bytes) := by
  have hall : ∀ d : Fin 16, Hex [Fin.ofNat 0x110000 (if d.val < 10 then 48 + d.val else 87 + d.val)] := by
    decide
  have hdigit : ∀ n : Nat, Hex [Fin.ofNat 0x110000 (if n % 16 < 10 then 48 + n % 16 else 87 + n % 16)] :=
    fun n => hall ⟨n % 16, Nat.mod_lt _ (by decide)⟩
  intro c hc
  simp only [hexdigest, List.mem_flatMap, List.map_cons, List.map_nil, List.mem_cons,
    List.not_mem_nil, or_false] at hc
  obtain ⟨b, -, rfl | rfl⟩ := hc
  · exact hdigit (b / 16) _ List.mem_cons_self
  · exact hdigit b _ List.mem_cons_self

/-- The digests of texts, whatever they are. -/
structure Hashlib where
  /-- `hashlib.sha256(text.encode("utf-8")).hexdigest()`. -/
  sha256 : Str → Str
  /-- `hmac.new(key.encode("utf-8"), text.encode("utf-8"), hashlib.sha256).hexdigest()`. -/
  hmacSha256 : Str → Str → Str
  sha256_hex : ∀ s, Hex (sha256 s)
  hmacSha256_hex : ∀ key s, Hex (hmacSha256 key s)

/-- The real digests. -/
def hashlib : Hashlib where
  sha256 s := hexdigest (Sha256.digest (utf8 s))
  hmacSha256 key s := hexdigest (hmacDigest (utf8 key) (utf8 s))
  sha256_hex _ := hex_hexdigest _
  hmacSha256_hex _ _ := hex_hexdigest _

end Py
