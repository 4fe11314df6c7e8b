import ShugoCore.Lib.JsonKeys
import ShugoCore.Lib.Sha256

/-!
# Security primitives

The parts of `security.py` that the other modules build on: the sanitiser of
stored text, and the canonical form of a dictionary with its digest.
-/

namespace ShugoCore

open Py

/-! ## Sanitised text -/

/-- `[\x00-\x1f\x7f]`. -/
def isControl (c : CodePoint) : Bool := c.val ≤ 0x1F || c.val = 0x7F

/-- `_UNICODE_INVISIBLE_PATTERN`. -/
def isInvisible (c : CodePoint) : Bool :=
  c.val = 0xAD || (0x200B ≤ c.val && c.val ≤ 0x200F) || (0x202A ≤ c.val && c.val ≤ 0x202E) ||
    (0x2060 ≤ c.val && c.val ≤ 0x2064) || (0x2066 ≤ c.val && c.val ≤ 0x2069) || c.val = 0xFEFF

/-- `re.sub(r" {2,}", " ", s)`. -/
def collapseSpaces : Str → Str
  | [] => []
  | [c] => [c]
  | c :: d :: s => if c = 32 ∧ d = 32 then collapseSpaces (d :: s) else c :: collapseSpaces (d :: s)

/-- `sanitize_text`. -/
def sanitizeText (text : Str) (maxLength : Int) : Str :=
  let cleaned := text.map fun c => if isControl c then 32 else c
  let cleaned := cleaned.filter fun c => !isInvisible c
  (strip (collapseSpaces cleaned)).take (max 0 maxLength).toNat

/-! ## Canonical form -/

variable {φ : Type} [FloatFormat φ]

/-- `canonical_json`.  Its `default=str` is for objects that are no `PyVal`. -/
def canonicalJson (obj : PyVal φ) : Option Str := dumps compact obj

/-- `canonical_hash`. -/
def canonicalHash (hashes : Hashlib) (obj : PyVal φ) : Option Str :=
  (canonicalJson obj).map hashes.sha256

end ShugoCore
