import ShugoCore.Lib.JsonValues

/-!
# The size of a JSON text

How many characters `json.dumps` writes for a value, by a recursion on the value that
builds no text.  The text is ASCII, so this is the number of its bytes too.

An element or a member takes two characters beside itself: the separator that follows it,
or, for the last one and the opening bracket, the two brackets.  So the size of a list or
a dictionary is a sum over its parts, and does not depend on the order of the keys.
-/

namespace Py

variable {φ : Type}

/-- The size of one character of a string. -/
def charSize (c : CodePoint) : Nat :=
  if (shortEscape c).isSome then 2
  else if 0x20 ≤ c.val ∧ c.val ≤ 0x7E then 1
  else if c.val < 0x10000 then 6
  else 12

/-- The size of a string, with its quotes. -/
def textSize (s : Str) : Nat := 2 + (s.map charSize).sum

section

variable [FloatFormat φ]

mutual

/-- The size of a value. -/
def valueSize : PyVal φ → Nat
  | .none => 4
  | .bool b => if b then 4 else 5
  | .int i => (Literal.ofInt i).text.length
  | .float x => (floatText x).length
  | .str s => textSize s
  | .list xs => max 2 (elemsSize xs)
  | .dict items => max 2 (itemsSize items)

/-- The size of the elements, with two characters for each. -/
def elemsSize : List (PyVal φ) → Nat
  | [] => 0
  | x :: xs => valueSize x + 2 + elemsSize xs

/-- The size of the items, with two characters for each and two for each colon. -/
def itemsSize : List (Key φ × PyVal φ) → Nat
  | [] => 0
  | (k, x) :: items => textSize (k.asStr.getD []) + 2 + valueSize x + 2 + itemsSize items

end

/-! ## The size is the length of the text -/

theorem length_escapeChar (c : CodePoint) : (escapeChar c).length = charSize c := by
  simp only [escapeChar, charSize]
  cases shortEscape c with
  | some e => rfl
  | none =>
      simp only [Option.isSome_none, Bool.false_eq_true, if_false]
      split
      · rfl
      · split
        · rfl
        · rfl

theorem length_quoted (s : Str) : (quoted s).length = textSize s := by
  have hbody : (s.flatMap escapeChar).length = (s.map charSize).sum := by
    rw [List.length_flatMap]
    exact congrArg List.sum (List.map_congr_left fun c _ => length_escapeChar c)
  rw [quoted, List.length_cons, List.length_append, hbody, textSize]
  simp only [List.length_cons, List.length_nil]
  omega

/-- The size of a member, with its separators. -/
def memberSize (m : Str × Json φ) : Nat := textSize m.1 + 2 + (render spaced m.2).length + 2

theorem length_renderElems (js : List (Json φ)) :
    (renderElems spaced js).length = 1 + (js.map fun j => (render spaced j).length + 2).sum := by
  induction js with
  | nil => rfl
  | cons j js ih =>
      rw [renderElems, List.length_append, List.length_append, ih, List.map_cons, List.sum_cons]
      show 2 + _ = _
      omega

theorem length_render_arr (js : List (Json φ)) :
    (render spaced (.arr js)).length = max 2 (js.map fun j => (render spaced j).length + 2).sum := by
  cases js with
  | nil => rfl
  | cons j js =>
      rw [render, List.length_cons, List.length_append, length_renderElems, List.map_cons,
        List.sum_cons]
      omega

theorem length_renderMembers (ms : List (Str × Json φ)) :
    (renderMembers spaced ms).length = 1 + (ms.map memberSize).sum := by
  induction ms with
  | nil => rfl
  | cons m ms ih =>
      obtain ⟨k, j⟩ := m
      rw [renderMembers, List.length_append, List.length_append, List.length_append,
        List.length_append, ih, length_quoted, List.map_cons, List.sum_cons, memberSize]
      show 2 + (textSize k + (2 + ((render spaced j).length + _))) = _
      dsimp only
      omega

theorem length_render_obj (ms : List (Str × Json φ)) :
    (render spaced (.obj ms)).length = max 2 (ms.map memberSize).sum := by
  cases ms with
  | nil => rfl
  | cons m ms =>
      obtain ⟨k, j⟩ := m
      rw [render, List.length_cons, List.length_append, List.length_append, List.length_append,
        length_quoted, length_renderMembers, List.map_cons, List.sum_cons, memberSize]
      show textSize k + (2 + ((render spaced j).length + _)) + 1 = _
      dsimp only
      omega

mutual

/-- The text of a value is as long as its size says. -/
theorem length_render_doc : ∀ v : PyVal φ, (render spaced (doc v)).length = valueSize v
  | .none => rfl
  | .bool true => rfl
  | .bool false => rfl
  | .int _ => rfl
  | .float _ => rfl
  | .str s => length_quoted s
  | .list xs => by rw [doc, length_render_arr, sum_docElems xs, valueSize]
  | .dict items => by
      have hperm : (sortMembers (docMembers items)).Perm (docMembers items) :=
        List.perm_insertionSort _ _
      rw [doc, length_render_obj, (hperm.map memberSize).sum_eq, sum_docMembers items, valueSize]

theorem sum_docElems :
    ∀ xs : List (PyVal φ),
      ((docElems xs).map fun j => (render spaced j).length + 2).sum = elemsSize xs
  | [] => rfl
  | x :: xs => by
      rw [docElems, List.map_cons, List.sum_cons, length_render_doc x, sum_docElems xs, elemsSize]

theorem sum_docMembers :
    ∀ items : List (Key φ × PyVal φ), ((docMembers items).map memberSize).sum = itemsSize items
  | [] => rfl
  | (k, x) :: items => by
      rw [docMembers, List.map_cons, List.sum_cons, memberSize, length_render_doc x,
        sum_docMembers items, itemsSize]

end

end

/-! ## Sizes of texts -/

theorem textSize_replicate (n : Nat) (c : CodePoint) :
    textSize (List.replicate n c) = 2 + n * charSize c := by
  rw [textSize, List.map_replicate, List.sum_replicate]
  rfl

end Py
