import ShugoCore.Lib.JsonReading
import ShugoCore.Lib.JsonValues

/-!
# Documents that are written with an indent

`render` writes a document on one line.  With an `indent`, `dumps` breaks the line before every
element and every member and before the closing bracket, and begins it with as many spaces as the
depth asks for.  `parse` skips them all, so that such a text is read back as the one without.
-/

namespace Py

variable {φ : Type}

/-- The line break before something of this depth. -/
def lineBreak (indent depth : Nat) : Str := newline :: List.replicate (indent * depth) 32

section

variable [FloatFormat φ]

mutual

/-- The text of a document, with an `indent`. -/
def renderIndented (indent : Nat) : Nat → Json φ → Str
  | _, .null => nullText
  | _, .bool b => if b then trueText else falseText
  | _, .int i => (Literal.ofInt i).text
  | _, .float x => floatText x
  | _, .str s => quoted s
  | _, .arr [] => [91, 93]
  | depth, .arr (x :: xs) =>
      91 :: (lineBreak indent (depth + 1) ++
        (renderIndented indent (depth + 1) x ++ renderElemsIndented indent depth xs))
  | _, .obj [] => [123, 125]
  | depth, .obj ((k, x) :: ms) =>
      123 :: (lineBreak indent (depth + 1) ++ (quoted k ++ (spaced.key ++
        (renderIndented indent (depth + 1) x ++ renderMembersIndented indent depth ms))))

/-- The elements after the first, up to the closing bracket. -/
def renderElemsIndented (indent : Nat) : Nat → List (Json φ) → Str
  | depth, [] => lineBreak indent depth ++ [93]
  | depth, x :: xs =>
      44 :: (lineBreak indent (depth + 1) ++
        (renderIndented indent (depth + 1) x ++ renderElemsIndented indent depth xs))

/-- The members after the first, up to the closing brace. -/
def renderMembersIndented (indent : Nat) : Nat → List (Str × Json φ) → Str
  | depth, [] => lineBreak indent depth ++ [125]
  | depth, (k, x) :: ms =>
      44 :: (lineBreak indent (depth + 1) ++ (quoted k ++ (spaced.key ++
        (renderIndented indent (depth + 1) x ++ renderMembersIndented indent depth ms))))

end

end

theorem isJsonSpace_lineBreak {indent depth : Nat} :
    ∀ c ∈ lineBreak indent depth, isJsonSpace c = true := by
  intro c hc
  rcases List.mem_cons.1 hc with rfl | hc
  · decide
  · rw [List.eq_of_mem_replicate hc]
    decide

theorem skipWs_lineBreak (indent depth : Nat) {s : Str} (h : Solid s) :
    skipWs (lineBreak indent depth ++ s) = s := skipWs_spaces isJsonSpace_lineBreak h

theorem stops_lineBreak (indent depth : Nat) (s : Str) : Stops (lineBreak indent depth ++ s) := by
  intro c hc
  cases hc
  decide

section

variable [FloatFormat φ] (indent : Nat)

theorem renderIndented_head (depth : Nat) (j : Json φ) :
    ∃ c t, renderIndented indent depth j = c :: t ∧ OpensValue c := by
  cases j with
  | null => exact ⟨_, _, rfl, by decide⟩
  | bool b => cases b <;> exact ⟨_, _, rfl, by decide⟩
  | int i => exact Literal.text_head (Literal.wf_ofInt i)
  | float x =>
      cases x with
      | nan => exact ⟨_, _, rfl, by decide⟩
      | posInf => exact ⟨_, _, rfl, by decide⟩
      | negInf => exact ⟨_, _, rfl, by decide⟩
      | finite x => exact Literal.text_head (FloatFormat.repr_wf x)
  | str s => exact ⟨34, _, rfl, by decide⟩
  | arr xs => cases xs <;> exact ⟨_, _, rfl, by decide⟩
  | obj ms => rcases ms with _ | ⟨⟨k, x⟩, ms⟩ <;> exact ⟨_, _, rfl, by decide⟩

theorem solid_renderIndented (depth : Nat) (j : Json φ) : Solid (renderIndented indent depth j) := by
  obtain ⟨c, t, he, hc⟩ := renderIndented_head indent depth j
  exact ⟨c, t, he, hc.1⟩

/-- What follows a value ends a number. -/
theorem stops_renderElemsIndented (depth : Nat) (xs : List (Json φ)) (s : Str) :
    Stops (renderElemsIndented indent depth xs ++ s) := by
  cases xs with
  | nil => rw [renderElemsIndented, List.append_assoc]; exact stops_lineBreak indent depth _
  | cons x xs =>
      intro c hc
      cases hc
      decide

theorem stops_renderMembersIndented (depth : Nat) (ms : List (Str × Json φ)) (s : Str) :
    Stops (renderMembersIndented indent depth ms ++ s) := by
  rcases ms with _ | ⟨⟨k, x⟩, ms⟩
  · rw [renderMembersIndented, List.append_assoc]
    exact stops_lineBreak indent depth _
  · intro c hc
    cases hc
    decide

theorem parseKey_indented (k : Str) {s : Str} (hs : Solid s) :
    parseKey (quoted k ++ (spaced.key ++ s)) = some (join k, s) := parseKey_quoted standard_spaced k hs

mutual

/-- A value before something else is read back joined. -/
theorem parseValue_renderIndented (indent : Nat) :
    ∀ (j : Json φ) (depth n : Nat), (renderIndented indent depth j).length ≤ n → ∀ s, Stops s →
      parseValue (n + 1) (renderIndented indent depth j ++ s) = some (joinDoc j, s)
  | .null, _, _, _, _, _ => rfl
  | .bool true, _, _, _, _, _ => rfl
  | .bool false, _, _, _, _, _ => rfl
  | .int i, _, n, _, s, hs => by
      rw [renderIndented, Literal.parseValue_text (Literal.wf_ofInt i) hs, ofLiteral_ofInt]
      rfl
  | .float .nan, _, _, _, _, _ => rfl
  | .float .posInf, _, _, _, _, _ => rfl
  | .float .negInf, _, _, _, _, _ => rfl
  | .float (.finite x), _, n, _, s, hs => by
      rw [renderIndented, floatText, Literal.parseValue_text (FloatFormat.repr_wf x) hs,
        ofLiteral_repr]
      rfl
  | .str t, _, n, _, s, _ => by
      have hstr := parseString_quoted t s
      simp only [renderIndented, quoted, List.cons_append, List.append_assoc, List.nil_append,
        parseValue, if_true, hstr, Option.map_some, joinDoc]
  | .arr [], _, _, _, _, _ => by
      simp [renderIndented, parseValue, skipWs, isJsonSpace, joinDoc, joinElems]
  | .arr (x :: xs), depth, n, hn, s, _ => by
      simp only [renderIndented, List.length_cons, List.length_append] at hn
      obtain ⟨n, rfl⟩ : ∃ m, n = m + 1 := ⟨n - 1, by omega⟩
      have hx := parseValue_renderIndented indent x (depth + 1) n (by omega) _
        (stops_renderElemsIndented indent depth xs s)
      have hxs := parseElems_renderIndented indent xs depth n (by omega) s
      have hskip := skipWs_lineBreak indent (depth + 1)
        ((solid_renderIndented indent (depth + 1) x).append (renderElemsIndented indent depth xs ++ s))
      obtain ⟨c, t, ht, hc⟩ := renderIndented_head indent (depth + 1) x
      rw [ht, List.cons_append] at hx hskip
      rw [renderIndented, List.cons_append, List.append_assoc, List.append_assoc, ht,
        List.cons_append]
      exact parseValue_arr hskip hc.2.1 hx hxs
  | .obj [], _, _, _, _, _ => by
      simp [renderIndented, parseValue, skipWs, isJsonSpace, joinDoc, joinMembers]
  | .obj ((k, x) :: ms), depth, n, hn, s, _ => by
      simp only [renderIndented, List.length_cons, List.length_append] at hn
      obtain ⟨n, rfl⟩ : ∃ m, n = m + 1 := ⟨n - 1, by omega⟩
      have hx := parseValue_renderIndented indent x (depth + 1) n (by omega) _
        (stops_renderMembersIndented indent depth ms s)
      have hms := parseMembers_renderIndented indent ms depth n (by omega) s
      have hkey := parseKey_indented k
        ((solid_renderIndented indent (depth + 1) x).append (renderMembersIndented indent depth ms ++ s))
      have hskip := skipWs_lineBreak indent (depth + 1)
        ((solid_quoted k).append (spaced.key ++
          (renderIndented indent (depth + 1) x ++ (renderMembersIndented indent depth ms ++ s))))
      rw [quoted, List.cons_append] at hkey hskip
      rw [renderIndented, List.cons_append, List.append_assoc, List.append_assoc, List.append_assoc,
        List.append_assoc, quoted, List.cons_append]
      exact parseValue_obj hskip (by decide) hkey hx hms

/-- Elements up to the closing bracket are read back joined. -/
theorem parseElems_renderIndented (indent : Nat) :
    ∀ (xs : List (Json φ)) (depth n : Nat), (renderElemsIndented indent depth xs).length ≤ n →
      ∀ s, parseElems (n + 1) (skipWs (renderElemsIndented indent depth xs ++ s)) =
        some (joinElems xs, s)
  | [], depth, n, _, s => by
      rw [renderElemsIndented, List.append_assoc, skipWs_lineBreak indent depth (s := [93] ++ s) ⟨93, s, rfl, by decide⟩]
      simp [parseElems, joinElems]
  | x :: xs, depth, n, hn, s => by
      simp only [renderElemsIndented, List.length_cons, List.length_append] at hn
      obtain ⟨n, rfl⟩ : ∃ m, n = m + 1 := ⟨n - 1, by omega⟩
      have hx := parseValue_renderIndented indent x (depth + 1) n (by omega) _
        (stops_renderElemsIndented indent depth xs s)
      have hxs := parseElems_renderIndented indent xs depth n (by omega) s
      have hskip := skipWs_lineBreak indent (depth + 1)
        ((solid_renderIndented indent (depth + 1) x).append (renderElemsIndented indent depth xs ++ s))
      rw [renderElemsIndented, List.cons_append, skipWs_solid ⟨44, _, rfl, by decide⟩]
      simp only [List.append_assoc, parseElems, if_true, hskip, hx, hxs, Option.bind_eq_bind,
        Option.bind_some, Option.pure_def, joinElems]
      rfl

/-- Members up to the closing brace are read back joined. -/
theorem parseMembers_renderIndented (indent : Nat) :
    ∀ (ms : List (Str × Json φ)) (depth n : Nat),
      (renderMembersIndented indent depth ms).length ≤ n →
      ∀ s, parseMembers (n + 1) (skipWs (renderMembersIndented indent depth ms ++ s)) =
        some (joinMembers ms, s)
  | [], depth, n, _, s => by
      rw [renderMembersIndented, List.append_assoc, skipWs_lineBreak indent depth (s := [125] ++ s) ⟨125, s, rfl, by decide⟩]
      simp [parseMembers, joinMembers]
  | (k, x) :: ms, depth, n, hn, s => by
      simp only [renderMembersIndented, List.length_cons, List.length_append] at hn
      obtain ⟨n, rfl⟩ : ∃ m, n = m + 1 := ⟨n - 1, by omega⟩
      have hx := parseValue_renderIndented indent x (depth + 1) n (by omega) _
        (stops_renderMembersIndented indent depth ms s)
      have hms := parseMembers_renderIndented indent ms depth n (by omega) s
      have hkey := parseKey_indented k
        ((solid_renderIndented indent (depth + 1) x).append (renderMembersIndented indent depth ms ++ s))
      have hskip := skipWs_lineBreak indent (depth + 1)
        ((solid_quoted k).append (spaced.key ++
          (renderIndented indent (depth + 1) x ++ (renderMembersIndented indent depth ms ++ s))))
      rw [renderMembersIndented, List.cons_append, skipWs_solid ⟨44, _, rfl, by decide⟩]
      simp only [List.append_assoc, parseMembers, if_true, hskip, hkey, hx, hms,
        Option.bind_eq_bind, Option.bind_some, Option.pure_def, joinMembers]
      rfl

end

/-- Reading what was written with an indent gives the document with its strings joined, whatever
spaces come after it. -/
theorem parse_renderIndented (depth : Nat) (j : Json φ) {w : Str}
    (hw : ∀ c ∈ w, isJsonSpace c = true) :
    parse (renderIndented indent depth j ++ w) = some (joinDoc j) := by
  have hstops : Stops w := by
    intro c hc
    have hspace := hw c (List.mem_of_mem_head? hc)
    refine ⟨?_, ?_, ?_, ?_⟩
    · by_contra hdigit
      simp only [isDigit, isJsonSpace, Bool.not_eq_false, Bool.and_eq_true, Bool.or_eq_true,
        decide_eq_true_eq] at hdigit hspace
      rcases hspace with ((h | h) | h) | h <;> rw [h] at hdigit <;> revert hdigit <;> decide
    all_goals rintro rfl; revert hspace; decide
  obtain ⟨c, t, ht, hc⟩ := renderIndented_head indent depth j
  have hbom : (renderIndented indent depth j ++ w).head? ≠ some 0xFEFF := by
    rw [ht, List.cons_append, List.head?_cons, ne_eq, Option.some.injEq]
    rintro rfl
    exact absurd hc.2.2 (by decide)
  have hfuel : (renderIndented indent depth j).length ≤
      (renderIndented indent depth j ++ w).length := by
    rw [List.length_append]
    exact Nat.le_add_right _ _
  rw [parse, if_neg hbom, skipWs_solid ((solid_renderIndented indent depth j).append w),
    parseValue_renderIndented indent j depth _ hfuel w hstops]
  have hrest : skipWs w = [] := by
    rw [skipWs, List.dropWhile_eq_nil_iff]
    exact hw
  simp only [Option.bind_eq_bind, Option.bind_some, hrest, if_true]

end

/-! ## The characters of an indented document -/

/-- Printable ASCII and line feeds. -/
def Laid (s : Str) : Prop := ∀ c ∈ s, c = newline ∨ 0x20 ≤ c.val ∧ c.val ≤ 0x7E

theorem Printable.laid {s : Str} (h : Printable s) : Laid s := fun c hc => .inr (h c hc)

theorem Laid.append {s t : Str} (hs : Laid s) (ht : Laid t) : Laid (s ++ t) := by
  intro c hc
  rcases List.mem_append.1 hc with hc | hc
  · exact hs c hc
  · exact ht c hc

theorem Laid.cons {c : CodePoint} {s : Str} (hc : 0x20 ≤ c.val ∧ c.val ≤ 0x7E) (hs : Laid s) :
    Laid (c :: s) := by
  intro d hd
  rcases List.mem_cons.1 hd with rfl | hd
  · exact .inr hc
  · exact hs d hd

theorem Laid.plain {s : Str} (h : Laid s) : Plain s := by
  intro c hc
  rcases h c hc with rfl | hc
  · decide
  · simp only [isSurrogate, Bool.and_eq_false_iff, decide_eq_false_iff_not]
    omega

theorem laid_lineBreak (indent depth : Nat) : Laid (lineBreak indent depth) := by
  intro c hc
  rcases List.mem_cons.1 hc with rfl | hc
  · exact .inl rfl
  · rw [List.eq_of_mem_replicate hc]
    exact .inr (by decide)

section

variable [FloatFormat φ]

mutual

theorem laid_renderIndented (indent : Nat) :
    ∀ (j : Json φ) (depth : Nat), Laid (renderIndented indent depth j)
  | .null, _ => (by decide : Printable nullText).laid
  | .bool true, _ => (by decide : Printable trueText).laid
  | .bool false, _ => (by decide : Printable falseText).laid
  | .int i, _ => (Literal.printable_text (Literal.wf_ofInt i)).laid
  | .float x, _ => (printable_floatText x).laid
  | .str s, _ => (printable_quoted s).laid
  | .arr [], _ => (by decide : Printable [91, 93]).laid
  | .arr (x :: xs), depth =>
      .cons (by decide) (.append (laid_lineBreak _ _) (.append (laid_renderIndented indent x _)
        (laid_renderElemsIndented indent xs depth)))
  | .obj [], _ => (by decide : Printable [123, 125]).laid
  | .obj ((k, x) :: ms), depth =>
      .cons (by decide) (.append (laid_lineBreak _ _) (.append (printable_quoted k).laid
        (.append (by decide : Printable spaced.key).laid (.append (laid_renderIndented indent x _)
          (laid_renderMembersIndented indent ms depth)))))

theorem laid_renderElemsIndented (indent : Nat) :
    ∀ (xs : List (Json φ)) (depth : Nat), Laid (renderElemsIndented indent depth xs)
  | [], _ => .append (laid_lineBreak _ _) (by decide : Printable [93]).laid
  | x :: xs, depth =>
      .cons (by decide) (.append (laid_lineBreak _ _) (.append (laid_renderIndented indent x _)
        (laid_renderElemsIndented indent xs depth)))

theorem laid_renderMembersIndented (indent : Nat) :
    ∀ (ms : List (Str × Json φ)) (depth : Nat), Laid (renderMembersIndented indent depth ms)
  | [], _ => .append (laid_lineBreak _ _) (by decide : Printable [125]).laid
  | (k, x) :: ms, depth =>
      .cons (by decide) (.append (laid_lineBreak _ _) (.append (printable_quoted k).laid
        (.append (by decide : Printable spaced.key).laid (.append (laid_renderIndented indent x _)
          (laid_renderMembersIndented indent ms depth)))))

end

end

/-- A text without carriage returns is read as it stands. -/
theorem universalNewlines_eq_self {s : Str} (h : carriageReturn ∉ s) :
    universalNewlines false s = s := by
  induction s with
  | nil => rfl
  | cons c s ih =>
      have hc : c ≠ carriageReturn := fun he => h (he ▸ List.mem_cons_self)
      rw [universalNewlines, if_neg hc, if_neg (by simp),
        ih fun hs => h (List.mem_cons_of_mem c hs)]

theorem Laid.universalNewlines {s : Str} (h : Laid s) : Py.universalNewlines false s = s := by
  refine universalNewlines_eq_self fun hc => ?_
  rcases h carriageReturn hc with he | he
  · exact absurd he (by decide)
  · exact absurd he (by decide)

/-! ## Files of JSON -/

section

variable [FloatFormat φ]

/-- `dumps` with `sort_keys=True` and an `indent`. -/
def dumpsIndented (indent : Nat) (v : PyVal φ) : Option Str := (encode v).map (renderIndented indent 0)

/-- What `json.load` makes of a file that is opened as text. -/
def loadFile (content : Str) : Option (PyVal φ) := loads (universalNewlines false content)

theorem dumpsIndented_eq (indent : Nat) {v : PyVal φ} (h : textKeyed v = true) :
    dumpsIndented indent v = some (renderIndented indent 0 (doc v)) := by
  rw [dumpsIndented, encode_eq_doc v h, Option.map_some]

/-- A file that `dump` wrote, and that ends with a line feed, is read back. -/
theorem loadFile_renderIndented (indent : Nat) (v : PyVal φ) :
    loadFile (renderIndented indent 0 (doc v) ++ [newline]) = some (readBack v) := by
  have hlaid : Laid (renderIndented indent 0 (doc v) ++ [newline]) :=
    (laid_renderIndented indent _ 0).append fun c hc => .inl (List.mem_singleton.1 hc)
  have hspace : ∀ c ∈ [newline], isJsonSpace c = true := by
    intro c hc
    rw [List.mem_singleton.1 hc]
    decide
  rw [loadFile, hlaid.universalNewlines, loads, parse_renderIndented indent 0 _ hspace,
    Option.map_some, readBack]

end

theorem isJsonList_iff {xs : List (PyVal φ)} :
    isJsonList xs = true ↔ ∀ x ∈ xs, isJson x = true := by
  induction xs with
  | nil => simp [isJsonList]
  | cons x xs ih => simp [isJsonList, ih]

mutual

theorem isJson_load : ∀ j : Json φ, joinDoc j = j → isJson (load j) = true
  | .null, _ | .bool _, _ | .int _, _ | .float _, _ => rfl
  | .str s, h => by
      rw [load, isJson, decide_eq_true_eq]
      exact Json.str.inj h
  | .arr xs, h => by
      rw [load, isJson]
      exact isJson_loadList xs (Json.arr.inj h)
  | .obj ms, h => by
      have hms := isJson_loadMembers ms (Json.obj.inj h)
      rw [load, isJson_dict]
      refine ⟨isJsonItems_iff.2 fun i hi => ?_, ?_⟩
      · obtain ⟨m, hm, rfl⟩ := List.mem_map.1 hi
        obtain ⟨hkey, hval⟩ := hms m (Dict.mem_ofPairs hm)
        exact ⟨decide_eq_true hkey, hval⟩
      · have hkeys : (((Dict.ofPairs (loadMembers ms)).map fun m => (Key.str m.1, m.2)).map
              fun i : Key φ × PyVal φ => i.1.asStr) =
            ((Dict.ofPairs (loadMembers ms)).map Prod.fst).map some := by
          rw [List.map_map, List.map_map]
          rfl
        rw [hkeys]
        exact (Dict.nodup_ofPairs _).map (Option.some_injective _)

theorem isJson_loadList :
    ∀ xs : List (Json φ), joinElems xs = xs → isJsonList (loadList xs) = true
  | [], _ => rfl
  | x :: xs, h => by
      obtain ⟨hx, hxs⟩ := List.cons.inj h
      rw [loadList, isJsonList, isJson_load x hx, isJson_loadList xs hxs]
      rfl

theorem isJson_loadMembers : ∀ ms : List (Str × Json φ), joinMembers ms = ms →
    ∀ m ∈ loadMembers ms, join m.1 = m.1 ∧ isJson m.2 = true
  | [], _, m, hm => by cases hm
  | (k, x) :: ms, h, m, hm => by
      obtain ⟨hmem, hms⟩ := List.cons.inj h
      obtain ⟨hk, hx⟩ := Prod.mk.inj hmem
      rcases List.mem_cons.1 hm with rfl | hm
      · exact ⟨hk, isJson_load x hx⟩
      · exact isJson_loadMembers ms hms m hm

end

theorem plain_universalNewlines {s : Str} (h : Plain s) (b : Bool) : Plain (universalNewlines b s) := by
  intro c hc
  rcases mem_universalNewlines hc with hc | rfl
  · exact h c hc
  · decide

/-- What is read from a file in UTF-8 has every surrogate pair joined. -/
theorem isJson_loadFile [FloatFormat φ] {s : Str} (hs : Plain s) {v : PyVal φ}
    (h : loadFile s = some v) : isJson v = true := by
  obtain ⟨j, hj, rfl⟩ := Option.map_eq_some_iff.1 h
  exact isJson_load j (joinDoc_parse (plain_universalNewlines hs false) hj)

end Py
