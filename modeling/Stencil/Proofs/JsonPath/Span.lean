import Stencil.Proofs.JsonPath.Safety

/-!
# Spans of values in JSON documents

Wherever a JSON document stands in a text, the scan of a value that begins in front of it takes its
span and nothing else: neither quotes and brackets in its strings nor brackets of the other kind
mislead it. The walk over an array takes the text of each of its items, and ends behind the last
one (`document_spans`).
-/

namespace Stencil.JsonPath

open Text Json

/-! ## Values -/

/-- The octets of a document are taken, wherever it stands. -/
theorem Octets.value?_render (s : Source) (before : List Char) {blanks after : List Char}
    (hblanks : ∀ c ∈ blanks, isAsciiBlank c) (hafter : Ends after) :
    Octets.value? (utf8 (before ++ blanks ++ s.render ++ after)) (utf8 before).length =
      .ok (some ((utf8 (before ++ blanks)).length,
        (utf8 (before ++ blanks ++ s.render)).length)) := by
  have hat : Octets.At (before ++ blanks ++ s.render ++ after) (utf8 before).length
      (blanks ++ s.render ++ after) := ⟨before, by simp, rfl⟩
  have hstart : (blanks ++ s.render ++ after).takeWhile isAsciiBlank = blanks := by
    obtain ⟨c, cs, hcons, hblank⟩ := s.render_eq_cons
    rw [List.append_assoc, List.takeWhile_append_of_pos hblanks, hcons, List.cons_append,
      List.takeWhile_cons_of_neg (by simp [isAsciiBlank_eq_false hblank]), List.append_nil]
  rw [Octets.value?_utf8 hat.drop, JsonPath.value?_render s hblanks hafter,
    Octets.skipBlanks_utf8 hat.drop, hstart, Option.map_some, Octets.range, Octets.stop]
  simp [Nat.add_assoc]

/-! ## Items -/

theorem toJson_items (items : Items) : items.toList.map Source.toJson = items.toJson := by
  cases items with
  | last before item behind => rfl
  | more before item behind rest => exact congrArg (item.toJson :: ·) (toJson_items rest)

/-- An array has its items in its text. -/
theorem items?_of_toJson {s : Source} {js : List Json} (h : s.toJson = .array js) :
    ∃ items, s.items? = some items ∧ items.map Source.toJson = js := by
  cases s with
  | scalar literal =>
      rw [Source.toJson, ScalarLiteral.toJson] at h
      split at h <;> cases h
  | string literal => cases h
  | emptyArray blanks =>
      cases h
      exact ⟨[], rfl, rfl⟩
  | array items =>
      cases h
      exact ⟨items.toList, rfl, toJson_items items⟩
  | emptyObject blanks => cases h
  | object members => cases h

/-- The octets of an item are taken, or there is no such item. -/
theorem Octets.element_items {text : String} {front back : Blanks} {s : Source}
    (htext : text.toList = front.chars ++ s.render ++ back.chars) {items : List Source}
    (hitems : s.items? = some items) (name : String) (index : Nat) :
    (Octets.element text name index >>= Octets.part text) =
      match items[index]? with
      | none => .error (.error (.outOfBounds index name))
      | some item => .ok (String.ofList item.render) := by
  have hfront : ∀ c ∈ front.chars, isAsciiBlank c := fun c hc =>
    isAsciiBlank_of_isSpace (front.isSpace c hc)
  have hagrees := (Octets.element_agrees text name index).part
  rw [htext, element_append hitems hfront, ← htext, String.ofList_toList,
    String.ofList_toList] at hagrees
  rw [hagrees]
  cases items[index]? <;> rfl

/-! ## Documents -/

/-- A text that is read as a document is the text of one, with blanks around it. Behind any text
and any blanks, and in front of whatever may stand behind a value, the scans take the document and
stop at its end. If the document is an array, its items are found by their indices, and no index
behind the last one finds anything. -/
theorem document_spans {text : String} {j : Json} (h : Json.parse? text = some j) :
    (∃ (front back : Blanks) (s : Source),
      text.toList = front.chars ++ s.render ++ back.chars ∧ s.toJson = j) ∧
    ∀ (front back : Blanks) (s : Source), text.toList = front.chars ++ s.render ++ back.chars →
      (∀ before blanks after : List Char, (∀ c ∈ blanks, isAsciiBlank c) → Ends after →
        value? (blanks ++ s.render ++ after) = some (s.render, after) ∧
        Octets.value? (utf8 (before ++ blanks ++ s.render ++ after)) (utf8 before).length =
          .ok (some ((utf8 (before ++ blanks)).length,
            (utf8 (before ++ blanks ++ s.render)).length))) ∧
      ∀ js, j = .array js → ∃ items, s.items? = some items ∧ items.map Source.toJson = js ∧
        ∀ name index,
          element name.toList index text.toList =
            (match items[index]? with
            | none => .error (.outOfBounds index name)
            | some item => .ok item.render) ∧
          (Octets.element text name index >>= Octets.part text) =
            match items[index]? with
            | none => .error (.error (.outOfBounds index name))
            | some item => .ok (String.ofList item.render) := by
  refine ⟨Json.parse?_eq_some_iff.1 h, ?_⟩
  intro front back s htext
  constructor
  · intro before blanks after hblanks hafter
    exact ⟨value?_render s hblanks hafter, Octets.value?_render s before hblanks hafter⟩
  · intro js hjs
    have hparse : Json.parse? text = some s.toJson :=
      Json.parse?_eq_some_iff.2 ⟨front, back, s, htext, rfl⟩
    have hjson : s.toJson = .array js := by
      rw [h, hjs] at hparse
      exact (Option.some.inj hparse).symm
    obtain ⟨items, hitems, hmap⟩ := items?_of_toJson hjson
    refine ⟨items, hitems, hmap, ?_⟩
    intro name index
    have hfront : ∀ c ∈ front.chars, isAsciiBlank c := fun c hc =>
      isAsciiBlank_of_isSpace (front.isSpace c hc)
    have hitem := element_append hitems hfront back.chars name.toList index
    rw [← htext, String.ofList_toList] at hitem
    exact ⟨hitem, Octets.element_items htext hitems name index⟩

/-- A closing bracket and an escaped quote in a string, and brackets of the other kind, behind a
character of two octets. -/
theorem document_spans_quoted :
    let space : Blanks := ⟨[' '], List.all_eq_true.1 (by decide)⟩
    let nothing : Blanks := ⟨[], List.all_eq_true.1 (by decide)⟩
    let bracket : StringLiteral := ⟨[']', '\\', '"', '\\', '\\'],
      .char (by decide) (by decide) (by decide) (.escape (by decide) (.escape (by decide) .nil))⟩
    let object : Source := .object (.last ⟨nothing, bracket, nothing, space⟩
      (.emptyArray space) nothing)
    let s : Source := .array (.more space (.string bracket) nothing (.last nothing object space))
    let text := " [ \"]\\\"\\\\\",\x7b\"]\\\"\\\\\": [ ]\x7d ]"
    Json.parse? text = some s.toJson ∧ (∀ c ∈ [' ', '\t'], isAsciiBlank c) ∧ Ends ['\x7d'] ∧
    value? ([' ', '\t'] ++ s.render ++ ['\x7d']) = some (s.render, ['\x7d']) ∧
    Octets.value? (utf8 (['é', ':'] ++ [' ', '\t'] ++ s.render ++ ['\x7d'])) 3 =
      .ok (some (5, 31)) ∧
    (Octets.element text "" 0 >>= Octets.part text) = .ok "\"]\\\"\\\\\"" ∧
    (Octets.element text "" 2 >>= Octets.part text) = .error (.error (.outOfBounds 2 "")) := by
  intro space nothing bracket object s text
  have htext : text.toList = space.chars ++ s.render ++ nothing.chars := by decide +kernel
  have hparse : Json.parse? text = some s.toJson :=
    Json.parse?_eq_some_iff.2 ⟨space, nothing, s, htext, rfl⟩
  have hblanks : ∀ c ∈ [' ', '\t'], isAsciiBlank c := List.all_eq_true.1 (by decide)
  have hends : Ends ['\x7d'] := by
    rintro c ⟨⟩
    decide
  obtain ⟨-, hspans⟩ := document_spans hparse
  obtain ⟨hvalue, hitems⟩ := hspans space nothing s htext
  obtain ⟨hchars, hoctets⟩ := hvalue ['é', ':'] [' ', '\t'] ['\x7d'] hblanks hends
  obtain ⟨items, hitems, -, hwalk⟩ := hitems _ rfl
  cases hitems
  refine ⟨hparse, hblanks, hends, hchars, hoctets, ?_, ?_⟩
  · exact (hwalk "" 0).2
  · exact (hwalk "" 2).2

end Stencil.JsonPath
