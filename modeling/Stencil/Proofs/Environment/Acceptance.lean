import Mathlib
import Stencil.Proofs.Environment.Loading
import Stencil.Proofs.Json.Reader
import Stencil.Proofs.Json.Reordering

/-!
# The texts that are configurations

A text is refused as no JSON if it is none, or if the document that it is has no value; any other
is read exactly if it is an acceptable configuration, and then as the table that it describes. The
order of members does not matter, not even for what is said to be wrong (`loads_acceptable`).

Documents without a value are refused even where the numbers that are read beyond binary64, the lone
surrogates and the nesting stand at places that are not looked at, so an acceptable configuration
may be refused; and of two members with one key only the last is looked at (`refuses_acceptable`).
-/

namespace Stencil

/-- A text is a document, with blanks around it. -/
def Json.IsText (text : String) (j : Json) : Prop :=
  ∃ (front back : Blanks) (s : Source),
    text.toList = front.chars ++ s.render ++ back.chars ∧ s.toJson = j

namespace Configuration

open Json

/-! ## The order of members -/

theorem readEntries_congr {name : String} {l l' : List (String × Json)}
    (h : SameKeys Reordered l l') : readEntries name l = readEntries name l' := by
  induction h with
  | nil => rfl
  | @cons e f l l' hef _ ih =>
      obtain ⟨key, value⟩ := e
      obtain ⟨key', value'⟩ := f
      obtain ⟨rfl, hvalues⟩ := hef
      rw [readEntries_cons, readEntries_cons, hvalues.ofJson?, ih]

theorem readVariables_congr {j j' : Json} (h : j.Reordered j') (name : String) :
    readVariables name j = readVariables name j' := by
  have hdicts := h.asDict?
  rw [readVariables, readVariables]
  generalize asDict? some j = d at *
  generalize asDict? some j' = d' at *
  cases hdicts with
  | none => rfl
  | some hsame => exact congrArg (Except.map Dict.ofList) (readEntries_congr hsame)

theorem readMember_congr {j j' : Json} (h : j.Reordered j') (table : EnvironmentTable)
    (key : String) : readMember table key j = readMember table key j' := by
  simp only [readMember, readVariables_congr h, h.asText?]

theorem readMembers_congr {l l' : List (String × Json)} (h : SameKeys Reordered l l')
    (table : EnvironmentTable) : readMembers table l = readMembers table l' := by
  induction h generalizing table with
  | nil => rfl
  | @cons e f l l' hef _ ih =>
      obtain ⟨key, value⟩ := e
      obtain ⟨key', value'⟩ := f
      obtain ⟨rfl, hvalues⟩ := hef
      rw [readMembers, readMembers, readMember_congr hvalues]
      exact bind_congr fun next => ih next

theorem ofJson_congr {j j' : Json} (h : j.Reordered j') : ofJson j = ofJson j' := by
  have hdicts := h.asDict?
  rw [ofJson, ofJson]
  generalize asDict? some j = d at *
  generalize asDict? some j' = d' at *
  cases hdicts with
  | none => rfl
  | some hsame => simp only [readMembers_congr hsame]

/-! ## Texts -/

theorem parse_of_not_isText {content : String} (h : ∀ j, ¬ IsText content j) :
    parse content = .error .notJson := by
  have hnone : Json.parse? content = none :=
    Option.eq_none_iff_forall_ne_some.2 fun j hj => h j (parse?_eq_some_iff.1 hj)
  rw [parse, parseValue?, hnone]
  rfl

theorem parse_of_isText {content : String} {j : Json} (h : IsText content j) : parse content =
    if j.admissible then
      match ofJson j with
      | .error fault => .error (.invalid fault)
      | .ok table => .ok table
    else .error .notJson := by
  have hvalue : parseValue? content = if j.admissible then some j else none := by
    rw [parseValue?, parse?_eq_some_iff.2 h]
    rfl
  rw [parse, hvalue]
  cases j.admissible with
  | false => rfl
  | true => rfl

theorem parse_of_ofJson {content : String} {j : Json} {table : EnvironmentTable}
    (h : IsText content j) (hadmissible : j.admissible = true) (hread : ofJson j = .ok table) :
    parse content = .ok table := by
  rw [parse_of_isText h, if_pos hadmissible, hread]

theorem ofJson_of_parse {content : String} {j : Json} {table : EnvironmentTable}
    (h : IsText content j) (hparse : parse content = .ok table) :
    j.HasValue ∧ ofJson j = .ok table := by
  rw [parse_of_isText h] at hparse
  split at hparse
  next hadmissible =>
    cases hread : ofJson j with
    | error fault =>
        rw [hread] at hparse
        cases hparse
    | ok found =>
        rw [hread] at hparse
        cases hparse
        exact ⟨⟨depthLimit, hadmissible⟩, rfl⟩
  next => cases hparse

theorem parse_congr {content content' : String} {j j' : Json} (h : IsText content j)
    (h' : IsText content' j') (hreordered : j.Reordered j') : parse content' = parse content := by
  rw [parse_of_isText h, parse_of_isText h', ofJson_congr hreordered, admissible, admissible,
    hreordered.admissibleWithin]

/-- A text is read exactly if it is an acceptable configuration, and then as the table that it
describes; anything else is refused, and the order of its members does not matter. -/
theorem loads_acceptable (content : String) :
    ((∀ j, ¬ IsText content j) → parse content = .error .notJson) ∧
    ∀ j, IsText content j →
      (j.admissible = false → parse content = .error .notJson) ∧
      (j.admissible = true → (∀ members, j ≠ .object members) →
        parse content = .error (.invalid .rootNotObject)) ∧
      (j.admissible = true → (∃ members, j = .object members) →
        (∀ table, parse content = .ok table ↔ Acceptable j ∧ Describes j table) ∧
        (Acceptable j → ∃ table, parse content = .ok table) ∧
        (¬ Acceptable j → ∃ fault, parse content = .error (.invalid fault))) ∧
      ∀ content' j', IsText content' j' → j.Reordered j' → parse content' = parse content := by
  refine ⟨parse_of_not_isText, fun j hj => ⟨fun h => ?_, fun h hroot => ?_, ?_, ?_⟩⟩
  · rw [parse_of_isText hj, h]
    rfl
  · rw [parse_of_isText hj, if_pos h, ofJson, asDict?_eq_none_of_not_object hroot]
  · rintro h ⟨members, rfl⟩
    have hvalue : (Json.object members).HasValue := ⟨depthLimit, h⟩
    have hparse := parse_of_isText hj
    rw [if_pos h] at hparse
    refine ⟨fun table => ?_, fun hacceptable => ?_, fun hnot => ?_⟩
    · rw [← ofJson_eq_ok_iff hvalue, hparse]
      cases ofJson (.object members) <;> simp
    · obtain ⟨table, htable⟩ := exists_ofJson hvalue hacceptable
      exact ⟨table, parse_of_ofJson hj h htable⟩
    · cases hread : ofJson (.object members) with
      | error fault => exact ⟨fault, by rw [hparse, hread]⟩
      | ok table => exact absurd (describes_of_ofJson hvalue hread).1 hnot
  · exact fun content' j' hj' hreordered => parse_congr hj hj' hreordered

/-- Members of the root and of an environment that change places. -/
theorem loads_acceptable_reordered :
    let text := "\x7b\"$default\":\"a\",\"a\":\x7b\"x\":true,\"y\":\"z\"\x7d\x7d"
    let other := "\x7b\"a\":\x7b\"y\":\"z\",\"x\":true\x7d,\"$default\":\"a\"\x7d"
    parse other = parse text ∧ ∃ j table, IsText text j ∧ Acceptable j ∧ Describes j table ∧
      parse text = .ok table ∧ table.own? "a" "x" = some "true" := by
  intro text other
  have hread : ofJson (.object [("$default".toList, .string "a".toList), ("a".toList,
      .object [("x".toList, .bool true), ("y".toList, .string "z".toList)])]) =
      .ok ⟨Dict.empty.insert "a" ⟨"a", (Dict.empty.insert "x" "true").insert "y" "z"⟩, .empty,
        some "a"⟩ := by
    rfl
  let default := ("$default".toList, string "a".toList)
  let x := ("x".toList, Json.bool true)
  let y := ("y".toList, string "z".toList)
  have htext : IsText text (.object [default, ("a".toList, .object [x, y])]) :=
    parse?_eq_some_iff.1 (by cbv)
  have hother : IsText other (.object [("a".toList, .object [y, x]), default]) :=
    parse?_eq_some_iff.1 (by cbv)
  have hroot : Reordered (.object [default, ("a".toList, .object [x, y])])
      (.object [("a".toList, .object [x, y]), default]) :=
    .members (.swap _ _ []) (by decide)
  have hvalue : Reordered (.object [("a".toList, .object [x, y]), default])
      (.object [("a".toList, .object [y, x]), default]) :=
    .value [] [default] "a".toList (.members (.swap _ _ []) (by decide))
  have hparse := parse_of_ofJson htext (by decide) hread
  obtain ⟨-, hspec⟩ := loads_acceptable text
  obtain ⟨-, -, hobject, horder⟩ := hspec _ htext
  obtain ⟨htable, -, -⟩ := hobject (by decide) ⟨_, rfl⟩
  obtain ⟨hacceptable, hdescribes⟩ := (htable _).1 hparse
  exact ⟨horder other _ hother (.trans hroot hvalue), _, _, htext, hacceptable, hdescribes, hparse,
    by decide⟩

/-- An acceptable configuration is refused where a number that nothing looks at is read beyond
binary64, and a member that is no environment is passed over where another one has its key. The
border is that of reading, which is below that of the format, and it is the number that was read
whose text is loaded. -/
theorem refuses_acceptable :
    (∃ members, IsText "\x7b\"$default\":1e999\x7d" (.object members) ∧
      Acceptable (.object members) ∧ parse "\x7b\"$default\":1e999\x7d" = .error .notJson) ∧
    (∃ members, IsText "\x7b\"a\":true,\"a\":\x7b\x7d\x7d" (.object members) ∧
      ("a".toList, .bool true) ∈ members ∧
      ∃ table, parse "\x7b\"a\":true,\"a\":\x7b\x7d\x7d" = .ok table) ∧
    parse "\x7b\"e\":\x7b\"x\":1.7976931348623158e308\x7d\x7d" = .error .notJson ∧
    ∃ table, parse "\x7b\"e\":\x7b\"x\":31.245270191439438\x7d\x7d" = .ok table ∧
      table.own? "e" "x" = some "31.24527019143944" := by
  refine ⟨?_, ?_, ?_, ?_⟩
  · have htext : IsText "\x7b\"$default\":1e999\x7d"
        (.object [("$default".toList, .number "1e999".toList)]) := parse?_eq_some_iff.1 (by cbv)
    have hdict : asDict? some (.object [("$default".toList, .number "1e999".toList)]) =
        some (Dict.empty.insert "$default" (.number "1e999".toList)) := rfl
    have hholds : ∀ key value, Holds (.object [("$default".toList, .number "1e999".toList)]) key
        value → key = "$default" ∧ value = .number "1e999".toList := by
      intro key value h
      have hget := (get?_of_asDict? hdict).2 h
      rw [Dict.get?_insert] at hget
      split at hget
      next hkey => exact ⟨hkey, (Option.some.inj hget).symm⟩
      next => cases hget
    refine ⟨_, htext, ⟨?_, ?_⟩, ?_⟩
    · intro key value h
      obtain ⟨rfl, -⟩ := hholds key value h
      exact ⟨fun hne => absurd rfl hne, fun hreserved => absurd (.inr rfl) hreserved⟩
    · rintro name ⟨literal, h, -⟩
      cases (hholds _ _ h).2
    · rw [parse_of_isText htext, if_neg (by decide +kernel)]
  · have htext : IsText "\x7b\"a\":true,\"a\":\x7b\x7d\x7d"
        (.object [("a".toList, .bool true), ("a".toList, .object [])]) :=
      parse?_eq_some_iff.1 (by cbv)
    exact ⟨_, htext, List.mem_cons_self, ⟨Dict.empty.insert "a" ⟨"a", .empty⟩, .empty, none⟩,
      parse_of_ofJson htext (by decide) (by rfl)⟩
  · have htext : IsText "\x7b\"e\":\x7b\"x\":1.7976931348623158e308\x7d\x7d"
        (.object [("e".toList, .object [("x".toList, .number "1.7976931348623158e308".toList)])]) :=
      parse?_eq_some_iff.1 (by cbv)
    rw [parse_of_isText htext, if_neg (by decide +kernel)]
  · have hseen : ((parse "\x7b\"e\":\x7b\"x\":31.245270191439438\x7d\x7d").toOption.bind
        fun table => table.own? "e" "x") = some "31.24527019143944" := by decide +kernel
    obtain ⟨table, htable, htext⟩ := Option.bind_eq_some_iff.1 hseen
    exact ⟨table, eq_ok_of_toOption htable, htext⟩

end Configuration

end Stencil
