import Mathlib.Data.List.Forall2
import Stencil.JsonPath.Basic
import Stencil.Proofs.Except
import Stencil.Proofs.Text.Blank

/-!
# The grammar of JSON paths

The texts of a path, by rules that name no reader: behind the dollar sign and a point stand the
texts of the segments with points between them (`PathText`). A segment is a field, an index in
brackets, or a field with an index behind it (`SegmentText`), and an index may be written with
blanks, a plus sign and zeros (`IndexText`). The main statement is that a text is read as segments
if and only if it is a text of their path (`parse_eq_ok_iff`).
-/

namespace Stencil.JsonPath

open Text

/-- The texts of an index of 64 bits: its digits with zeros and a plus sign in front of them, if
any, and blanks around them. -/
inductive IndexText (index : Nat) : List Char → Prop
  | intro {front back : List Char} (plus : Bool) (zeros : Nat) :
      index < 18446744073709551616 → (∀ c ∈ front, isBlank c) → (∀ c ∈ back, isBlank c) →
      IndexText index (front ++ Decimal.spelling plus zeros index ++ back)

/-- The texts of a segment. In front of an index a field may be left out, and it may hold closing
brackets. -/
inductive SegmentText : Segment → List Char → Prop
  | field {field : List Char} : field ≠ [] → '[' ∉ field → ']' ∉ field →
      SegmentText ⟨field, none⟩ field
  | index {field text : List Char} {index : Nat} : '[' ∉ field → IndexText index text →
      SegmentText ⟨field, some index⟩ (field ++ '[' :: (text ++ [']']))

/-- The texts of segments with points between them; a segment holds no point. -/
def JoinedText (segments : List Segment) (text : List Char) : Prop :=
  ∃ parts, text = ['.'].intercalate parts ∧ List.Forall₂ SegmentText segments parts ∧
    ∀ part ∈ parts, '.' ∉ part

/-- The texts of a path. The point behind the dollar sign may be left out in front of an index
alone and where nothing follows. Blanks at the end are no part of the last segment. -/
inductive PathText (segments : List Segment) : List Char → Prop
  | intro {front point text back : List Char} :
      (∀ c ∈ front, isBlank c) → (∀ c ∈ back, isBlank c) →
      (point = ['.'] ∨ point = [] ∧ ∀ s ∈ segments.head?, s.field = []) →
      JoinedText segments text → (∀ c ∈ text.getLast?, isBlank c = false) →
      PathText segments (front ++ '$' :: (point ++ text) ++ back)

/-! ## Segments -/

theorem isBlank_of_mem_spelling {plus : Bool} {zeros n : Nat} {c : Char}
    (h : c ∈ Decimal.spelling plus zeros n) : isBlank c = false := by
  rw [Decimal.spelling, List.mem_append, List.mem_append, List.mem_replicate] at h
  rcases h with hsign | ⟨-, rfl⟩ | hdigit
  · cases plus with
    | true =>
        obtain rfl : c = '+' := List.mem_singleton.1 hsign
        decide
    | false => cases hsign
  · decide
  · exact isBlank_of_isDigit (Decimal.isDigit_of_mem_toDigits hdigit)

theorem index?_eq_some_iff {cs : List Char} {index : Nat} :
    index? cs = some index ↔ ∃ text, cs = text ++ [']'] ∧ IndexText index text := by
  constructor
  · intro h
    unfold index? at h
    split at h
    next r hreverse =>
      obtain ⟨hlt, plus, zeros, htrim⟩ := Decimal.nat64?_eq_some_iff.1 h
      obtain ⟨⟨front, back, heq, hfront, hback⟩, -⟩ := trim_eq_iff.1 htrim
      have hcs : cs = r.reverse ++ [']'] := by simpa using congrArg List.reverse hreverse
      refine ⟨r.reverse, hcs, ?_⟩
      rw [heq]
      exact .intro plus zeros hlt hfront hback
    next => cases h
  · rintro ⟨text, rfl, htext⟩
    cases htext with
    | @intro front back plus zeros hlt hfront hback =>
        generalize hdigits : Decimal.spelling plus zeros index = digits
        have hblank : ∀ c ∈ digits, isBlank c = false := by
          rw [← hdigits]
          exact fun c => isBlank_of_mem_spelling
        have htrim : trim (front ++ digits ++ back) = digits :=
          trim_eq_iff.2 ⟨⟨front, back, rfl, hfront, hback⟩,
            fun c hc => hblank c (List.mem_of_mem_head? hc),
            fun c hc => hblank c (List.mem_of_mem_getLast? hc)⟩
        have hreverse : (front ++ digits ++ back ++ [']']).reverse =
            ']' :: (front ++ digits ++ back).reverse := by simp
        simp only [index?, hreverse, List.reverse_reverse, htrim]
        exact Decimal.nat64?_eq_some_iff.2 ⟨hlt, plus, zeros, hdigits.symm⟩

/-- A text is read as a segment if it is one of its texts. -/
theorem segment?_eq_some_iff {cs : List Char} {s : Segment} :
    segment? cs = some s ↔ SegmentText s cs := by
  constructor
  · intro h
    unfold segment? at h
    split at h
    next hcut =>
      split at h
      next => cases h
      next hbare =>
        obtain ⟨hne, hclosing⟩ := not_or.1 hbare
        cases h
        exact .field hne (not_mem_of_cutChar?_eq_none hcut) hclosing
    next field r hcut =>
      obtain ⟨rfl, hfield⟩ := eq_append_of_cutChar? hcut
      obtain ⟨index, hindex, rfl⟩ := Option.map_eq_some_iff.1 h
      obtain ⟨text, rfl, htext⟩ := index?_eq_some_iff.1 hindex
      exact .index hfield htext
  · intro h
    cases h with
    | field hne hopening hclosing =>
        rw [segment?, cutChar?_eq_none hopening]
        exact if_neg (not_or.2 ⟨hne, hclosing⟩)
    | index hfield htext =>
        rw [segment?, cutChar?_append hfield]
        dsimp only
        rw [index?_eq_some_iff.2 ⟨_, rfl, htext⟩]
        rfl

theorem SegmentText.ne_nil {s : Segment} {text : List Char} (h : SegmentText s text) :
    text ≠ [] := by
  cases h with
  | field hne => exact hne
  | index => simp

/-- An index alone is told by its bracket. -/
theorem SegmentText.field_eq_nil_iff {s : Segment} {text : List Char} (h : SegmentText s text) :
    s.field = [] ↔ text.head? = some '[' := by
  have hcons : ∀ c r, '[' ∉ c :: r → c ≠ '[' := by
    rintro c r hnot rfl
    exact hnot List.mem_cons_self
  cases h with
  | @field field hne hopening =>
      obtain ⟨c, r, rfl⟩ := List.exists_cons_of_ne_nil hne
      simp [hcons c r hopening]
  | @index field _ _ hopening =>
      cases field with
      | nil => simp
      | cons c r => simp [hcons c r hopening]

theorem parseSegments_eq_ok_iff (path : String) {parts : List (List Char)}
    {segments : List Segment} :
    parseSegments path parts = .ok segments ↔ List.Forall₂ SegmentText segments parts := by
  induction parts generalizing segments with
  | nil => simp [parseSegments, eq_comm]
  | cons part parts ih =>
      rw [parseSegments, List.forall₂_cons_right_iff]
      constructor
      · intro h
        split at h
        next => cases h
        next s hs =>
          obtain ⟨rest, hrest, h⟩ := exists_of_bind_eq_ok h
          cases h
          exact ⟨s, rest, segment?_eq_some_iff.1 hs, ih.1 hrest, rfl⟩
      · rintro ⟨s, rest, hs, hrest, rfl⟩
        rw [segment?_eq_some_iff.2 hs, ih.2 hrest]
        rfl

/-! ## Paths -/

theorem parseRest_eq_ok_iff (path : String) {cs : List Char} {segments : List Segment} :
    parseRest path cs = .ok segments ↔ JoinedText segments cs := by
  constructor
  · intro h
    unfold parseRest at h
    split at h
    next hnil =>
      cases h
      exact ⟨[], hnil, .nil, by simp⟩
    next =>
      obtain ⟨-, hpoint, heq⟩ := splitAtChar_eq_iff.1 (Eq.refl (splitAtChar '.' cs))
      exact ⟨_, heq.symm, (parseSegments_eq_ok_iff path).1 h, hpoint⟩
  · rintro ⟨parts, rfl, hparts, hpoint⟩
    cases hparts with
    | nil => rfl
    | @cons s part segments parts hs hrest =>
        rw [parseRest, if_neg (intercalate_ne_nil hs.ne_nil '.' parts),
          splitAtChar_eq_iff.2 ⟨by simp, hpoint, rfl⟩]
        exact (parseSegments_eq_ok_iff path).2 (.cons hs hrest)

/-- The point may be left out if nothing follows it or a bracket does. -/
theorem JoinedText.head?_iff {segments : List Segment} {text : List Char}
    (h : JoinedText segments text) :
    (∀ s ∈ segments.head?, s.field = []) ↔ text = [] ∨ text.head? = some '[' := by
  obtain ⟨parts, rfl, hparts, -⟩ := h
  cases hparts with
  | nil => simp
  | @cons s part segments parts hs hrest =>
      rw [head?_intercalate hs.ne_nil, ← hs.field_eq_nil_iff]
      simp [intercalate_ne_nil hs.ne_nil]

/-- What stands in front of a text does not matter for whether it ends in a blank, if that itself
does not. -/
theorem last_append_iff {front : List Char} (hfront : ∀ c ∈ front.getLast?, isBlank c = false)
    (text : List Char) :
    (∀ c ∈ (front ++ text).getLast?, isBlank c = false) ↔
      ∀ c ∈ text.getLast?, isBlank c = false := by
  by_cases hne : text = []
  · subst hne
    simpa using hfront
  · rw [List.getLast?_append_of_ne_nil front hne]

/-- A text is read as segments if and only if it is a text of their path. -/
theorem parse_eq_ok_iff {path : List Char} {segments : List Segment} :
    parse path = .ok segments ↔ PathText segments path := by
  have hdollar : ∀ c ∈ ['$'].getLast?, isBlank c = false := by
    rintro c ⟨⟩
    decide
  have hpointed : ∀ c ∈ ['$', '.'].getLast?, isBlank c = false := by
    rintro c ⟨⟩
    decide
  constructor
  · intro h
    obtain ⟨⟨front, back, hpath, hfront, hback⟩, -, hlast⟩ := trim_eq_iff.1 (Eq.refl (trim path))
    unfold parse at h
    dsimp only at h
    split at h
    next r htrim =>
      rw [htrim] at hpath hlast
      rw [hpath]
      have hjoined := (parseRest_eq_ok_iff _).1 h
      exact .intro hfront hback (.inl rfl) hjoined ((last_append_iff hpointed r).1 hlast)
    next r _ htrim =>
      rw [htrim] at hpath hlast
      rw [hpath]
      split at h
      next hbare =>
        have hjoined := (parseRest_eq_ok_iff _).1 h
        exact .intro hfront hback (.inr ⟨rfl, hjoined.head?_iff.2 hbare⟩) hjoined
          ((last_append_iff hdollar r).1 hlast)
      next => cases h
    next => cases h
  · intro h
    cases h with
    | @intro front point text back hfront hback hpoint hjoined hlast =>
        have hend : ∀ c ∈ ('$' :: (point ++ text)).getLast?, isBlank c = false := by
          rcases hpoint with rfl | ⟨rfl, -⟩
          · exact (last_append_iff hpointed text).2 hlast
          · exact (last_append_iff hdollar text).2 hlast
        -- The dollar sign keeps the blanks in front apart, and the last segment those at the end.
        have htrim : trim (front ++ '$' :: (point ++ text) ++ back) = '$' :: (point ++ text) :=
          trim_eq_iff.2 ⟨⟨front, back, rfl, hfront, hback⟩, by rintro c ⟨⟩; decide, hend⟩
        have hrest := fun path => (parseRest_eq_ok_iff path).2 hjoined
        rw [parse, htrim]
        rcases hpoint with rfl | ⟨rfl, hbare⟩
        · exact hrest _
        · have hhead := hjoined.head?_iff.1 hbare
          rcases hhead with rfl | hbracket
          · exact (if_pos (.inl rfl)).trans (hrest _)
          · obtain ⟨r, rfl⟩ := List.head?_eq_some_iff.1 hbracket
            exact (if_pos (.inr rfl)).trans (hrest _)

end Stencil.JsonPath
