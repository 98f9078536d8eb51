import Stencil.Proofs.JsonPath.Grammar

/-!
# Written JSON paths

What a path is read as can be written again: the segments that are read from some path are the
`Readable` ones (`PathText.readable`), and these are read back from what `render` writes of them
(`Readable.parse_render`). So writing what was read gives every path a normal form, which is read
as the path itself (`paths_normalised`).
-/

namespace Stencil.JsonPath

open Text

/-- A segment that is not changed by writing it into a path and reading it there: its field holds
none of the characters that end a field and no blank at its end, its index fits 64 bits, and it is
not empty. -/
structure Segment.WellFormed (s : Segment) : Prop where
  marks : ∀ c ∈ s.field, c ≠ '.' ∧ c ≠ '[' ∧ c ≠ ']'
  last : ∀ c ∈ s.field.getLast?, isBlank c = false
  bound : ∀ index ∈ s.index, index < 18446744073709551616
  nonempty : s.field = [] → s.index.isSome

/-- A segment that is read from some path. In front of an index a field may hold a closing
bracket. -/
structure Segment.Readable (s : Segment) : Prop where
  marks : ∀ c ∈ s.field, c ≠ '.' ∧ c ≠ '['
  bound : ∀ index ∈ s.index, index < 18446744073709551616
  bare : s.index = none → s.field ≠ [] ∧ ']' ∉ s.field

/-- Segments that are read from some path. Only a field at the very end cannot end in a blank. -/
structure Readable (segments : List Segment) : Prop where
  each : ∀ s ∈ segments, s.Readable
  last : ∀ s ∈ segments.getLast?, s.index = none → ∀ c ∈ s.field.getLast?, isBlank c = false

/-- Segments as text, with points between them. -/
def joined (segments : List Segment) : List Char :=
  ['.'].intercalate (segments.map Segment.render)

/-! ## Segments -/

theorem Segment.render_field (field : List Char) : Segment.render ⟨field, none⟩ = field :=
  List.append_nil field

theorem Segment.render_index (field : List Char) (index : Nat) :
    Segment.render ⟨field, some index⟩ = field ++ '[' :: (Nat.toDigits 10 index ++ [']']) := rfl

theorem indexText_toDigits {index : Nat} (h : index < 18446744073709551616) :
    IndexText index (Nat.toDigits 10 index) := by
  have htext := IndexText.intro false 0 h (List.forall_mem_nil _) (List.forall_mem_nil _)
  rw [List.append_nil] at htext
  exact htext

theorem SegmentText.readable {s : Segment} {text : List Char} (h : SegmentText s text)
    (hpoint : '.' ∉ text) : s.Readable := by
  have hmarks : ∀ {field : List Char}, '.' ∉ field → '[' ∉ field →
      ∀ c ∈ field, c ≠ '.' ∧ c ≠ '[' := by
    intro field hpoint hopening c hc
    constructor <;> rintro rfl <;> contradiction
  cases h with
  | field hne hopening hclosing =>
      exact ⟨hmarks hpoint hopening, by simp, fun _ => ⟨hne, hclosing⟩⟩
  | index hopening htext =>
      cases htext with
      | intro plus zeros hlt =>
          have hfield := fun hmem => hpoint (List.mem_append_left _ hmem)
          exact ⟨hmarks hfield hopening, by rintro index ⟨⟩; exact hlt, by simp⟩

theorem Segment.WellFormed.readable {s : Segment} (h : s.WellFormed) : s.Readable where
  marks c hc := ⟨(h.marks c hc).1, (h.marks c hc).2.1⟩
  bound := h.bound
  bare hnone := by
    refine ⟨?_, fun hmem => (h.marks ']' hmem).2.2 rfl⟩
    intro hnil
    have hsome := h.nonempty hnil
    rw [hnone] at hsome
    cases hsome

/-- What is written of a segment is one of its texts. -/
theorem Segment.Readable.segmentText {s : Segment} (h : s.Readable) : SegmentText s s.render := by
  obtain ⟨field, index⟩ := s
  have hopening : '[' ∉ field := fun hmem => (h.marks '[' hmem).2 rfl
  cases index with
  | none =>
      rw [Segment.render_field]
      exact .field (h.bare rfl).1 hopening (h.bare rfl).2
  | some index =>
      rw [Segment.render_index]
      exact .index hopening (indexText_toDigits (h.bound index rfl))

theorem Segment.Readable.point_not_mem {s : Segment} (h : s.Readable) : '.' ∉ s.render := by
  have hfield : '.' ∉ s.field := fun hmem => (h.marks '.' hmem).1 rfl
  cases hindex : s.index with
  | none => simpa [Segment.render, hindex] using hfield
  | some index =>
      have hdigits : '.' ∉ Nat.toDigits 10 index := fun hmem =>
        absurd (Decimal.isDigit_of_mem_toDigits hmem) (by decide)
      simp [Segment.render, hindex, hfield, hdigits]

/-- A segment with an index ends in a bracket. -/
theorem Segment.last_render {s : Segment}
    (h : s.index = none → ∀ c ∈ s.field.getLast?, isBlank c = false) :
    ∀ c ∈ s.render.getLast?, isBlank c = false := by
  obtain ⟨field, index⟩ := s
  cases index with
  | none =>
      rw [Segment.render_field]
      exact h rfl
  | some index =>
      rw [Segment.render_index, ← List.cons_append, ← List.append_assoc, List.getLast?_concat]
      rintro c ⟨⟩
      decide

/-! ## Paths -/

theorem Readable.joinedText {segments : List Segment} (h : Readable segments) :
    JoinedText segments (joined segments) := by
  refine ⟨segments.map Segment.render, rfl, ?_, ?_⟩
  · rw [List.forall₂_map_right_iff, List.forall₂_same]
    exact fun s hs => (h.each s hs).segmentText
  · intro part hpart
    obtain ⟨s, hs, rfl⟩ := List.mem_map.1 hpart
    exact (h.each s hs).point_not_mem

theorem Readable.last_joined {segments : List Segment} (h : Readable segments) :
    ∀ c ∈ (joined segments).getLast?, isBlank c = false := by
  cases hlast : segments.getLast? with
  | none =>
      rw [List.getLast?_eq_none_iff.1 hlast]
      simp [joined]
  | some s =>
      have hs : s ∈ segments := List.mem_of_getLast? hlast
      have hpart : s.render ∈ (segments.map Segment.render).getLast? := by
        rw [List.getLast?_map, hlast]
        rfl
      rw [joined, getLast?_intercalate (h.each s hs).segmentText.ne_nil '.' hpart]
      exact Segment.last_render (h.last s hlast)

/-- Segments are read back if they are written with the point behind the dollar sign, and without
it where it may be left out. -/
theorem Readable.parse_joined {segments : List Segment} (h : Readable segments)
    {point : List Char}
    (hpoint : point = ['.'] ∨ point = [] ∧ ∀ s ∈ segments.head?, s.field = []) :
    parse ('$' :: (point ++ joined segments)) = .ok segments := by
  have hpath := PathText.intro (List.forall_mem_nil _) (List.forall_mem_nil _) hpoint
    h.joinedText h.last_joined
  rw [List.nil_append, List.append_nil] at hpath
  exact parse_eq_ok_iff.2 hpath

theorem Readable.parse_render {segments : List Segment} (h : Readable segments) :
    parse (render segments) = .ok segments := h.parse_joined (.inl rfl)

theorem exists_part {segments : List Segment} {parts : List (List Char)}
    (h : List.Forall₂ SegmentText segments parts) {s : Segment} (hs : s ∈ segments) :
    ∃ part ∈ parts, SegmentText s part := by
  induction h with
  | nil => cases hs
  | cons hfirst _ ih =>
      rcases List.mem_cons.1 hs with rfl | hs
      · exact ⟨_, List.mem_cons_self, hfirst⟩
      · obtain ⟨part, hpart, htext⟩ := ih hs
        exact ⟨part, List.mem_cons_of_mem _ hpart, htext⟩

theorem exists_last_part {segments : List Segment} {parts : List (List Char)}
    (h : List.Forall₂ SegmentText segments parts) {s : Segment} (hs : s ∈ segments.getLast?) :
    ∃ part ∈ parts.getLast?, SegmentText s part := by
  induction h with
  | nil => cases hs
  | cons hfirst hrest ih =>
      cases hrest with
      | nil =>
          obtain rfl : _ = s := by simpa using hs
          exact ⟨_, rfl, hfirst⟩
      | cons => exact ih hs

/-- Whatever a path is read as is readable. -/
theorem PathText.readable {segments : List Segment} {path : List Char}
    (h : PathText segments path) : Readable segments := by
  cases h with
  | intro hfront hback hpoint hjoined hlast =>
      obtain ⟨parts, rfl, hparts, hpoints⟩ := hjoined
      refine ⟨?_, ?_⟩
      · intro s hs
        obtain ⟨part, hpart, htext⟩ := exists_part hparts hs
        exact htext.readable (hpoints part hpart)
      · intro s hs hnone
        obtain ⟨part, hpart, htext⟩ := exists_last_part hparts hs
        rw [getLast?_intercalate htext.ne_nil '.' hpart] at hlast
        -- The path ends in this segment, and without an index that is its field.
        cases htext with
        | field => exact hlast
        | index => cases hnone

theorem readable_of_wellFormed {segments : List Segment} (h : ∀ s ∈ segments, s.WellFormed) :
    Readable segments where
  each s hs := (h s hs).readable
  last s hs _ := (h s (List.mem_of_getLast? hs)).last

/-! ## Normal forms -/

/-- A text is read as segments exactly when it is a text of their path. Whatever segments are read,
they are read again from what is written of them; each has a field, an index or both, and its field
holds no point and no opening bracket. All segments that are well formed are read back from what is
written of them, also with blanks in front of their fields. -/
theorem paths_normalised :
    (∀ path segments, parse path = .ok segments ↔ PathText segments path) ∧
    (∀ path segments, parse path = .ok segments →
      parse (render segments) = .ok segments ∧
      ∀ s ∈ segments, '.' ∉ s.field ∧ '[' ∉ s.field ∧ (s.field = [] → s.index.isSome)) ∧
    ∀ segments : List Segment, (∀ s ∈ segments, s.WellFormed) →
      parse (render segments) = .ok segments := by
  refine ⟨fun path segments => parse_eq_ok_iff, ?_, ?_⟩
  · intro path segments hparse
    have hreadable := (parse_eq_ok_iff.1 hparse).readable
    refine ⟨hreadable.parse_render, ?_⟩
    intro s hs
    have hs := hreadable.each s hs
    refine ⟨fun hmem => (hs.marks '.' hmem).1 rfl, fun hmem => (hs.marks '[' hmem).2 rfl, ?_⟩
    intro hnil
    exact Option.isSome_iff_ne_none.2 fun hnone => (hs.bare hnone).1 hnil
  · intro segments hwellFormed
    exact (readable_of_wellFormed hwellFormed).parse_render

/-- An index written with blanks, a sign and zeros, no point in front of it, a closing bracket in
a field, and blanks around a field that is not the last. -/
theorem paths_normalised_blanks :
    let path := "\t$[ +007\u00a0].a]b[0]. user name .x\n".toList
    let segments : List Segment :=
      [⟨[], some 7⟩, ⟨"a]b".toList, some 0⟩, ⟨" user name ".toList, none⟩, ⟨['x'], none⟩]
    let others : List Segment :=
      [⟨[' ', '$', '\u00e9'], some 18446744073709551615⟩, ⟨[], some 10⟩, ⟨['"'], none⟩]
    parse path = .ok segments ∧
      render segments = "$.[7].a]b[0]. user name .x".toList ∧
      parse (render segments) = .ok segments ∧
      (∀ s ∈ segments, '.' ∉ s.field ∧ '[' ∉ s.field ∧ (s.field = [] → s.index.isSome)) ∧
      (∀ s ∈ others, s.WellFormed) ∧ parse (render others) = .ok others := by
  intro path segments others
  obtain ⟨-, hread, hwritten⟩ := paths_normalised
  have hparse : parse path = .ok segments := by decide +kernel
  obtain ⟨hagain, hfields⟩ := hread path segments hparse
  have hwellFormed : ∀ s ∈ others, s.WellFormed := by
    rw [List.forall_mem_cons, List.forall_mem_cons, List.forall_mem_singleton]
    refine ⟨⟨by simp, ?_, ?_, by simp⟩, ⟨by simp, ?_, ?_, by simp⟩, by simp, ?_, ?_, by simp⟩
    all_goals rintro x ⟨⟩
    all_goals decide
  exact ⟨hparse, by decide +kernel, hagain, hfields, hwellFormed, hwritten others hwellFormed⟩

end Stencil.JsonPath
