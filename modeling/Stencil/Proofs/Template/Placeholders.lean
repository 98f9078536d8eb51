import Stencil.Template
import Stencil.Text.Search

/-!
# Placeholders in a text

Which placeholders a text holds, said of its parts. A text without two opening braces in a row
holds none (`pieces_of_not_occurs`). A placeholder that was read once is read in front of every
text (`Readable`), so a text in which one stands holds some placeholder, whatever stands around
it (`unresolved_ne_nil`).
-/

namespace Stencil.Template

open Stencil.Text

/-! ## Pieces and expressions -/

/-- The spans of a text are the spans among its pieces. -/
theorem mem_spans {cs inner : List Char} :
    inner ∈ marker.spans cs ↔ .span inner ∈ marker.pieces cs := by
  simp only [Marker.spans, List.mem_filterMap]
  constructor
  · rintro ⟨piece, hmem, hpiece⟩
    cases piece with
    | char c => simp at hpiece
    | span a =>
        simp only [Option.some.injEq] at hpiece
        exact hpiece ▸ hmem
  · intro hmem
    exact ⟨.span inner, hmem, rfl⟩

/-- The expressions of a text are those of the spans among its pieces. -/
theorem mem_unresolved {text e : String} :
    e ∈ unresolved text ↔ ∃ inner, .span inner ∈ pieces text ∧ expression inner = e := by
  simp only [unresolved, List.mem_map, mem_spans]
  rfl

/-! ## Texts without double braces -/

/-- A placeholder begins with two opening braces. -/
theorem startsWith_of_inner? {cs inner : List Char} (h : inner? cs = some inner) :
    startsWith ['{', '{'] cs = true := by
  obtain ⟨rest, rfl⟩ := eq_append_of_inner? h
  simp [startsWith, stripPrefix?, write]

/-- A text without two opening braces in a row consists of characters alone. -/
theorem pieces_of_not_occurs {cs : List Char} (h : occurs ['{', '{'] cs = false) :
    marker.pieces cs = cs.map .char := by
  induction cs with
  | nil => rfl
  | cons c cs ih =>
      rw [occurs_cons, Bool.or_eq_false_iff] at h
      obtain ⟨hstart, hrest⟩ := h
      have hnone : marker.find (c :: cs) = none := by
        cases hf : marker.find (c :: cs) with
        | none => rfl
        | some inner =>
            rw [startsWith_of_inner? hf] at hstart
            exact absurd hstart (by simp)
      rw [Marker.pieces_cons _ hnone, ih hrest, List.map_cons]

/-- A text without two opening braces in a row holds no placeholder. -/
theorem unresolved_of_not_occurs {text : String} (h : occurs ['{', '{'] text.toList = false) :
    unresolved text = [] := by
  have hspans : marker.spans text.toList = [] := by
    rw [List.eq_nil_iff_forall_not_mem]
    intro inner hmem
    rw [mem_spans, pieces_of_not_occurs h] at hmem
    simp at hmem
  rw [unresolved, hspans, List.map_nil]

/-! ## Placeholders that are read back -/

/-- An inner text that is read back in front of every text. -/
def Readable (inner : List Char) : Prop :=
  ∀ rest, inner? (write inner ++ rest) = some inner

/-- What stands behind the first two closing braces does not matter. -/
theorem untilClose_append {inner rest : List Char}
    (h : untilClose (inner ++ '}' :: '}' :: rest) = some inner) (rest' : List Char) :
    untilClose (inner ++ '}' :: '}' :: rest') = some inner := by
  induction inner with
  | nil => simp [untilClose]
  | cons c inner ih =>
      rw [List.cons_append, untilClose] at h ⊢
      split at h
      · cases h
      next hc =>
        split at h
        · cases h
        next hclose =>
          obtain ⟨i, hi, hcons⟩ := Option.map_eq_some_iff.1 h
          obtain rfl : i = inner := (List.cons.inj hcons).2
          -- the head of what follows is the same with either rest
          have hhead : (i ++ '}' :: '}' :: rest').head? = (i ++ '}' :: '}' :: rest).head? := by
            cases i <;> rfl
          rw [if_neg hc, hhead, if_neg hclose, ih hi]
          rfl

/-- A placeholder that was read once is read in front of every text. -/
theorem readable_of_inner? {cs inner : List Char} (h : inner? cs = some inner) :
    Readable inner := by
  intro rest'
  obtain ⟨rest, rfl⟩ := eq_append_of_inner? h
  cases inner with
  | nil =>
      -- the first inner character is taken as it is, so no inner text is empty
      exfalso
      simp only [write, List.nil_append, List.cons_append, inner?] at h
      split at h
      · cases h
      · obtain ⟨i, -, hi⟩ := Option.map_eq_some_iff.1 h
        cases hi
  | cons c inner =>
      simp only [write, List.cons_append, List.append_assoc, List.nil_append, inner?] at h ⊢
      split at h
      · cases h
      next hc =>
        obtain ⟨i, hi, hcons⟩ := Option.map_eq_some_iff.1 h
        obtain rfl : i = inner := (List.cons.inj hcons).2
        rw [if_neg hc, untilClose_append hi rest']
        rfl

/-- The text of a readable placeholder is this placeholder and nothing else. -/
theorem pieces_write {inner : List Char} (h : Readable inner) :
    pieces (String.ofList (write inner)) = [.span inner] := by
  have hfind : marker.find (write inner) = some inner := by
    have hread := h []
    rw [List.append_nil] at hread
    exact hread
  have hrest : write inner = marker.write inner ++ [] := (List.append_nil _).symm
  rw [pieces, String.toList_ofList, Marker.pieces_of_find _ hfind hrest, Marker.pieces_nil]

theorem unresolved_write {inner : List Char} (h : Readable inner) :
    unresolved (String.ofList (write inner)) = [expression inner] := by
  have hpieces := pieces_write h
  rw [pieces] at hpieces
  rw [unresolved, Marker.spans, hpieces]
  rfl

/-- The spans of a text are readable. -/
theorem readable_of_mem_pieces {cs inner : List Char} (h : .span inner ∈ marker.pieces cs) :
    Readable inner := by
  induction hn : cs.length using Nat.strongRecOn generalizing cs with
  | _ n ih =>
    cases cs with
    | nil => simp at h
    | cons c cs =>
      cases hf : marker.find (c :: cs) with
      | none =>
        rw [Marker.pieces_cons _ hf, List.mem_cons] at h
        rcases h with h | h
        · cases h
        · exact ih cs.length (by simp [← hn]) h rfl
      | some a =>
        obtain ⟨rest, hrest⟩ := marker.find_sound hf
        rw [Marker.pieces_of_find _ hf hrest, List.mem_cons] at h
        rcases h with h | h
        · cases h
          exact readable_of_inner? hf
        · have hpos := List.length_pos_iff.2 (marker.write_ne_nil a)
          have hlen := congrArg List.length hrest
          rw [List.length_append] at hlen
          exact ih rest.length (by omega) h rfl

/-- Around a readable placeholder every text holds some placeholder. -/
theorem spans_ne_nil {inner : List Char} (h : Readable inner) (before after : List Char) :
    marker.spans (before ++ (write inner ++ after)) ≠ [] := by
  induction before with
  | nil =>
      have hfind : marker.find (write inner ++ after) = some inner := h after
      rw [List.nil_append, Marker.spans, Marker.pieces_of_find _ hfind rfl]
      simp
  | cons c before ih =>
      cases hf : marker.find (c :: before ++ (write inner ++ after)) with
      | some a =>
          -- a placeholder begins further left and swallows part of this one
          obtain ⟨rest, hrest⟩ := marker.find_sound hf
          rw [Marker.spans, Marker.pieces_of_find _ hf hrest]
          simp
      | none =>
          rw [List.cons_append] at hf ⊢
          rw [Marker.spans, Marker.pieces_cons _ hf]
          simpa [Marker.spans] using ih

/-- A text in which a readable placeholder stands holds some placeholder. -/
theorem unresolved_ne_nil {inner before after : List Char} {text : String} (h : Readable inner)
    (htext : text.toList = before ++ (write inner ++ after)) : unresolved text ≠ [] := by
  rw [unresolved, htext]
  intro hnil
  exact spans_ne_nil h before after (List.map_eq_nil_iff.1 hnil)

end Stencil.Template
