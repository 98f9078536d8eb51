import Stencil.Text.Blank
import Stencil.Text.Spans

/-!
# Templates

A template is a text with placeholders: two opening braces, an expression of at least one
character that stays on its line, and the first two closing braces behind it. The placeholders of
a text are the leftmost ones that do not overlap. `unresolved` lists the expressions of those that
a text still holds.
-/

namespace Stencil.Template

open Stencil.Text

/-- The text in front of the first two closing braces, if no line ends before them. -/
def untilClose : List Char → Option (List Char)
  | [] => none
  | c :: r =>
    if c = '\n' then none
    else if c = '}' ∧ r.head? = some '}' then some []
    else (untilClose r).map (c :: ·)

/-- The inner text of the placeholder that begins a text. The first character of the inner text
may be a closing brace. -/
def inner? : List Char → Option (List Char)
  | '{' :: '{' :: c :: r => if c = '\n' then none else (untilClose r).map (c :: ·)
  | _ => none

/-- The text of a placeholder: its inner text between double braces. -/
def write (inner : List Char) : List Char := '{' :: '{' :: inner ++ ['}', '}']

/-- What `untilClose` gives stands in front of two closing braces. -/
theorem eq_append_of_untilClose {cs inner : List Char} (h : untilClose cs = some inner) :
    ∃ rest, cs = inner ++ '}' :: '}' :: rest := by
  induction cs generalizing inner with
  | nil => simp [untilClose] at h
  | cons c r ih =>
    unfold untilClose at h
    split at h
    · simp at h
    · split at h
      next hc =>
        obtain ⟨rfl, hr⟩ := hc
        obtain rfl := Option.some.inj h
        cases r with
        | nil => simp at hr
        | cons d r => simp at hr; exact ⟨r, by simp [hr]⟩
      next =>
        obtain ⟨i, hi, rfl⟩ := Option.map_eq_some_iff.1 h
        obtain ⟨rest, hrest⟩ := ih hi
        exact ⟨rest, by simp [hrest]⟩

/-- A placeholder that is recognised stands in the text. -/
theorem eq_append_of_inner? {cs inner : List Char} (h : inner? cs = some inner) :
    ∃ rest, cs = write inner ++ rest := by
  unfold inner? at h
  split at h
  next c r =>
    split at h
    · simp at h
    · obtain ⟨i, hi, rfl⟩ := Option.map_eq_some_iff.1 h
      obtain ⟨rest, hrest⟩ := eq_append_of_untilClose hi
      exact ⟨rest, by simp [write, hrest]⟩
  next => simp at h

/-- Placeholders, known by their inner text. -/
def marker : Marker (List Char) where
  find := inner?
  write := write
  find_sound := eq_append_of_inner?
  write_ne_nil := by simp [write]

/-- The expression of a placeholder: its inner text without blanks at the ends. -/
def expression (inner : List Char) : String := String.ofList (trim inner)

/-- The pieces of a template. -/
def pieces (text : String) : List (Piece (List Char)) := marker.pieces text.toList

/-- The expressions of all placeholders in a text, in order and with repetitions. -/
def unresolved (text : String) : List String :=
  (marker.spans text.toList).map expression

end Stencil.Template
