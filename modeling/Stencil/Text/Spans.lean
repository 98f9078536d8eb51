/-!
# Marked spans of a text

A `Marker` recognises spans that begin at a given place. `Marker.pieces` reads a text from left to
right: where a span begins, the whole span becomes one piece, and elsewhere one character does.
So the spans it finds are the leftmost ones and do not overlap. The main statements are that the
pieces, written out, are the text (`write_pieces`), how the pieces begin (`pieces_of_find`,
`pieces_cons`), and that a text may be cut where no span crosses the cut
(`pieces_append_of_stop`).
-/

namespace Stencil.Text

/-- Spans of a text that carry an `α`: how one is recognised at the front of a text, and how it is
written there. -/
structure Marker (α : Type) where
  /-- The span that begins the text, if there is one. -/
  find : List Char → Option α
  /-- The text of a span. -/
  write : α → List Char
  /-- A span that is found stands in the text. -/
  find_sound : ∀ {cs a}, find cs = some a → ∃ rest, cs = write a ++ rest
  /-- A span is never empty. -/
  write_ne_nil : ∀ a, write a ≠ []

/-- A part of a text: a span, or a character outside all spans. -/
inductive Piece (α : Type) where
  | char (c : Char)
  | span (a : α)
  deriving Repr, DecidableEq

namespace Marker

variable {α : Type} (m : Marker α)

/-- The text of a piece. -/
def writePiece : Piece α → List Char
  | .char c => [c]
  | .span a => m.write a

/-- The pieces of a text whose first `skip` characters belong to a span already taken. -/
def scan : (skip : Nat) → List Char → List (Piece α)
  | _, [] => []
  | skip + 1, _ :: cs => scan skip cs
  | 0, c :: cs =>
    match m.find (c :: cs) with
    | some a => .span a :: scan ((m.write a).length - 1) cs
    | none => .char c :: scan 0 cs

/-- The pieces of a text from left to right. -/
def pieces (cs : List Char) : List (Piece α) := m.scan 0 cs

/-- The spans of a text from left to right. -/
def spans (cs : List Char) : List α :=
  (m.pieces cs).filterMap fun
    | .char _ => none
    | .span a => some a

/-- Characters that belong to a span already taken are passed over. -/
theorem scan_append (front cs : List Char) : m.scan front.length (front ++ cs) = m.scan 0 cs := by
  induction front with
  | nil => rfl
  | cons c front ih => simpa [scan] using ih

@[simp] theorem pieces_nil : m.pieces [] = [] := rfl

/-- Where a span begins, it is the first piece, and the others are those of what follows it. -/
theorem pieces_of_find {cs rest : List Char} {a : α} (h : m.find cs = some a)
    (hcs : cs = m.write a ++ rest) : m.pieces cs = .span a :: m.pieces rest := by
  cases hw : m.write a with
  | nil => exact absurd hw (m.write_ne_nil a)
  | cons c w =>
    rw [hw] at hcs
    subst hcs
    simp only [pieces, List.cons_append, scan]
    rw [show m.find (c :: (w ++ rest)) = some a from h]
    simp [hw, scan_append]

/-- Where no span begins, the first piece is a character. -/
theorem pieces_cons {c : Char} {cs : List Char} (h : m.find (c :: cs) = none) :
    m.pieces (c :: cs) = .char c :: m.pieces cs := by
  simp [pieces, scan, h]

/-- A text is read piece by piece: what holds of the empty text, and of a text if it holds of what
follows its first piece, holds of every text. -/
theorem pieces_induction {motive : List Char → Prop} (nil : motive [])
    (char : ∀ c cs, m.find (c :: cs) = none → motive cs → motive (c :: cs))
    (span : ∀ a rest, m.find (m.write a ++ rest) = some a → motive rest →
      motive (m.write a ++ rest))
    (cs : List Char) : motive cs := by
  induction hn : cs.length using Nat.strongRecOn generalizing cs with
  | _ n ih =>
    cases cs with
    | nil => exact nil
    | cons c cs =>
      cases hf : m.find (c :: cs) with
      | none => exact char c cs hf (ih cs.length (by simp [← hn]) cs rfl)
      | some a =>
        obtain ⟨rest, hrest⟩ := m.find_sound hf
        have hlen : rest.length < n := by
          have := congrArg List.length hrest
          have hpos := List.length_pos_iff.2 (m.write_ne_nil a)
          simp only [List.length_append] at this
          omega
        rw [hrest] at hf ⊢
        exact span a rest hf (ih rest.length hlen rest rfl)

/-- The pieces of a text, written one after the other, are the text. -/
theorem write_pieces (cs : List Char) : (m.pieces cs).flatMap m.writePiece = cs := by
  induction cs using m.pieces_induction with
  | nil => rfl
  | char c cs hf ih =>
    rw [m.pieces_cons hf, List.flatMap_cons, ih]
    rfl
  | span a rest hf ih =>
    rw [m.pieces_of_find hf rfl, List.flatMap_cons, ih]
    rfl

/-- A span among the pieces of a text is found somewhere in it. -/
theorem exists_find_of_mem_pieces {cs : List Char} {a : α} (h : .span a ∈ m.pieces cs) :
    ∃ tail, m.find tail = some a := by
  induction cs using m.pieces_induction with
  | nil => cases h
  | char c cs hf ih =>
    rw [m.pieces_cons hf] at h
    exact ih (by simpa using h)
  | span b rest hf ih =>
    rw [m.pieces_of_find hf rfl] at h
    rcases List.mem_cons.1 h with h | h
    · cases h
      exact ⟨_, hf⟩
    · exact ih h

/-- Where the search for a span stops at a character, the text may be cut there. -/
theorem pieces_append_of_stop {d : Char}
    (hstop : ∀ cs rest, m.find (cs ++ d :: rest) = m.find cs) (a b : List Char) :
    m.pieces (a ++ d :: b) = m.pieces a ++ .char d :: m.pieces b := by
  induction a using m.pieces_induction with
  | nil =>
    have hnone : m.find (d :: b) = none := by
      rw [← List.nil_append (d :: b), hstop]
      cases hf : m.find [] with
      | none => rfl
      | some a =>
        obtain ⟨rest, hrest⟩ := m.find_sound hf
        exact absurd (List.append_eq_nil_iff.1 hrest.symm).1 (m.write_ne_nil a)
    rw [List.nil_append, m.pieces_cons hnone]
    rfl
  | char c cs hf ih =>
    have hsame : m.find (c :: (cs ++ d :: b)) = none := (hstop (c :: cs) b).trans hf
    rw [List.cons_append, m.pieces_cons hsame, m.pieces_cons hf, ih, List.cons_append]
  | span s rest hf ih =>
    have hsame : m.find (m.write s ++ (rest ++ d :: b)) = some s := by
      rw [← List.append_assoc, hstop, hf]
    rw [List.append_assoc, m.pieces_of_find hsame rfl, m.pieces_of_find hf rfl, ih,
      List.cons_append]

end Marker

end Stencil.Text
