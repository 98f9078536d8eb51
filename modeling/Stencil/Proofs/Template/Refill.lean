import Stencil.Proofs.Template.Leftmost

/-!
# Scanning a text whose placeholders were filled in

Some placeholders of a text are replaced by values and the others are left. The main statement is
that exactly those that were left are found in the new text, in order, as long as no value holds an
opening brace (`Refills.spans_eq`). It is decided by what can stand between two placeholders. A
gap in front of a placeholder does not end in an opening brace, for the placeholder would begin one
character further left; and two opening braces in a gap are followed by the end of the line before
the next placeholder, for they would be the beginning of one that ends where the next one ends. So
whatever takes the place of the placeholders, nothing begins in a gap.
-/

namespace Stencil.Template

open Stencil.Text

/-- Of the pieces of a text, some placeholders are replaced by values without an opening brace,
and the others are left. The second list is the new text, the third the placeholders that were
left. -/
inductive Refills : List (Piece (List Char)) → List Char → List (List Char) → Prop
  | nil : Refills [] [] []
  | char {c ps out left} : Refills ps out left → Refills (.char c :: ps) (c :: out) left
  | left {inner ps out left} : Refills ps out left →
      Refills (.span inner :: ps) (write inner ++ out) (inner :: left)
  | value {inner v ps out left} : '{' ∉ v → Refills ps out left →
      Refills (.span inner :: ps) (v ++ out) left

/-! ## How the pieces of a text begin -/

theorem of_pieces_eq_char {text : List Char} {c : Char} {ps : List (Piece (List Char))}
    (h : marker.pieces text = .char c :: ps) :
    ∃ cs, text = c :: cs ∧ inner? (c :: cs) = none ∧ marker.pieces cs = ps := by
  cases text with
  | nil => cases h
  | cons d cs =>
      cases hf : marker.find (d :: cs) with
      | none =>
          rw [marker.pieces_cons hf] at h
          obtain ⟨⟨⟩, htail⟩ := List.cons.inj h
          exact ⟨cs, rfl, hf, htail⟩
      | some inner =>
          obtain ⟨rest, hrest⟩ := marker.find_sound hf
          rw [marker.pieces_of_find hf hrest] at h
          cases h

theorem of_pieces_eq_span {text inner : List Char} {ps : List (Piece (List Char))}
    (h : marker.pieces text = .span inner :: ps) :
    ∃ rest, text = write inner ++ rest ∧ inner? text = some inner ∧ marker.pieces rest = ps := by
  cases text with
  | nil => cases h
  | cons d cs =>
      cases hf : marker.find (d :: cs) with
      | none =>
          rw [marker.pieces_cons hf] at h
          cases h
      | some a =>
          obtain ⟨rest, hrest⟩ := marker.find_sound hf
          rw [marker.pieces_of_find hf hrest] at h
          obtain ⟨⟨⟩, htail⟩ := List.cons.inj h
          exact ⟨rest, hrest, hf, htail⟩

theorem of_pieces_eq_nil {text : List Char} (h : marker.pieces text = []) : text = [] := by
  have hwrite := marker.write_pieces text
  rw [h] at hwrite
  exact hwrite.symm

/-! ## Gaps -/

/-- Behind two opening braces, a placeholder on the same line closes them. -/
theorem untilClose_write_ne_none {inner : List Char} (h : Inner inner) (rest : List Char) :
    untilClose (write inner ++ rest) ≠ none := by
  have hline : '\n' ∉ '{' :: '{' :: inner := by simpa using h.one_line
  obtain ⟨i, hi, -⟩ := untilClose_le hline rest
  have heq : write inner ++ rest = '{' :: '{' :: inner ++ '}' :: '}' :: rest := by simp [write]
  rw [heq, hi]
  simp

theorem Inner.brace {inner : List Char} (h : Inner inner) : Inner ('{' :: inner) :=
  ⟨by simp, by simpa using h.one_line⟩

/-- An opening brace in front of a placeholder begins one. -/
theorem inner?_write_ne_none {inner : List Char} (h : Inner inner) (rest : List Char) :
    inner? ('{' :: (write inner ++ rest)) ≠ none := fun hnone =>
  absurd (by simp [write]) (not_append_of_inner?_eq_none hnone h.brace rest)

/-- What closes no placeholder closes none after the placeholders in it are refilled, for there is
none before the end of the line. -/
theorem Refills.untilClose_eq_none {ps : List (Piece (List Char))} {out : List Char}
    {left : List (List Char)} (h : Refills ps out left) {text : List Char}
    (hps : marker.pieces text = ps) (hnone : untilClose text = none) : untilClose out = none := by
  induction h generalizing text with
  | nil => rfl
  | @char c ps out left h ih =>
      obtain ⟨cs, rfl, -, hcs⟩ := of_pieces_eq_char hps
      rw [untilClose] at hnone ⊢
      split at hnone
      next hc => rw [if_pos hc]
      next hc =>
        split at hnone
        · cases hnone
        next hclose =>
          rw [Option.map_eq_none_iff] at hnone
          have hhead : out.head? = cs.head? := by
            cases h with
            | nil => rw [of_pieces_eq_nil hcs]
            | char _ =>
                obtain ⟨cs', rfl, -, -⟩ := of_pieces_eq_char hcs
                rfl
            | left _ =>
                obtain ⟨rest, rfl, -, -⟩ := of_pieces_eq_span hcs
                rfl
            | value _ _ =>
                obtain ⟨rest, rfl, hinner, -⟩ := of_pieces_eq_span hcs
                exact absurd hnone (untilClose_write_ne_none (inner_of_inner? hinner) rest)
          rw [if_neg hc, hhead, if_neg hclose, ih hcs hnone]
          rfl
  | left _ _ =>
      obtain ⟨rest, rfl, hinner, -⟩ := of_pieces_eq_span hps
      exact absurd hnone (untilClose_write_ne_none (inner_of_inner? hinner) rest)
  | value _ _ _ =>
      obtain ⟨rest, rfl, hinner, -⟩ := of_pieces_eq_span hps
      exact absurd hnone (untilClose_write_ne_none (inner_of_inner? hinner) rest)

/-- Where no placeholder begins, none begins after those behind it are refilled. -/
theorem Refills.inner?_eq_none {ps : List (Piece (List Char))} {out : List Char}
    {left : List (List Char)} (h : Refills ps out left) {c : Char} {text : List Char}
    (hps : marker.pieces text = ps) (hnone : inner? (c :: text) = none) :
    inner? (c :: out) = none := by
  by_cases hc : c = '{'
  · subst hc
    cases h with
    | nil => rfl
    | left _ =>
        obtain ⟨rest, rfl, hinner, -⟩ := of_pieces_eq_span hps
        exact absurd hnone (inner?_write_ne_none (inner_of_inner? hinner) rest)
    | value _ _ =>
        obtain ⟨rest, rfl, hinner, -⟩ := of_pieces_eq_span hps
        exact absurd hnone (inner?_write_ne_none (inner_of_inner? hinner) rest)
    | @char d ps out left h =>
        obtain ⟨cs, rfl, -, hcs⟩ := of_pieces_eq_char hps
        by_cases hd : d = '{'
        · subst hd
          cases h with
          | nil => rfl
          | left _ =>
              obtain ⟨rest, rfl, hinner, -⟩ := of_pieces_eq_span hcs
              have hbrace := (inner_of_inner? hinner).brace.brace
              exact absurd (by simp [write]) (not_append_of_inner?_eq_none hnone hbrace rest)
          | value _ _ =>
              obtain ⟨rest, rfl, hinner, -⟩ := of_pieces_eq_span hcs
              have hbrace := (inner_of_inner? hinner).brace.brace
              exact absurd (by simp [write]) (not_append_of_inner?_eq_none hnone hbrace rest)
          | char h =>
              -- the first inner character is there, and what follows it closes nothing
              obtain ⟨cs', rfl, -, hcs'⟩ := of_pieces_eq_char hcs
              rw [inner?] at hnone ⊢
              split at hnone
              next hline => rw [if_pos hline]
              next hline =>
                rw [Option.map_eq_none_iff] at hnone
                rw [if_neg hline, h.untilClose_eq_none hcs' hnone]
                rfl
        · simp [inner?, hd]
  · simp [inner?, hc]

/-! ## The new text -/

theorem spans_cons {c : Char} {cs : List Char} (h : inner? (c :: cs) = none) :
    marker.spans (c :: cs) = marker.spans cs := by
  rw [Marker.spans, marker.pieces_cons h]
  rfl

theorem spans_append_of_not_mem {v : List Char} (h : '{' ∉ v) (cs : List Char) :
    marker.spans (v ++ cs) = marker.spans cs := by
  induction v with
  | nil => rfl
  | cons c v ih =>
      rw [List.mem_cons, not_or] at h
      have hnone : inner? (c :: (v ++ cs)) = none := by simp [inner?, Ne.symm h.1]
      rw [List.cons_append, spans_cons hnone, ih h.2]

theorem spans_write_append {inner : List Char} (h : Readable inner) (cs : List Char) :
    marker.spans (write inner ++ cs) = inner :: marker.spans cs := by
  have hfind : marker.find (write inner ++ cs) = some inner := h cs
  rw [Marker.spans, marker.pieces_of_find hfind rfl]
  rfl

/-- In the new text exactly the placeholders that were left are found. -/
theorem Refills.spans_eq {text out : List Char} {left : List (List Char)}
    (h : Refills (marker.pieces text) out left) : marker.spans out = left := by
  generalize hps : marker.pieces text = ps at h
  induction h generalizing text with
  | nil => rfl
  | char h ih =>
      obtain ⟨cs, rfl, hnone, hcs⟩ := of_pieces_eq_char hps
      rw [spans_cons (h.inner?_eq_none hcs hnone), ih hcs]
  | left _ ih =>
      obtain ⟨rest, rfl, hinner, hrest⟩ := of_pieces_eq_span hps
      rw [spans_write_append (readable_of_inner? hinner), ih hrest]
  | value hv _ ih =>
      obtain ⟨rest, rfl, -, hrest⟩ := of_pieces_eq_span hps
      rw [spans_append_of_not_mem hv, ih hrest]

end Stencil.Template
