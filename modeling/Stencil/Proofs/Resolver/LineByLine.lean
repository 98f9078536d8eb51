import Stencil.Proofs.Resolver.Containment

/-!
# Line by line

A placeholder stays on its line, so a text may be cut at any of its line ends: no placeholder
crosses the cut, and none begins or ends elsewhere because of it (`pieces_append_newline`).
Processing the parts one after the other on one resolver then gives what processing the whole text
gives, with the same questions and draws in the same order, and leaves the same resolver behind
(`process_line_by_line`).
-/

namespace Stencil

open Text

/-! ## Scanning -/

namespace Template

theorem untilClose_append_newline (cs rest : List Char) :
    untilClose (cs ++ '\n' :: rest) = untilClose cs := by
  induction cs with
  | nil => simp [untilClose]
  | cons c cs ih =>
      -- a closing brace at the end of the line is not followed by another one
      have hhead : (cs ++ '\n' :: rest).head? = some '}' ↔ cs.head? = some '}' := by
        cases cs <;> simp
      simp only [List.cons_append, untilClose, hhead, ih]

theorem inner?_append_newline (cs rest : List Char) :
    inner? (cs ++ '\n' :: rest) = inner? cs := by
  match cs with
  | [] => simp [inner?]
  | [c] => simp [inner?]
  | [c, d] =>
      -- behind two opening braces the line end is no first inner character
      unfold inner?
      split
      next heq =>
        obtain ⟨-, -, rfl, -⟩ : c = '{' ∧ d = '{' ∧ '\n' = _ ∧ rest = _ := by simpa using heq
        simp
      next => simp
  | c :: d :: e :: cs =>
      by_cases hopen : c = '{' ∧ d = '{'
      · obtain ⟨rfl, rfl⟩ := hopen
        simp only [List.cons_append, inner?, untilClose_append_newline]
      · have hnone : ∀ text, inner? (c :: d :: text) = none := by
          intro text
          unfold inner?
          split
          next heq => simp_all
          next => rfl
        rw [hnone, List.cons_append, List.cons_append, hnone]

theorem pieces_append_newline (a b : List Char) :
    marker.pieces (a ++ '\n' :: b) = marker.pieces a ++ .char '\n' :: marker.pieces b :=
  marker.pieces_append_of_stop inner?_append_newline a b

end Template

/-! ## Processing -/

namespace Resolver

/-- Processes texts one after the other. -/
def processEach (s : Surroundings) : List String → Resolver × Journal →
    List String × Resolver × Journal
  | [], p => ([], p)
  | text :: rest, (r, journal) =>
    let (out, p) := r.process s text journal
    let (outs, p) := processEach s rest p
    (out :: outs, p)

theorem process_append_newline (r : Resolver) (s : Surroundings) (a b : String)
    (journal : Journal) :
    r.process s (a ++ "\n" ++ b) journal =
      let first := r.process s a journal
      let second := first.2.1.process s b first.2.2
      (first.1 ++ "\n" ++ second.1, second.2) := by
  have hpieces : Template.pieces (a ++ "\n" ++ b) =
      Template.pieces a ++ .char '\n' :: Template.pieces b := by
    have htext : (a ++ "\n" ++ b).toList = a.toList ++ '\n' :: b.toList := by
      simp [String.toList_append]
    rw [Template.pieces, htext, Template.pieces_append_newline]
    rfl
  simp only [process, hpieces, expand_append, expand]
  congr 1
  rw [← String.toList_inj]
  simp

theorem processEach_cons (s : Surroundings) (text : String) (rest : List String)
    (p : Resolver × Journal) :
    processEach s (text :: rest) p =
      ((p.1.process s text p.2).1 :: (processEach s rest (p.1.process s text p.2).2).1,
        (processEach s rest (p.1.process s text p.2).2).2) := rfl

/-- A text is processed as its parts before and behind any of its line ends are, one after the
other on one resolver: the new text, the values that are kept and the journal are the same. So a
text may be processed line by line. -/
theorem process_line_by_line (r : Resolver) (s : Surroundings) (journal : Journal) :
    (∀ a b : String,
      let first := r.process s a journal
      let second := first.2.1.process s b first.2.2
      r.process s (a ++ "\n" ++ b) journal = (first.1 ++ "\n" ++ second.1, second.2)) ∧
    ∀ (line : String) (lines : List String),
      let each := processEach s (line :: lines) (r, journal)
      r.process s ("\n".intercalate (line :: lines)) journal =
        ("\n".intercalate each.1, each.2) := by
  refine ⟨fun a b => process_append_newline r s a b journal, ?_⟩
  intro line lines
  induction lines generalizing line r journal with
  | nil => simp only [processEach, String.intercalate_singleton]
  | cons next lines ih =>
      -- the first line is cut off, and the others are processed with what it leaves behind
      rw [String.intercalate_cons_cons, process_append_newline]
      simp only [ih, processEach_cons, String.intercalate_cons_cons]

end Resolver

end Stencil
