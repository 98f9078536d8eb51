import Stencil.Proofs.Resolver.Containment
import Stencil.Proofs.Template.Refill

/-!
# The report of unresolved placeholders

Where no value that is put into a text holds an opening brace, the placeholders that are found in
the result are exactly those of the text whose expressions failed, in order and with repetitions
(`unresolved_eq_failed`). What is put in creates no placeholder, with whatever stands around it,
and hides none.
-/

namespace Stencil.Resolver

open Text

/-- Inner texts with what they are resolved to, one after the other. -/
def answers (s : Surroundings) : Resolver × Journal → List (List Char) →
    List (List Char × Except LookupError String)
  | _, [] => []
  | (r, journal), inner :: rest =>
    let (result, p) := r.resolveExpression s (String.ofList inner) journal
    (inner, result) :: answers s p rest

/-- The inner texts that were resolved to errors. -/
def failed (answers : List (List Char × Except LookupError String)) : List (List Char) :=
  answers.filterMap fun
    | (inner, .error _) => some inner
    | (_, .ok _) => none

/-- The inner texts among the pieces of a text. -/
def inners : List (Piece (List Char)) → List (List Char)
  | [] => []
  | .char _ :: ps => inners ps
  | .span inner :: ps => inner :: inners ps

/-- No value among the answers holds an opening brace. -/
def Braceless (answers : List (List Char × Except LookupError String)) : Prop :=
  ∀ inner v, (inner, .ok v) ∈ answers → '{' ∉ v.toList

variable {s : Surroundings}

theorem spans_eq_inners (cs : List Char) :
    Template.marker.spans cs = inners (Template.marker.pieces cs) := by
  rw [Marker.spans]
  induction Template.marker.pieces cs with
  | nil => rfl
  | cons piece ps ih =>
      cases piece with
      | char c => exact ih
      | span inner => exact congrArg (inner :: ·) ih

theorem answers_cons {r : Resolver} {journal : Journal} {inner : List Char}
    {rest : List (List Char)} {result : Except LookupError String} {p : Resolver × Journal}
    (h : r.resolveExpression s (String.ofList inner) journal = (result, p)) :
    answers s (r, journal) (inner :: rest) = (inner, result) :: answers s p rest := by
  rw [answers, h]

theorem Braceless.tail {a : List Char × Except LookupError String}
    {rest : List (List Char × Except LookupError String)} (h : Braceless (a :: rest)) :
    Braceless rest :=
  fun inner v hmem => h inner v (List.mem_cons_of_mem _ hmem)

/-- Expanding the pieces of a text puts the values in and leaves the placeholders that failed. -/
theorem refills_expand (b : Bindings) (ps : List (Piece (List Char))) (st : State)
    (h : Braceless (answers s (⟨b, st.cache⟩, st.journal) (inners ps))) :
    Template.Refills ps (expand (resolveTop b s) ps st).1
      (failed (answers s (⟨b, st.cache⟩, st.journal) (inners ps))) := by
  induction ps generalizing st with
  | nil => exact .nil
  | cons piece rest ih =>
      cases piece with
      | char c => exact .char (ih st h)
      | span inner =>
          have hresolve := resolveExpression_eq ⟨b, st.cache⟩ s inner st.journal
          simp only [inners, answers_cons hresolve] at h ⊢
          rw [expand]
          revert h
          rcases resolveTop b s (Template.expression inner) st with ⟨err | v, st₁⟩
          · intro h
            exact .left (ih st₁ h.tail)
          · intro h
            exact .value (h inner v List.mem_cons_self) (ih st₁ h.tail)

/-- The placeholders found in the result are those of the text that failed. -/
theorem spans_process (r : Resolver) (text : String) (journal : Journal)
    (h : Braceless (answers s (r, journal) (Template.marker.spans text.toList))) :
    Template.marker.spans (r.process s text journal).1.toList =
      failed (answers s (r, journal) (Template.marker.spans text.toList)) := by
  rw [spans_eq_inners text.toList] at h ⊢
  have hrefills := refills_expand r.bindings (Template.pieces text) ⟨r.cache, journal⟩ h
  simp only [process, String.toList_ofList]
  exact hrefills.spans_eq

/-- Where no value that is put into a text holds an opening brace, the unresolved expressions of
the result are those of the placeholders of the text that failed, in order and with repetitions. -/
theorem unresolved_eq_failed (r : Resolver) (s : Surroundings) (text : String)
    (journal : Journal)
    (h : Braceless (answers s (r, journal) (Template.marker.spans text.toList))) :
    Template.unresolved (r.process s text journal).1 =
      (failed (answers s (r, journal) (Template.marker.spans text.toList))).map
        Template.expression := by
  rw [Template.unresolved, spans_process r text journal h]

theorem unresolved_eq_failed_stray_braces :
    let r : Resolver := ⟨.ofVariables [("a", ""), ("b", "1\x7d\n"), ("loop", "{{loop}}")], .empty⟩
    let text := "{x{{a}}{y}}{{ c }}\x7d{{b}}\x7b\x7b\n\x7b\x7b\x7d\x7d\x7d{{loop}}\x7d\x7d{{c}}{{$no}}\x7b\x7b"
    Braceless (answers .bare (r, []) (Template.marker.spans text.toList)) ∧
    Template.unresolved (r.process .bare text []).1 = ["c", "\x7d", "loop", "c", "$no"] := by
  intro r text
  have h : Braceless (answers .bare (r, []) (Template.marker.spans text.toList)) := by
    intro inner v hmem
    have hall : ((answers .bare (r, []) (Template.marker.spans text.toList)).all fun a =>
        a.2.toOption.all fun v => !v.toList.contains '{') = true := by decide +kernel
    simpa [Except.toOption] using List.all_eq_true.1 hall _ hmem
  refine ⟨h, ?_⟩
  rw [unresolved_eq_failed r .bare text [] h]
  decide +kernel

end Stencil.Resolver
