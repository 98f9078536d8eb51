import Stencil.Proofs.Resolver.History
import Stencil.Proofs.Resolver.Trap
import Stencil.Proofs.Template.Leftmost

/-!
# Failures stay where they are

Processing a text comes to an end with a text, whatever fails on the way. The rules of evaluation,
which pass an error of depth on at every depth but the top, allow one result at the top and no
error (`Evaluates.eq_process`). The result is the text in which one placeholder after the other,
each time the leftmost and shortest one, is replaced by what `resolveExpression` gives for its
inner text, or left as it is where there is an error (`Replaces`). An expression whose resolution
fails is not kept, at whatever depth, and what names stand for does not change
(`failures_contained`).
-/

namespace Stencil.Resolver

open Text

variable {b : Bindings} {s : Surroundings}

/-! ## The rules allow one result -/

mutual

/-- What the rules allow for an expression is what the resolver does. -/
theorem Resolves.eq_resolveWith {room d : Nat} (hroom : d + room = depthLimit) {e : String}
    {st st' : State} {r : Except LookupError String} {tr : Trace} :
    Resolves b s d e st r st' tr → resolveWith b s (nested b s room) e st = (r, st')
  | .kept he => by simp only [resolveWith, he]
  | .answered he htemplate hanswer => by
      rw [resolveWith_of_not_kept he, lookup_of_leaf htemplate, hanswer]
      rfl
  | .refused he htemplate hanswer => by
      rw [resolveWith_of_not_kept he, lookup_of_leaf htemplate, hanswer]
      rfl
  | .named he htemplate h => by
      rw [resolveWith_of_not_kept he, lookup_of_template htemplate,
        h.eq_nested (Nat.succ_pos d) (by omega)]
      rfl
  | .abandoned he htemplate h => by
      rw [resolveWith_of_not_kept he, lookup_of_template htemplate,
        h.eq_nested (Nat.succ_pos d) (by omega)]
      rfl

theorem Evaluates.eq_nested {room d : Nat} (hd : 0 < d) (hroom : d + room = depthLimit + 1)
    {text : String} {st st' : State} {r : Except LookupError String} {tr : Trace} :
    Evaluates b s d text st r st' tr → nested b s room text st = (r, st')
  | .verbatim hocc => by
      cases room with
      | zero => simp [nested, hocc]
      | succ room =>
          simp only [nested, Template.pieces, Template.pieces_of_not_occurs hocc,
            expandNested_chars, String.ofList_toList]
  | .tooDeep hocc hdeep => by
      obtain rfl : room = 0 := by omega
      simp [nested, hocc]
  | .filled (r := r) hocc hle h => by
      obtain ⟨k, rfl⟩ : ∃ k, room = k + 1 := ⟨room - 1, by omega⟩
      rw [nested, h.eq_expandNested hd (by omega)]
      cases r with
      | ok cs => rfl
      | error err => rfl

theorem Expands.eq_expandNested {room d : Nat} (hd : 0 < d) (hroom : d + room = depthLimit)
    {ps : List (Piece (List Char))} {st st' : State} {r : Except LookupError (List Char)}
    {tr : Trace} : Expands b s d ps st r st' tr →
    expandNested (resolveWith b s (nested b s room)) ps st = (r, st')
  | .nil => rfl
  | .char h => by rw [expandNested, h.eq_expandNested hd hroom, prepend_eq]; rfl
  | .value h₁ h₂ => by
      rw [expandNested, h₁.eq_resolveWith hroom]
      simp only [h₂.eq_expandNested hd hroom, prepend_eq]
  | .left h₁ hleft h₂ => by
      rw [expandNested, h₁.eq_resolveWith hroom]
      have hshallow := hleft.resolve_left (Nat.pos_iff_ne_zero.1 hd)
      split
      next heq => cases heq
      next heq =>
        obtain ⟨⟨⟩, rfl⟩ := Prod.mk.inj heq
        cases hshallow
      next heq =>
        obtain ⟨-, rfl⟩ := Prod.mk.inj heq
        rw [h₂.eq_expandNested hd hroom, prepend_eq]
  | .aborted h₁ _ herr => by
      rw [expandNested, h₁.eq_resolveWith hroom]
      obtain ⟨text, rfl⟩ := LookupError.tooDeep_iff.1 herr
      rfl

end

theorem Resolves.eq_resolveTop {e : String} {st st' : State} {r : Except LookupError String}
    {tr : Trace} (h : Resolves b s 0 e st r st' tr) : resolveTop b s e st = (r, st') :=
  h.eq_resolveWith (Nat.zero_add depthLimit)

/-- At the top there is a text, whatever fails. -/
theorem Expands.eq_expand {ps : List (Piece (List Char))} {st st' : State}
    {r : Except LookupError (List Char)} {tr : Trace} (h : Expands b s 0 ps st r st' tr) :
    r = .ok (expand (resolveTop b s) ps st).1 ∧ st' = (expand (resolveTop b s) ps st).2 :=
  match h with
  | .nil => ⟨rfl, rfl⟩
  | .char h => by
      obtain ⟨rfl, rfl⟩ := h.eq_expand
      exact ⟨rfl, rfl⟩
  | .value h₁ h₂ => by
      obtain ⟨rfl, rfl⟩ := h₂.eq_expand
      rw [expand, h₁.eq_resolveTop]
      exact ⟨rfl, rfl⟩
  | .left h₁ _ h₂ => by
      obtain ⟨rfl, rfl⟩ := h₂.eq_expand
      rw [expand, h₁.eq_resolveTop]
      exact ⟨rfl, rfl⟩
  | .aborted _ hd _ => absurd hd (Nat.lt_irrefl 0)

/-- The rules allow one result for a text, and it is no error. -/
theorem Evaluates.eq_process {r : Resolver} {text : String} {journal : Journal} {st : State}
    {result : Except LookupError String} {tr : Trace}
    (h : Evaluates r.bindings s 0 text ⟨r.cache, journal⟩ result st tr) :
    result = .ok (r.process s text journal).1 ∧
      st = ⟨(r.process s text journal).2.1.cache, (r.process s text journal).2.2⟩ := by
  cases h with
  | verbatim hocc =>
      simp only [process, Template.pieces, Template.pieces_of_not_occurs hocc, expand_chars,
        String.ofList_toList, and_self]
  | tooDeep _ hd => exact absurd hd (Nat.not_lt_zero _)
  | filled _ _ h =>
      obtain ⟨rfl, rfl⟩ := h.eq_expand
      exact ⟨rfl, rfl⟩

/-! ## Placeholder by placeholder -/

/-- A text whose placeholders are replaced from left to right: each by its value, or it stays as it
is and its expression is not kept. -/
inductive Replaces (s : Surroundings) :
    Resolver × Journal → List Char → List Char → Resolver × Journal → Prop
  | rest {p text} : Template.NoPlaceholder text → Replaces s p text text p
  | value {r journal text before inner after v p out p'} :
      Template.First text before inner after →
      r.resolveExpression s (String.ofList inner) journal = (.ok v, p) →
      Replaces s p after out p' → Replaces s (r, journal) text (before ++ v.toList ++ out) p'
  | stays {r journal text before inner after err p out p'} :
      Template.First text before inner after →
      r.resolveExpression s (String.ofList inner) journal = (.error err, p) →
      p.1.cache.get? (trimText (String.ofList inner)) = none →
      Replaces s p after out p' →
      Replaces s (r, journal) text (before ++ Template.write inner ++ out) p'

theorem expand_append (resolve : String → Step String) (ps qs : List (Piece (List Char)))
    (st : State) :
    expand resolve (ps ++ qs) st =
      ((expand resolve ps st).1 ++ (expand resolve qs (expand resolve ps st).2).1,
        (expand resolve qs (expand resolve ps st).2).2) := by
  induction ps generalizing st with
  | nil => rfl
  | cons piece ps ih =>
      cases piece with
      | char c => simp only [List.cons_append, expand, ih]
      | span inner =>
          simp only [List.cons_append, expand]
          rcases resolve (Template.expression inner) st with ⟨err | v, st₁⟩
          · simp only [ih, List.append_assoc]
          · simp only [ih, List.append_assoc]

theorem expand_chars_append (resolve : String → Step String) (cs : List Char)
    (ps : List (Piece (List Char))) (st : State) :
    expand resolve (cs.map .char ++ ps) st =
      (cs ++ (expand resolve ps st).1, (expand resolve ps st).2) := by
  rw [expand_append, expand_chars]

theorem resolveExpression_eq (r : Resolver) (s : Surroundings) (inner : List Char)
    (journal : Journal) : r.resolveExpression s (String.ofList inner) journal =
      ((resolveTop r.bindings s (Template.expression inner) ⟨r.cache, journal⟩).1,
        { r with cache := (resolveTop r.bindings s (Template.expression inner)
          ⟨r.cache, journal⟩).2.cache },
        (resolveTop r.bindings s (Template.expression inner) ⟨r.cache, journal⟩).2.journal) := by
  simp only [resolveExpression, trimText, String.toList_ofList]
  rfl

/-- An expression whose resolution fails is not kept by the resolver. -/
theorem not_kept_of_resolveExpression {r : Resolver} {expression : String} {journal : Journal}
    {err : LookupError} {p : Resolver × Journal}
    (h : r.resolveExpression s expression journal = (.error err, p)) :
    p.1.cache.get? (trimText expression) = none := by
  obtain ⟨tr, htr⟩ := resolves_resolveExpression r s expression journal
  rw [h] at htr
  exact htr.not_kept_of_error

/-- Expanding the pieces of a text replaces its placeholders one after the other. -/
theorem replaces_expand (b : Bindings) (s : Surroundings) (text : List Char) (st : State) :
    Replaces s (⟨b, st.cache⟩, st.journal) text
      (expand (resolveTop b s) (Template.marker.pieces text) st).1
      (⟨b, (expand (resolveTop b s) (Template.marker.pieces text) st).2.cache⟩,
        (expand (resolveTop b s) (Template.marker.pieces text) st).2.journal) := by
  induction hn : text.length using Nat.strongRecOn generalizing text st with
  | _ n ih =>
    rcases Template.first_or_noPlaceholder text with ⟨before, inner, after, hfirst⟩ | hnone
    · have hlen : after.length < n := by
        have hlength := congrArg List.length hfirst.text_eq
        simp only [List.length_append, Template.write, List.length_cons] at hlength
        omega
      have hresolve := resolveExpression_eq ⟨b, st.cache⟩ s inner st.journal
      rw [hfirst.pieces_eq, expand_chars_append, expand]
      revert hresolve
      rcases resolveTop b s (Template.expression inner) st with ⟨err | v, st₁⟩
      · intro hresolve
        rw [← List.append_assoc]
        exact .stays hfirst hresolve (not_kept_of_resolveExpression hresolve)
          (ih _ hlen after st₁ rfl)
      · intro hresolve
        rw [← List.append_assoc]
        exact .value hfirst hresolve (ih _ hlen after st₁ rfl)
    · rw [Template.pieces_of_noPlaceholder hnone, expand_chars]
      exact .rest hnone

theorem process_of_noPlaceholder {text : String} (h : Template.NoPlaceholder text.toList)
    (r : Resolver) (s : Surroundings) (journal : Journal) :
    r.process s text journal = (text, r, journal) := by
  simp only [process, Template.pieces, Template.pieces_of_noPlaceholder h, expand_chars,
    String.ofList_toList]

/-- Whatever fails, processing a text gives a text, and the rules allow no other result. It is the
text in which one placeholder after the other is replaced by the value of its inner text, or stays
as it is where there is none; a text without placeholders stays as it is. An expression whose
resolution fails is not kept, at whatever depth it stands, and what names stand for is the same
afterwards. -/
theorem failures_contained (r : Resolver) (s : Surroundings) (text : String)
    (journal : Journal) :
    let out := (r.process s text journal).1
    let r' := (r.process s text journal).2.1
    let journal' := (r.process s text journal).2.2
    (∃ tr, Evaluates r.bindings s 0 text ⟨r.cache, journal⟩ (.ok out) ⟨r'.cache, journal'⟩ tr) ∧
    (∀ result st tr, Evaluates r.bindings s 0 text ⟨r.cache, journal⟩ result st tr →
      result = .ok out ∧ st = ⟨r'.cache, journal'⟩) ∧
    Replaces s (r, journal) text.toList out.toList (r', journal') ∧
    (Template.NoPlaceholder text.toList → (out, r', journal') = (text, r, journal)) ∧
    (∀ d e st err st' tr, Resolves r.bindings s d e st (.error err) st' tr →
      st'.cache.get? e = none) ∧
    r'.bindings = r.bindings := by
  refine ⟨evaluates_process r s text journal, fun _ _ _ h => h.eq_process, ?_, ?_, ?_, rfl⟩
  · have hreplaces := replaces_expand r.bindings s text.toList ⟨r.cache, journal⟩
    simp only [process, String.toList_ofList]
    exact hreplaces
  · intro h
    exact process_of_noPlaceholder h r s journal
  · intro d e st err st' tr h
    exact h.not_kept_of_error

end Stencil.Resolver
