import Mathlib.Logic.ExistsUnique
import Stencil.Calendar.Pattern

/-!
# Maximal munch

What a date pattern is made of is said by `Munched` without a list of tokens in some order: at each
place the longest token that begins there is taken, and where none begins a character. Every
pattern is made of its parts in exactly one way, and writing a moment by the pattern puts the texts
of the parts one after the other (`writePattern_munched`). So a character that is in no token cuts
a pattern into two that are written by themselves.

The search for a token takes the first of `Field.all` that begins the text. It is the longest,
because no token stands behind a shorter one (`Field.pairwise_all`).
-/

namespace Stencil.Calendar

open Text

/-- Of the tokens that begin a text, that of the field is the longest. -/
def Longest (f : Field) (cs : List Char) : Prop :=
  f.token <+: cs ∧ ∀ g : Field, g.token <+: cs → g.token.length ≤ f.token.length

/-- The parts of a pattern from left to right. -/
inductive Munched : List Char → List (Piece Field) → Prop
  | nil : Munched [] []
  | token {f : Field} {rest : List Char} {parts : List (Piece Field)} :
      Longest f (f.token ++ rest) → Munched rest parts →
      Munched (f.token ++ rest) (.span f :: parts)
  | char {c : Char} {rest : List Char} {parts : List (Piece Field)} :
      (∀ f : Field, ¬ f.token <+: c :: rest) → Munched rest parts →
      Munched (c :: rest) (.char c :: parts)

/-- What a part of a pattern writes. -/
def writePart (m : Moment) : Piece Field → List Char
  | .char c => [c]
  | .span f => f.write m

/-! ## Tokens -/

theorem Field.mem_all (f : Field) : f ∈ all := by cases f <;> decide

theorem Field.pairwise_all : all.Pairwise fun f g => g.token.length ≤ f.token.length := by decide

theorem Field.eq_of_token_eq {f g : Field} (h : f.token = g.token) : f = g := by
  revert h
  cases f <;> cases g <;> decide

theorem find_eq_none_iff {cs : List Char} :
    fieldMarker.find cs = none ↔ ∀ f : Field, ¬ f.token <+: cs := by
  show Field.all.find? (fun f => startsWith f.token cs) = none ↔ _
  rw [List.find?_eq_none]
  constructor
  · intro h f hf
    exact h f f.mem_all (startsWith_eq_true_iff.2 hf)
  · intro h f _ hf
    exact h f (startsWith_eq_true_iff.1 hf)

/-- The first token that begins a text is the longest. -/
theorem longest_of_find {f : Field} {cs : List Char} (h : fieldMarker.find cs = some f) :
    Longest f cs := by
  obtain ⟨hf, before, after, hall, hbefore⟩ := List.find?_eq_some_iff_append.1 h
  refine ⟨startsWith_eq_true_iff.1 hf, ?_⟩
  intro g hg
  have hmem : g ∈ before ++ f :: after := hall ▸ g.mem_all
  rcases List.mem_append.1 hmem with hin | hin
  · have hmiss : startsWith g.token cs = false := by simpa using hbefore g hin
    rw [startsWith_eq_true_iff.2 hg] at hmiss
    cases hmiss
  · have hpairwise := Field.pairwise_all
    rw [hall, List.pairwise_append] at hpairwise
    rcases List.mem_cons.1 hin with rfl | hin
    · exact Nat.le_refl _
    · exact (List.pairwise_cons.1 hpairwise.2.1).1 g hin

theorem Longest.unique {f g : Field} {cs : List Char} (hf : Longest f cs) (hg : Longest g cs) :
    f = g := by
  have hlength : f.token.length = g.token.length :=
    Nat.le_antisymm (hg.2 f hf.1) (hf.2 g hg.1)
  have hbegins : f.token <+: g.token :=
    List.prefix_of_prefix_length_le hf.1 hg.1 (Nat.le_of_eq hlength)
  exact Field.eq_of_token_eq (hbegins.eq_of_length hlength)

theorem find_eq_some_iff {f : Field} {cs : List Char} :
    fieldMarker.find cs = some f ↔ Longest f cs := by
  constructor
  · exact longest_of_find
  · intro h
    cases hfind : fieldMarker.find cs with
    | none => exact absurd h.1 (find_eq_none_iff.1 hfind f)
    | some g => rw [h.unique (longest_of_find hfind)]

/-- Whether a token begins a text is settled in front of a character that is in no token. -/
theorem find_append_cons {c : Char} (h : ∀ f : Field, c ∉ f.token) (cs rest : List Char) :
    fieldMarker.find (cs ++ c :: rest) = fieldMarker.find cs := by
  show Field.all.find? (fun f => startsWith f.token (cs ++ c :: rest)) =
    Field.all.find? fun f => startsWith f.token cs
  congr 1
  funext f
  rw [Bool.eq_iff_iff, startsWith_eq_true_iff, startsWith_eq_true_iff,
    prefix_append_cons_iff (h f)]

/-! ## Parts -/

theorem munched_pieces (pattern : List Char) : Munched pattern (fieldMarker.pieces pattern) := by
  induction pattern using fieldMarker.pieces_induction with
  | nil => exact .nil
  | char c cs hfind ih =>
      rw [fieldMarker.pieces_cons hfind]
      exact .char (find_eq_none_iff.1 hfind) ih
  | span f rest hfind ih =>
      rw [fieldMarker.pieces_of_find hfind rfl]
      exact .token (longest_of_find hfind) ih

theorem Munched.eq_pieces {pattern : List Char} {parts : List (Piece Field)}
    (h : Munched pattern parts) : parts = fieldMarker.pieces pattern := by
  induction h with
  | nil => rfl
  | token hlongest _ ih => rw [fieldMarker.pieces_of_find (find_eq_some_iff.2 hlongest) rfl, ih]
  | char hnone _ ih => rw [fieldMarker.pieces_cons (find_eq_none_iff.2 hnone), ih]

theorem writePattern_eq (m : Moment) (pattern : List Char) :
    writePattern m pattern = (fieldMarker.pieces pattern).flatMap (writePart m) := rfl

theorem writePattern_append_cons (m : Moment) {c : Char} (h : ∀ f : Field, c ∉ f.token)
    (a b : List Char) :
    writePattern m (a ++ c :: b) = writePattern m a ++ c :: writePattern m b := by
  rw [writePattern_eq, fieldMarker.pieces_append_of_stop (find_append_cons h), List.flatMap_append,
    List.flatMap_cons, writePattern_eq, writePattern_eq]
  rfl

theorem writePattern_eq_self (m : Moment) {pattern : List Char}
    (h : ∀ c ∈ pattern, ∀ f : Field, c ∉ f.token) : writePattern m pattern = pattern := by
  induction pattern with
  | nil => rfl
  | cons c pattern ih =>
      obtain ⟨hc, hpattern⟩ := List.forall_mem_cons.1 h
      have hcut := writePattern_append_cons m hc [] pattern
      rw [List.nil_append] at hcut
      rw [hcut, ih hpattern]
      rfl

/-! ## Writing -/

/-- A pattern is made of its parts in one way, with the longest token wherever one begins, and is
written part by part. What stands around a character that is in no token is written by itself, and
a pattern of such characters is written as it is. -/
theorem writePattern_munched (m : Moment) :
    (∀ pattern, (∃! parts, Munched pattern parts) ∧ ∀ parts, Munched pattern parts →
      writePattern m pattern = parts.flatMap (writePart m)) ∧
    (∀ (a b : List Char) (c : Char), (∀ f : Field, c ∉ f.token) →
      writePattern m (a ++ c :: b) = writePattern m a ++ c :: writePattern m b) ∧
    ∀ pattern : List Char, (∀ c ∈ pattern, ∀ f : Field, c ∉ f.token) →
      writePattern m pattern = pattern := by
  refine ⟨?_, ?_, ?_⟩
  · intro pattern
    refine ⟨⟨fieldMarker.pieces pattern, munched_pieces pattern, ?_⟩, ?_⟩
    · intro parts hparts
      exact hparts.eq_pieces
    · intro parts hparts
      rw [hparts.eq_pieces, writePattern_eq]
  · intro a b c hc
    exact writePattern_append_cons m hc a b
  · intro pattern hpattern
    exact writePattern_eq_self m hpattern

/-- A run that is longer than the longest token of its letter, on either side of another letter. -/
theorem writePattern_munched_runs :
    let m : Moment := ⟨⟨1709622489, 0⟩, 0⟩
    Munched "YYYYY".toList [.span .year, .char 'Y'] ∧ (∀ f : Field, 'é' ∉ f.token) ∧
      writePattern m ("YYYYY".toList ++ 'é' :: "MMMMM".toList) = "2024YéMarchM".toList := by
  intro m
  have hyear : Munched "YYYYY".toList [.span .year, .char 'Y'] := munched_pieces "YYYYY".toList
  have hletter : ∀ f : Field, 'é' ∉ f.token := by
    intro f
    cases f <;> decide
  obtain ⟨hparts, hcut, -⟩ := writePattern_munched m
  have hleft : writePattern m "YYYYY".toList = "2024Y".toList :=
    ((hparts _).2 _ hyear).trans (by decide +kernel)
  have hright : writePattern m "MMMMM".toList = "MarchM".toList := by decide +kernel
  refine ⟨hyear, hletter, ?_⟩
  rw [hcut _ _ _ hletter, hleft, hright]
  rfl

end Stencil.Calendar
