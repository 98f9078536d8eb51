import Stencil.JsonPath.Scan
import Stencil.Proofs.Json.Source

/-!
# Scanning the values of JSON documents

On the text of a document the scan takes exactly that text, whatever stands behind it that may
stand behind a value (`value?_render`). For a scan of brackets the point is that the text of a
document, and any part of it between commas, leaves the scan at the depth where it found it
(`Passes`): it opens and closes brackets of either kind in pairs, and those in strings are not
seen.
-/

namespace Stencil.JsonPath

open Text Json

/-- Puts a text in front of the first part. -/
def prepend (front : List Char) : List Char × List Char → List Char × List Char
  | (taken, rest) => (front ++ taken, rest)

theorem prepend_comp_prepend (a b : List Char) : prepend a ∘ prepend b = prepend (a ++ b) := by
  funext ⟨taken, rest⟩
  simp [prepend]

theorem onto_eq_prepend (c : Char) : onto c = prepend [c] := rfl

/-! ## Strings -/

theorem string?_cons {c : Char} (hquote : c ≠ '"') (hescape : c ≠ '\\') (r : List Char) :
    string? (c :: r) = (string? r).map (onto c) := by
  cases r with
  | nil => simp [string?, hquote]
  | cons d r => simp [string?, hquote, hescape]

theorem string?_escape (c : Char) (r : List Char) :
    string? ('\\' :: c :: r) = (string? r).map (prepend ['\\', c]) := by
  simp only [string?]
  rfl

theorem ne_of_hexValue? {c : Char} (h : (Percent.hexValue? c).isSome) : c ≠ '"' ∧ c ≠ '\\' := by
  constructor <;> rintro rfl <;> revert h <;> decide

/-- A string is taken up to its closing quote. -/
theorem string?_literal {literal : List Char} (h : IsStringLiteral literal) (rest : List Char) :
    string? (literal ++ '"' :: rest) = some (literal ++ ['"'], rest) := by
  induction h with
  | nil => cases rest <;> simp [string?]
  | char hquote hescape _ _ ih =>
      rw [List.cons_append, string?_cons hquote hescape, ih]
      rfl
  | escape _ _ ih =>
      rw [List.cons_append, List.cons_append, string?_escape, ih]
      rfl
  | code hhex _ ih =>
      simp only [List.forall_mem_cons] at hhex
      obtain ⟨ha, hb, hc, hd, -⟩ := hhex
      simp only [List.cons_append, string?_escape, string?_cons (ne_of_hexValue? ha).1
        (ne_of_hexValue? ha).2, string?_cons (ne_of_hexValue? hb).1 (ne_of_hexValue? hb).2,
        string?_cons (ne_of_hexValue? hc).1 (ne_of_hexValue? hc).2,
        string?_cons (ne_of_hexValue? hd).1 (ne_of_hexValue? hd).2, ih]
      rfl

/-- Inside a string, a scan of brackets goes on behind its closing quote. -/
theorem container?_string (opening closing : Char) (depth : Nat) (cs : List Char) :
    container? opening closing .string depth cs =
      (string? cs).bind fun (taken, rest) =>
        (container? opening closing .brackets depth rest).map (prepend taken) := by
  fun_induction string? cs with
  | case1 => rfl
  | case2 => simp [container?]
  | case3 c hquote => simp [container?, hquote]
  | case4 d r => simp [container?, onto_eq_prepend]
  | case5 d r hquote ih =>
      rw [container?, if_pos rfl, container?, ih]
      cases string? r with
      | none => rfl
      | some parts =>
          simp only [Option.map_some, Option.bind_some, Option.map_map]
          rfl
  | case6 c d r hquote hescape ih =>
      rw [container?, if_neg hescape, if_neg hquote, ih]
      cases string? (d :: r) with
      | none => rfl
      | some parts =>
          simp only [Option.map_some, Option.bind_some, Option.map_map]
          rfl

/-! ## Brackets -/

/-- The brackets of a container. -/
inductive Brackets : (opening closing : Char) → Prop
  | square : Brackets '[' ']'
  | curly : Brackets '{' '}'

/-- A scan of brackets goes through a text and is as deep behind it as before. -/
def Passes (opening closing : Char) (text : List Char) : Prop :=
  ∀ depth rest, container? opening closing .brackets depth (text ++ rest) =
    (container? opening closing .brackets depth rest).map (prepend text)

variable {opening closing : Char}

theorem container?_quote (depth : Nat) (r : List Char) :
    container? opening closing .brackets depth ('"' :: r) =
      (container? opening closing .string depth r).map (onto '"') := by
  cases depth <;> rw [container?, if_pos rfl]

theorem container?_opening (h : opening ≠ '"') (depth : Nat) (r : List Char) :
    container? opening closing .brackets depth (opening :: r) =
      (container? opening closing .brackets (depth + 1) r).map (onto opening) := by
  cases depth <;> rw [container?, if_neg h, if_pos rfl]

theorem Passes.nil : Passes opening closing [] := by
  intro depth rest
  have hid : prepend [] = id := rfl
  rw [hid, Option.map_id_apply]
  rfl

theorem Passes.append {a b : List Char} (ha : Passes opening closing a)
    (hb : Passes opening closing b) : Passes opening closing (a ++ b) := by
  intro depth rest
  rw [List.append_assoc, ha, hb, Option.map_map, prepend_comp_prepend]

theorem Passes.char {c : Char} (hquote : c ≠ '"') (hopening : c ≠ opening)
    (hclosing : c ≠ closing) : Passes opening closing [c] := by
  intro depth rest
  simp [container?, hquote, hopening, hclosing, onto_eq_prepend]

theorem Passes.chars {text : List Char}
    (h : ∀ c ∈ text, c ≠ '"' ∧ c ≠ opening ∧ c ≠ closing) : Passes opening closing text := by
  induction text with
  | nil => exact .nil
  | cons c text ih =>
      obtain ⟨⟨hquote, hopening, hclosing⟩, htext⟩ := List.forall_mem_cons.1 h
      exact (Passes.char hquote hopening hclosing).append (ih htext)

theorem Passes.string (literal : StringLiteral) : Passes opening closing literal.render := by
  intro depth rest
  rw [literal.render_append, container?_quote, container?_string,
    string?_literal literal.wellFormed, Option.bind_some, Option.map_map, onto_eq_prepend,
    prepend_comp_prepend]
  rfl

/-- Brackets are those of the scan, or neither of them concerns it. -/
theorem Brackets.eq_or_ne (h : Brackets opening closing) {o c : Char} (hoc : Brackets o c) :
    (o = opening ∧ c = closing) ∨
      ((o ≠ '"' ∧ o ≠ opening ∧ o ≠ closing) ∧ (c ≠ '"' ∧ c ≠ opening ∧ c ≠ closing)) := by
  cases h <;> cases hoc <;> decide

/-- The text of a container is passed if what stands between its brackets is. -/
theorem Passes.enclose (h : Brackets opening closing) {o c : Char} (hoc : Brackets o c)
    {text : List Char} (htext : Passes opening closing text) :
    Passes opening closing (o :: text ++ [c]) := by
  rcases h.eq_or_ne hoc with ⟨rfl, rfl⟩ | ⟨ho, hc⟩
  · intro depth rest
    have hne : o ≠ '"' ∧ c ≠ '"' ∧ c ≠ o := by cases h <;> decide
    obtain ⟨ho, hc, hco⟩ := hne
    have heq : o :: text ++ [c] ++ rest = o :: (text ++ c :: rest) := by simp
    rw [heq, container?_opening ho, htext (depth + 1), container?, if_neg hc, if_neg hco,
      if_pos rfl, Option.map_map, Option.map_map, onto_eq_prepend, onto_eq_prepend,
      prepend_comp_prepend, prepend_comp_prepend]
    rfl
  · have hfront := Passes.char ho.1 ho.2.1 ho.2.2
    have hback := Passes.char hc.1 hc.2.1 hc.2.2
    exact (hfront.append htext).append hback

/-- A container is taken up to the bracket that closes it. -/
theorem container?_enclosed (h : Brackets opening closing) {text : List Char}
    (htext : Passes opening closing text) (rest : List Char) :
    container? opening closing .brackets 0 (text ++ closing :: rest) =
      some (text ++ [closing], rest) := by
  have hne : closing ≠ '"' ∧ closing ≠ opening := by cases h <;> decide
  rw [htext, container?, if_neg hne.1, if_neg hne.2, if_pos rfl]
  rfl

/-! ## Documents -/

/-- A character of words and numbers differs from every other character. -/
theorem ne_of_isScalarChar {c d : Char} (hc : isScalarChar c) (hd : isScalarChar d = false) :
    c ≠ d := by
  rintro rfl
  rw [hc] at hd
  cases hd

theorem Passes.blanks (h : Brackets opening closing) (b : Blanks) :
    Passes opening closing b.chars := by
  refine Passes.chars fun c hc => ?_
  have hspace := b.isSpace c hc
  refine ⟨?_, ?_, ?_⟩
  · rintro rfl
    exact absurd hspace (by decide)
  · rintro rfl
    exact absurd hspace (by cases h <;> decide)
  · rintro rfl
    exact absurd hspace (by cases h <;> decide)

theorem Passes.scalar (h : Brackets opening closing) (literal : ScalarLiteral) :
    Passes opening closing literal.chars := by
  refine Passes.chars fun c hc => ?_
  have hscalar := literal.wellFormed.chars.2 c hc
  exact ⟨ne_of_isScalarChar hscalar (by decide),
    ne_of_isScalarChar hscalar (by cases h <;> decide),
    ne_of_isScalarChar hscalar (by cases h <;> decide)⟩

theorem Passes.comma (h : Brackets opening closing) : Passes opening closing [','] := by
  cases h <;> exact Passes.char (by decide) (by decide) (by decide)

theorem Passes.label (h : Brackets opening closing) (l : Label) :
    Passes opening closing l.render := by
  have hcolon : Passes opening closing [':'] := by
    cases h <;> exact Passes.char (by decide) (by decide) (by decide)
  have hbehind := ((Passes.blanks h l.before).append (.string l.key)).append (.blanks h l.behind)
  exact hbehind.append (hcolon.append (.blanks h l.gap))

mutual

theorem passes_source (h : Brackets opening closing) :
    (s : Source) → Passes opening closing s.render
  | .scalar literal => .scalar h literal
  | .string literal => .string literal
  | .emptyArray blanks => .enclose h .square (.blanks h blanks)
  | .array items => .enclose h .square (passes_items h items)
  | .emptyObject blanks => .enclose h .curly (.blanks h blanks)
  | .object members => .enclose h .curly (passes_members h members)

theorem passes_items (h : Brackets opening closing) :
    (items : Items) → Passes opening closing items.render
  | .last before item behind =>
      ((Passes.blanks h before).append (passes_source h item)).append (.blanks h behind)
  | .more before item behind rest =>
      (((Passes.blanks h before).append (passes_source h item)).append (.blanks h behind)).append
        ((Passes.comma h).append (passes_items h rest))

theorem passes_members (h : Brackets opening closing) :
    (members : Members) → Passes opening closing members.render
  | .last label value behind =>
      ((Passes.label h label).append (passes_source h value)).append (.blanks h behind)
  | .more label value behind rest =>
      (((Passes.label h label).append (passes_source h value)).append (.blanks h behind)).append
        ((Passes.comma h).append (passes_members h rest))

end

/-! ## Values -/

/-- What may stand behind a value: nothing, or a character that ends a word. -/
def Ends (rest : List Char) : Prop := ∀ c ∈ rest.head?, endsWord c

theorem Ends.takeWhile {rest : List Char} (h : Ends rest) :
    rest.takeWhile (fun c => !endsWord c) = [] := by
  cases rest with
  | nil => rfl
  | cons c r => simp [h c rfl]

theorem Ends.dropWhile {rest : List Char} (h : Ends rest) :
    rest.dropWhile (fun c => !endsWord c) = rest := by
  cases rest with
  | nil => rfl
  | cons c r => simp [h c rfl]

theorem skipBlanks_append {front : List Char} (h : ∀ c ∈ front, isAsciiBlank c)
    (cs : List Char) : skipBlanks (front ++ cs) = skipBlanks cs :=
  List.dropWhile_append_of_pos h

theorem skipBlanks_blanks (b : Blanks) (cs : List Char) :
    skipBlanks (b.chars ++ cs) = skipBlanks cs :=
  skipBlanks_append (fun c hc => isAsciiBlank_of_isSpace (b.isSpace c hc)) cs

theorem skipBlanks_cons {c : Char} (h : isAsciiBlank c = false) (cs : List Char) :
    skipBlanks (c :: cs) = c :: cs := by
  simp [skipBlanks, h]

theorem isAsciiBlank_eq_false {c : Char} (h : isBlank c = false) : isAsciiBlank c = false := by
  rw [Bool.eq_false_iff] at h ⊢
  exact fun hascii => h (isBlank_of_isAsciiBlank hascii)

/-- No blanks stand in front of a document. -/
theorem skipBlanks_render (s : Source) (rest : List Char) :
    skipBlanks (s.render ++ rest) = s.render ++ rest := by
  obtain ⟨c, cs, heq, hblank⟩ := s.render_eq_cons
  rw [heq]
  exact skipBlanks_cons (isAsciiBlank_eq_false hblank) _

/-- No character of a word or a number ends one. -/
theorem endsWord_of_isScalarChar {c : Char} (h : isScalarChar c) : endsWord c = false := by
  have hascii := isAsciiBlank_eq_false (isBlank_of_isScalarChar h)
  have hcomma : c ≠ ',' := ne_of_isScalarChar h (by decide)
  have hcurly : c ≠ '}' := ne_of_isScalarChar h (by decide)
  have hsquare : c ≠ ']' := ne_of_isScalarChar h (by decide)
  simp [endsWord, hascii, hcomma, hcurly, hsquare]

theorem value?_container (h : Brackets opening closing) {text : List Char}
    (htext : Passes opening closing text) (rest : List Char) :
    value? (opening :: text ++ [closing] ++ rest) = some (opening :: text ++ [closing], rest) := by
  have hrest : opening :: text ++ [closing] ++ rest = opening :: (text ++ closing :: rest) := by
    simp
  have hblank : isAsciiBlank opening = false := by cases h <;> decide
  have htake := container?_enclosed h htext rest
  rw [hrest, value?, skipBlanks_cons hblank]
  cases h with
  | square =>
      dsimp only
      rw [if_neg (by decide), if_neg (by decide), if_pos rfl, htake]
      rfl
  | curly =>
      dsimp only
      rw [if_neg (by decide), if_pos rfl, htake]
      rfl

theorem value?_string (literal : StringLiteral) (rest : List Char) :
    value? (literal.render ++ rest) = some (literal.render, rest) := by
  rw [literal.render_append, value?, skipBlanks_cons (by decide)]
  dsimp only
  rw [if_pos rfl, string?_literal literal.wellFormed]
  rfl

theorem value?_scalar (literal : ScalarLiteral) {rest : List Char} (h : Ends rest) :
    value? (literal.chars ++ rest) = some (literal.chars, rest) := by
  obtain ⟨hne, hall⟩ := literal.wellFormed.chars
  have hskip := skipBlanks_render (.scalar literal) rest
  have hword : ∀ c ∈ literal.chars, (!endsWord c) = true := by
    intro c hc
    rw [endsWord_of_isScalarChar (hall c hc)]
    rfl
  have htake : (literal.chars ++ rest).takeWhile (fun d => !endsWord d) = literal.chars := by
    rw [List.takeWhile_append_of_pos hword, h.takeWhile, List.append_nil]
  have hdrop : (literal.chars ++ rest).dropWhile (fun d => !endsWord d) = rest := by
    rw [List.dropWhile_append_of_pos hword, h.dropWhile]
  obtain ⟨c, cs, hcons⟩ := List.exists_cons_of_ne_nil hne
  have hc := hall c (by simp [hcons])
  rw [Source.render] at hskip
  rw [value?, hskip]
  rw [hcons] at htake hdrop ⊢
  simp only [List.cons_append] at htake hdrop ⊢
  rw [if_neg (ne_of_isScalarChar hc (by decide)), if_neg (ne_of_isScalarChar hc (by decide)),
    if_neg (ne_of_isScalarChar hc (by decide)), endsWord_of_isScalarChar hc, htake, hdrop]
  rfl

/-- A document is taken off the front of a text, and nothing more. -/
theorem value?_render (s : Source) {front rest : List Char}
    (hfront : ∀ c ∈ front, isAsciiBlank c) (hrest : Ends rest) :
    value? (front ++ s.render ++ rest) = some (s.render, rest) := by
  have hskip : value? (front ++ s.render ++ rest) = value? (s.render ++ rest) := by
    rw [value?, value?, List.append_assoc, skipBlanks_append hfront]
  rw [hskip]
  cases s with
  | scalar literal => exact value?_scalar literal hrest
  | string literal => exact value?_string literal rest
  | emptyArray blanks => exact value?_container .square (.blanks .square blanks) rest
  | array items => exact value?_container .square (passes_items .square items) rest
  | emptyObject blanks => exact value?_container .curly (.blanks .curly blanks) rest
  | object members => exact value?_container .curly (passes_members .curly members) rest

end Stencil.JsonPath
