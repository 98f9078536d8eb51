import Stencil.Json.Token
import Stencil.Proofs.Text.Blank

/-!
# JSON documents as they are written

A `Source` is a JSON document with everything that stands in its text: the literals, and the blanks
around every token. It cannot be malformed, for the blanks, the literals of strings and the scalars
carry the proofs that they are such. `Source.render` is the text; that these are all the texts
that can be read is `parse?_eq_some_iff`. `Source.members` lists the members of a document and of
all the objects inside it, in the order of their keys in the text.
-/

namespace Stencil.Json

/-! ## Tokens -/

/-- Blanks between two tokens. -/
structure Blanks where
  chars : List Char
  isSpace : ∀ c ∈ chars, Lexer.isSpace c

/-- The texts that may stand between the quotes of a string. -/
inductive IsStringLiteral : List Char → Prop
  | nil : IsStringLiteral []
  | char {c cs} : c ≠ '"' → c ≠ '\\' → 0x20 ≤ c.toNat → IsStringLiteral cs →
      IsStringLiteral (c :: cs)
  | escape {c cs} : (Quoted.escaped? c).isSome → IsStringLiteral cs →
      IsStringLiteral ('\\' :: c :: cs)
  | code {a b c d cs} : (∀ x ∈ [a, b, c, d], (Percent.hexValue? x).isSome) → IsStringLiteral cs →
      IsStringLiteral ('\\' :: 'u' :: a :: b :: c :: d :: cs)

/-- A text without quotes, backslashes and control characters needs no escapes. -/
theorem IsStringLiteral.of_forall {cs : List Char}
    (h : ∀ c ∈ cs, c ≠ '"' ∧ c ≠ '\\' ∧ 0x20 ≤ c.toNat) : IsStringLiteral cs := by
  induction cs with
  | nil => exact .nil
  | cons c cs ih =>
      obtain ⟨⟨hquote, hescape, hcontrol⟩, hcs⟩ := List.forall_mem_cons.1 h
      exact .char hquote hescape hcontrol (ih hcs)

/-- The text between the quotes of a string. -/
structure StringLiteral where
  chars : List Char
  wellFormed : IsStringLiteral chars

/-- The text of a string, with its quotes. -/
def StringLiteral.render (literal : StringLiteral) : List Char :=
  '"' :: literal.chars ++ ['"']

theorem StringLiteral.render_append (literal : StringLiteral) (rest : List Char) :
    literal.render ++ rest = '"' :: (literal.chars ++ '"' :: rest) := by
  simp [StringLiteral.render]

/-- The texts of the documents that are neither strings nor containers. -/
inductive IsScalarLiteral : List Char → Prop
  | null : IsScalarLiteral ['n', 'u', 'l', 'l']
  | true : IsScalarLiteral ['t', 'r', 'u', 'e']
  | false : IsScalarLiteral ['f', 'a', 'l', 's', 'e']
  | number {literal} : (Number.ofLiteral? literal).isSome → IsScalarLiteral literal

/-- A document that is neither a string nor a container. -/
structure ScalarLiteral where
  chars : List Char
  wellFormed : IsScalarLiteral chars

/-- What stands in front of the value of a member. -/
structure Label where
  before : Blanks
  key : StringLiteral
  behind : Blanks
  gap : Blanks

/-- The text of a label: the key and a colon, with blanks around both. -/
def Label.render (l : Label) : List Char :=
  l.before.chars ++ l.key.render ++ l.behind.chars ++ ':' :: l.gap.chars

/-! ## Documents -/

mutual

/-- A JSON document as it is written, without blanks at its ends. -/
inductive Source where
  | scalar (literal : ScalarLiteral)
  | string (literal : StringLiteral)
  | emptyArray (blanks : Blanks)
  | array (items : Items)
  | emptyObject (blanks : Blanks)
  | object (members : Members)

/-- What stands between the brackets of an array that is not empty. -/
inductive Items where
  | last (before : Blanks) (item : Source) (behind : Blanks)
  | more (before : Blanks) (item : Source) (behind : Blanks) (rest : Items)

/-- What stands between the brackets of an object that is not empty. -/
inductive Members where
  | last (label : Label) (value : Source) (behind : Blanks)
  | more (label : Label) (value : Source) (behind : Blanks) (rest : Members)

end

mutual

/-- The text of a document. -/
def Source.render : Source → List Char
  | .scalar literal => literal.chars
  | .string literal => literal.render
  | .emptyArray blanks => '[' :: blanks.chars ++ [']']
  | .array items => '[' :: items.render ++ [']']
  | .emptyObject blanks => '{' :: blanks.chars ++ ['}']
  | .object members => '{' :: members.render ++ ['}']

def Items.render : Items → List Char
  | .last before item behind => before.chars ++ item.render ++ behind.chars
  | .more before item behind rest =>
    before.chars ++ item.render ++ behind.chars ++ ',' :: rest.render

def Members.render : Members → List Char
  | .last label value behind => label.render ++ value.render ++ behind.chars
  | .more label value behind rest =>
    label.render ++ value.render ++ behind.chars ++ ',' :: rest.render

end

/-- The items of an array. -/
def Items.toList : Items → List Source
  | .last _ item _ => [item]
  | .more _ item _ rest => item :: rest.toList

/-- The items of a document that is an array. -/
def Source.items? : Source → Option (List Source)
  | .emptyArray _ => some []
  | .array items => some items.toList
  | _ => none

mutual

/-- The members of a document, those of the objects inside it included, each by the literal of its
key and its value, in the order of their keys in the text. -/
def Source.members : Source → List (List Char × Source)
  | .array items => items.members
  | .object members => members.members
  | _ => []

def Items.members : Items → List (List Char × Source)
  | .last _ item _ => item.members
  | .more _ item _ rest => item.members ++ rest.members

/-- The members of an object, and after each those of its value. -/
def Members.members : Members → List (List Char × Source)
  | .last label value _ => (label.key.chars, value) :: value.members
  | .more label value _ rest => (label.key.chars, value) :: value.members ++ rest.members

end

mutual

/-- The literals of the strings of a document, keys included. -/
def Source.literals : Source → List (List Char)
  | .string literal => [literal.chars]
  | .array items => items.literals
  | .object members => members.literals
  | _ => []

def Items.literals : Items → List (List Char)
  | .last _ item _ => item.literals
  | .more _ item _ rest => item.literals ++ rest.literals

def Members.literals : Members → List (List Char)
  | .last label value _ => label.key.chars :: value.literals
  | .more label value _ rest => label.key.chars :: value.literals ++ rest.literals

end

/-- No string of a document, keys included, holds an escaped quote. -/
def Source.NoEscapedQuote (s : Source) : Prop := ∀ literal ∈ s.literals, '"' ∉ literal

instance (s : Source) : Decidable s.NoEscapedQuote :=
  inferInstanceAs (Decidable (∀ literal ∈ s.literals, '"' ∉ literal))

/-! ## Parts of a document -/

theorem Items.mem_literals : {items : Items} → {item : Source} → item ∈ items.toList →
    ∀ literal ∈ item.literals, literal ∈ items.literals
  | .last _ item' _, item, h => by
      obtain rfl : item = item' := by simpa [Items.toList] using h
      exact fun _ hliteral => hliteral
  | .more _ item' _ rest, item, h => by
      intro literal hliteral
      rw [Items.literals, List.mem_append]
      rcases List.mem_cons.1 h with rfl | h
      · exact .inl hliteral
      · exact .inr (Items.mem_literals h literal hliteral)

theorem Source.mem_literals_of_items? {s : Source} {items : List Source}
    (hitems : s.items? = some items) {item : Source} (h : item ∈ items) :
    ∀ literal ∈ item.literals, literal ∈ s.literals := by
  cases s with
  | emptyArray blanks =>
      cases hitems
      cases h
  | array items =>
      cases hitems
      exact Items.mem_literals h
  | _ => cases hitems

mutual

/-- The strings of a member's value are strings of the document. -/
theorem Source.mem_literals : {s : Source} → {key : List Char} → {value : Source} →
    (key, value) ∈ s.members → ∀ literal ∈ value.literals, literal ∈ s.literals
  | .array _, _, _, h => Items.mem_literals_of_members h
  | .object _, _, _, h => Members.mem_literals h

theorem Items.mem_literals_of_members : {items : Items} → {key : List Char} → {value : Source} →
    (key, value) ∈ items.members → ∀ literal ∈ value.literals, literal ∈ items.literals
  | .last _ _ _, _, _, h => Source.mem_literals h
  | .more _ _ _ _, _, _, h => by
      intro literal hliteral
      rw [Items.literals, List.mem_append]
      rcases List.mem_append.1 h with h | h
      · exact .inl (Source.mem_literals h literal hliteral)
      · exact .inr (Items.mem_literals_of_members h literal hliteral)

theorem Members.mem_literals : {members : Members} → {key : List Char} → {value : Source} →
    (key, value) ∈ members.members → ∀ literal ∈ value.literals, literal ∈ members.literals
  | .last _ _ _, _, _, h => by
      intro literal hliteral
      rw [Members.literals, List.mem_cons]
      rcases List.mem_cons.1 h with h | h
      · obtain ⟨-, rfl⟩ := Prod.mk.inj h
        exact .inr hliteral
      · exact .inr (Source.mem_literals h literal hliteral)
  | .more _ _ _ _, _, _, h => by
      intro literal hliteral
      rw [Members.literals, List.mem_append, List.mem_cons]
      rcases List.mem_append.1 h with h | h
      · rcases List.mem_cons.1 h with h | h
        · obtain ⟨-, rfl⟩ := Prod.mk.inj h
          exact .inl (.inr hliteral)
        · exact .inl (.inr (Source.mem_literals h literal hliteral))
      · exact .inr (Members.mem_literals h literal hliteral)

end

/-! ## The characters of scalars -/

/-- The characters of words and numbers. -/
def isScalarChar (c : Char) : Bool := c.isLower || Number.isLiteralChar c

namespace Number

theorem isLiteralChar_of_isDigit {c : Char} (h : c.isDigit) : isLiteralChar c := by
  simp [isLiteralChar, h]

theorem isLiteralChar_or_mem_dropWhile {cs : List Char} {c : Char} (h : c ∈ cs) :
    isLiteralChar c ∨ c ∈ cs.dropWhile Char.isDigit := by
  rw [← List.takeWhile_append_dropWhile (p := Char.isDigit) (l := cs), List.mem_append] at h
  exact h.imp_left fun hc => isLiteralChar_of_isDigit (List.all_eq_true.1 List.all_takeWhile c hc)

theorem isLiteralChar_of_natural? {cs : List Char} {n : Nat} (h : Decimal.natural? cs = some n)
    {c : Char} (hc : c ∈ cs) : isLiteralChar c := by
  cases cs with
  | nil => cases hc
  | cons d r =>
    rw [Decimal.natural?] at h
    split at h
    next hall => exact isLiteralChar_of_isDigit (List.all_eq_true.1 hall c hc)
    next => cases h

theorem isLiteralChar_of_integer? {cs : List Char} {n : Int} (h : Decimal.integer? cs = some n)
    {c : Char} (hc : c ∈ cs) : isLiteralChar c := by
  unfold Decimal.integer? at h
  split at h
  next r =>
    obtain ⟨m, hm, -⟩ := Option.map_eq_some_iff.1 h
    rcases List.mem_cons.1 hc with rfl | hc
    · decide
    · exact isLiteralChar_of_natural? hm hc
  next r =>
    obtain ⟨m, hm, -⟩ := Option.map_eq_some_iff.1 h
    rcases List.mem_cons.1 hc with rfl | hc
    · decide
    · exact isLiteralChar_of_natural? hm hc
  next =>
    obtain ⟨m, hm, -⟩ := Option.map_eq_some_iff.1 h
    exact isLiteralChar_of_natural? hm hc

theorem isLiteralChar_of_exponent? {cs : List Char} {n : Option Int}
    (h : exponent? cs = some n) {c : Char} (hc : c ∈ cs) : isLiteralChar c := by
  cases cs with
  | nil => cases hc
  | cons d r =>
    rw [exponent?] at h
    split at h
    next hd =>
      obtain ⟨m, hm, -⟩ := Option.map_eq_some_iff.1 h
      rcases List.mem_cons.1 hc with rfl | hc
      · rcases hd with rfl | rfl <;> decide
      · exact isLiteralChar_of_integer? hm hc
    next => cases h

theorem isLiteralChar_or_mem_of_fraction? {cs digits rest : List Char}
    (h : fraction? cs = some (digits, rest)) {c : Char} (hc : c ∈ cs) :
    isLiteralChar c ∨ c ∈ rest := by
  unfold fraction? at h
  split at h
  next r =>
    dsimp only at h
    split at h
    · cases h
    · cases h
      rcases List.mem_cons.1 hc with rfl | hc
      · exact .inl (by decide)
      · exact isLiteralChar_or_mem_dropWhile hc
  next =>
    cases h
    exact .inr hc

/-- The literal of a number is not empty, and has only characters of literals. -/
theorem isLiteralChar_of_ofLiteral? {literal : List Char} (h : (ofLiteral? literal).isSome) :
    literal ≠ [] ∧ ∀ c ∈ literal, isLiteralChar c := by
  obtain ⟨n, hn⟩ := Option.isSome_iff_exists.1 h
  unfold ofLiteral? at hn
  split at hn
  next neg r hsign =>
    dsimp only at hn
    split at hn
    · cases hn
    next hwhole =>
      simp only [Option.bind_eq_bind, Option.bind_eq_some_iff] at hn
      obtain ⟨⟨fraction, r'⟩, hfraction, exponent, hexponent, -⟩ := hn
      have hr : ∀ c ∈ r, isLiteralChar c := by
        intro c hc
        rcases isLiteralChar_or_mem_dropWhile hc with hc | hc
        · exact hc
        · rcases isLiteralChar_or_mem_of_fraction? hfraction hc with hc | hc
          · exact hc
          · exact isLiteralChar_of_exponent? hexponent hc
      have hne : r ≠ [] := by
        rintro rfl
        exact hwhole (.inl rfl)
      split at hsign
      next =>
        cases hsign
        refine ⟨by simp, fun c hc => ?_⟩
        rcases List.mem_cons.1 hc with rfl | hc
        · decide
        · exact hr c hc
      next =>
        cases hsign
        exact ⟨hne, hr⟩

/-- The literal of a number begins with a digit or a minus sign. -/
theorem head_of_ofLiteral? {c : Char} {cs : List Char} (h : (ofLiteral? (c :: cs)).isSome) :
    c.isDigit ∨ c = '-' := by
  by_cases hminus : c = '-'
  · exact .inr hminus
  by_cases hdigit : c.isDigit
  · exact .inl hdigit
  have hnone : ofLiteral? (c :: cs) = none := by
    unfold ofLiteral?
    split
    next neg r hsign =>
      split at hsign
      next heq => exact absurd (List.cons.inj heq).1 hminus
      next =>
        cases hsign
        exact if_pos (.inl (by simp [hdigit]))
  rw [hnone] at h
  cases h

end Number

/-- A scalar is not empty, and has only characters of words and numbers. -/
theorem IsScalarLiteral.chars {literal : List Char} (h : IsScalarLiteral literal) :
    literal ≠ [] ∧ ∀ c ∈ literal, isScalarChar c := by
  cases h with
  | null => exact ⟨by decide, List.all_eq_true.1 (by decide)⟩
  | true => exact ⟨by decide, List.all_eq_true.1 (by decide)⟩
  | false => exact ⟨by decide, List.all_eq_true.1 (by decide)⟩
  | number h =>
      obtain ⟨hne, hall⟩ := Number.isLiteralChar_of_ofLiteral? h
      exact ⟨hne, fun c hc => by simp [isScalarChar, hall c hc]⟩

/-- The characters of words and numbers are no blanks. -/
theorem isBlank_of_isScalarChar {c : Char} (h : isScalarChar c) : Text.isBlank c = false := by
  simp only [isScalarChar, Number.isLiteralChar, Bool.or_eq_true, beq_iff_eq] at h
  rcases h with h | ((((h | rfl) | rfl) | rfl) | rfl) | rfl
  · exact Text.isBlank_of_isLower h
  · exact Text.isBlank_of_isDigit h
  all_goals decide

/-! ## The ends of a document -/

theorem isAsciiBlank_of_isSpace {c : Char} (h : Lexer.isSpace c) : Text.isAsciiBlank c := by
  simp only [Lexer.isSpace, Bool.or_eq_true, beq_iff_eq] at h
  rcases h with ((rfl | rfl) | rfl) | rfl <;> decide

theorem isBlank_of_isSpace {c : Char} (h : Lexer.isSpace c) : Text.isBlank c :=
  Text.isBlank_of_isAsciiBlank (isAsciiBlank_of_isSpace h)

theorem isScalarChar_of_isSpace {c : Char} (h : Lexer.isSpace c) : isScalarChar c = false := by
  rw [Bool.eq_false_iff]
  intro hc
  have hblank := isBlank_of_isScalarChar hc
  rw [isBlank_of_isSpace h] at hblank
  cases hblank

/-- A document begins with no blank. -/
theorem Source.render_eq_cons (s : Source) :
    ∃ c cs, s.render = c :: cs ∧ Text.isBlank c = false := by
  cases s with
  | scalar literal =>
      obtain ⟨hne, hall⟩ := literal.wellFormed.chars
      obtain ⟨c, cs, hc⟩ := List.exists_cons_of_ne_nil hne
      exact ⟨c, cs, hc, isBlank_of_isScalarChar (hall c (by simp [hc]))⟩
  | string literal => exact ⟨_, _, rfl, by decide⟩
  | emptyArray blanks => exact ⟨_, _, rfl, by decide⟩
  | array items => exact ⟨_, _, rfl, by decide⟩
  | emptyObject blanks => exact ⟨_, _, rfl, by decide⟩
  | object members => exact ⟨_, _, rfl, by decide⟩

/-- A document ends in no blank. -/
theorem Source.render_eq_concat (s : Source) :
    ∃ cs c, s.render = cs ++ [c] ∧ Text.isBlank c = false := by
  cases s with
  | scalar literal =>
      obtain ⟨hne, hall⟩ := literal.wellFormed.chars
      refine ⟨literal.chars.dropLast, literal.chars.getLast hne, ?_, ?_⟩
      · exact (List.dropLast_concat_getLast hne).symm
      · exact isBlank_of_isScalarChar (hall _ (List.getLast_mem hne))
  | string literal => exact ⟨_, _, rfl, by decide⟩
  | emptyArray blanks => exact ⟨_, _, rfl, by decide⟩
  | array items => exact ⟨_, _, rfl, by decide⟩
  | emptyObject blanks => exact ⟨_, _, rfl, by decide⟩
  | object members => exact ⟨_, _, rfl, by decide⟩

/-- Blanks around a document are trimmed off. -/
theorem Source.trim_render (s : Source) (front back : Blanks) :
    Text.trim (front.chars ++ s.render ++ back.chars) = s.render := by
  obtain ⟨c, cs, hcons, hc⟩ := s.render_eq_cons
  obtain ⟨ds, d, hconcat, hd⟩ := s.render_eq_concat
  refine Text.trim_eq_iff.2 ⟨⟨front.chars, back.chars, rfl, ?_, ?_⟩, ?_, ?_⟩
  · exact fun c hc => isBlank_of_isSpace (front.isSpace c hc)
  · exact fun c hc => isBlank_of_isSpace (back.isSpace c hc)
  · rw [hcons]
    rintro c ⟨⟩
    exact hc
  · rw [hconcat, List.getLast?_concat]
    rintro c ⟨⟩
    exact hd

end Stencil.Json
