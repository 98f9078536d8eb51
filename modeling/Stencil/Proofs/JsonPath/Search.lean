import Stencil.JsonPath.Extract
import Stencil.Proofs.JsonPath.Scanner

/-!
# Searching the members of JSON documents

In a document whose strings hold no quotes, the first occurrence of a quoted name that a colon
follows is the key of the first member with that name (`field_render`). The quotes of such a
document are the ends of its strings, and between two strings stands at least one character that
is in no name; so an occurrence is a whole string, and with a colon behind it a key.
-/

namespace Stencil.JsonPath

open Text Json

/-- The characters of plain field names: ASCII letters and digits, `_` and `-`. -/
def isFieldChar (c : Char) : Bool := c.isAlphanum || c == '_' || c == '-'

/-- A field name with quotes around it. -/
def quoted (name : List Char) : List Char := '"' :: name ++ ['"']

/-! ## What may stand behind a value in a document -/

/-- Blanks, and then the end of the text or a character that goes on behind a value. -/
def Closes (rest : List Char) : Prop :=
  ∃ (blanks : Blanks) (r : List Char), rest = blanks.chars ++ r ∧
    ∀ c ∈ r.head?, c = ',' ∨ c = ']' ∨ c = '}'

theorem closes_nil : Closes [] := ⟨⟨[], by simp⟩, [], rfl, by simp⟩

theorem closes_cons {c : Char} (h : c = ',' ∨ c = ']' ∨ c = '}') (r : List Char) :
    Closes (c :: r) :=
  ⟨⟨[], by simp⟩, c :: r, rfl, by simpa using h⟩

theorem Closes.append_blanks {rest : List Char} (h : Closes rest) (b : Blanks) :
    Closes (b.chars ++ rest) := by
  obtain ⟨blanks, r, rfl, hr⟩ := h
  refine ⟨⟨b.chars ++ blanks.chars, fun c hc => ?_⟩, r, by simp, hr⟩
  exact (List.mem_append.1 hc).elim (b.isSpace c) (blanks.isSpace c)

/-- Its first character is a blank, or goes on behind a value. -/
theorem Closes.head {rest : List Char} (h : Closes rest) {c : Char} (hc : c ∈ rest.head?) :
    Lexer.isSpace c ∨ c = ',' ∨ c = ']' ∨ c = '}' := by
  obtain ⟨blanks, r, rfl, hr⟩ := h
  cases hb : blanks.chars with
  | nil =>
      rw [hb] at hc
      exact .inr (hr c hc)
  | cons b bs =>
      rw [hb] at hc
      cases hc
      exact .inl (blanks.isSpace c (by simp [hb]))

theorem Closes.ends {rest : List Char} (h : Closes rest) : Ends rest := by
  intro c hc
  rcases h.head hc with hspace | rfl | rfl | rfl
  · simp [endsWord, isAsciiBlank_of_isSpace hspace]
  all_goals decide

theorem isFieldChar_of_isSpace {c : Char} (h : Lexer.isSpace c) : isFieldChar c = false := by
  simp only [Lexer.isSpace, Bool.or_eq_true, beq_iff_eq] at h
  rcases h with ((rfl | rfl) | rfl) | rfl <;> decide

theorem Closes.isFieldChar {rest : List Char} (h : Closes rest) {c : Char}
    (hc : c ∈ rest.head?) : isFieldChar c = false := by
  rcases h.head hc with hspace | rfl | rfl | rfl
  · exact isFieldChar_of_isSpace hspace
  all_goals decide

/-- No colon follows a value. -/
theorem Closes.skipBlanks_ne {rest : List Char} (h : Closes rest) (r : List Char) :
    skipBlanks rest ≠ ':' :: r := by
  obtain ⟨blanks, r', rfl, hr⟩ := h
  rw [skipBlanks_blanks]
  cases r' with
  | nil => simp [skipBlanks]
  | cons c r' =>
      have hc := hr c rfl
      have hblank : isAsciiBlank c = false := by rcases hc with rfl | rfl | rfl <;> decide
      rw [skipBlanks_cons hblank]
      rintro ⟨⟩
      exact absurd hc (by decide)

/-! ## Occurrences of a quoted name -/

variable {name : List Char}

/-- The characters of an occurrence without a colon are passed over. -/
theorem afterName?_skip (name front cs : List Char) :
    afterName? name front.length (front ++ cs) = afterName? name 0 cs := by
  induction front with
  | nil => rfl
  | cons c front ih => simpa [afterName?] using ih

/-- In a text without quotes nothing occurs. -/
theorem afterName?_append {text : List Char} (h : '"' ∉ text) (cs : List Char) :
    afterName? (quoted name) 0 (text ++ cs) = afterName? (quoted name) 0 cs := by
  induction text with
  | nil => rfl
  | cons c text ih =>
      obtain ⟨hc, htext⟩ := not_or.1 (mt List.mem_cons.2 h)
      have hstrip : stripPrefix? (quoted name) (c :: (text ++ cs)) = none := by
        simp [quoted, stripPrefix?, hc]
      rw [List.cons_append, afterName?, hstrip]
      exact ih htext

/-- The name does not begin with the quote behind a string. -/
theorem afterName?_quote (hne : name ≠ []) (hname : ∀ c ∈ name, isFieldChar c)
    {rest : List Char} (hrest : ∀ c ∈ rest.head?, isFieldChar c = false) :
    afterName? (quoted name) 0 ('"' :: rest) = afterName? (quoted name) 0 rest := by
  obtain ⟨n, ns, rfl⟩ := List.exists_cons_of_ne_nil hne
  have hstrip : stripPrefix? (quoted (n :: ns)) ('"' :: rest) = none := by
    cases rest with
    | nil => rfl
    | cons c rest =>
        have hc : n ≠ c := by
          rintro rfl
          exact absurd (hname n List.mem_cons_self) (by simp [hrest n rfl])
        simp [quoted, stripPrefix?, hc]
  rw [afterName?, hstrip]

/-- A string other than the name begins with no occurrence of it. -/
theorem stripPrefix?_quoted (hname : '"' ∉ name) {literal : List Char} (hliteral : '"' ∉ literal)
    (hne : literal ≠ name) (rest : List Char) :
    stripPrefix? (quoted name) (quoted literal ++ rest) = none := by
  cases hstrip : stripPrefix? (quoted name) (quoted literal ++ rest) with
  | none => rfl
  | some r =>
      have heq : literal ++ '"' :: rest = name ++ '"' :: r := by
        simpa [quoted] using eq_append_of_stripPrefix? hstrip
      have hcut := congrArg (cutChar? '"') heq
      rw [cutChar?_append hliteral, cutChar?_append hname] at hcut
      exact absurd (Prod.mk.inj (Option.some.inj hcut)).1 hne

/-- A name that fields of plain characters may have. -/
structure IsFieldName (name : List Char) : Prop where
  ne_nil : name ≠ []
  isFieldChar : ∀ c ∈ name, isFieldChar c

theorem IsFieldName.quote_not_mem (h : IsFieldName name) : '"' ∉ name := fun hmem =>
  absurd (h.isFieldChar '"' hmem) (by decide)

/-- An occurrence with a colon behind it is found. -/
theorem afterName?_eq_some {cs rest r : List Char}
    (hstrip : stripPrefix? (quoted name) cs = some rest) (hskip : skipBlanks rest = ':' :: r) :
    afterName? (quoted name) 0 cs = some r := by
  cases cs with
  | nil => cases hstrip
  | cons c cs =>
      rw [afterName?, hstrip]
      dsimp only
      rw [hskip]
      rfl

/-- An occurrence without a colon behind it is passed over. -/
theorem afterName?_of_ne {cs rest : List Char}
    (hstrip : stripPrefix? (quoted name) cs = some rest)
    (hcolon : ∀ r, skipBlanks rest ≠ ':' :: r) :
    afterName? (quoted name) 0 cs = afterName? (quoted name) 0 rest := by
  cases cs with
  | nil => cases hstrip
  | cons c cs =>
      obtain rfl : cs = (name ++ ['"']) ++ rest :=
        (List.cons.inj (eq_append_of_stripPrefix? hstrip)).2
      have hlength : (quoted name).length - 1 = (name ++ ['"']).length := by simp [quoted]
      rw [afterName?, hstrip]
      dsimp only
      split
      next r hskip => exact absurd hskip (hcolon r)
      next => rw [hlength, afterName?_skip]

/-- A string without a colon behind it is passed over, whether it is the name or not. -/
theorem afterName?_string (h : IsFieldName name) {literal : StringLiteral}
    (hliteral : '"' ∉ literal.chars) {rest : List Char}
    (hrest : ∀ c ∈ rest.head?, isFieldChar c = false)
    (hcolon : literal.chars = name → ∀ r, skipBlanks rest ≠ ':' :: r) :
    afterName? (quoted name) 0 (literal.render ++ rest) = afterName? (quoted name) 0 rest := by
  have htext := literal.render_append rest
  by_cases heq : literal.chars = name
  · have hstrip : stripPrefix? (quoted name) (literal.render ++ rest) = some rest := by
      rw [StringLiteral.render, heq]
      exact stripPrefix?_append (quoted name) rest
    exact afterName?_of_ne hstrip (hcolon heq)
  · have hstrip := stripPrefix?_quoted h.quote_not_mem hliteral heq rest
    rw [show quoted literal.chars ++ rest = literal.render ++ rest from rfl, htext] at hstrip
    rw [htext, afterName?, hstrip]
    dsimp only
    rw [afterName?_append hliteral, afterName?_quote h.ne_nil h.isFieldChar hrest]

theorem quote_not_mem_blanks (b : Blanks) : '"' ∉ b.chars := fun h =>
  absurd (b.isSpace '"' h) (by decide)

/-- The key with the name is found. -/
theorem afterName?_label (label : Label) (rest : List Char) :
    afterName? (quoted label.key.chars) 0 (label.render ++ rest) =
      some (label.gap.chars ++ rest) := by
  have htext : label.render ++ rest = label.before.chars ++ (quoted label.key.chars ++
      (label.behind.chars ++ ':' :: (label.gap.chars ++ rest))) := by
    simp [Label.render, StringLiteral.render, quoted]
  rw [htext, afterName?_append (quote_not_mem_blanks _)]
  refine afterName?_eq_some (stripPrefix?_append _ _) ?_
  rw [skipBlanks_blanks, skipBlanks_cons (by decide)]

/-- A key with another name is passed over. -/
theorem afterName?_label_of_ne (h : IsFieldName name) {label : Label}
    (hkey : '"' ∉ label.key.chars) (hne : label.key.chars ≠ name) (rest : List Char) :
    afterName? (quoted name) 0 (label.render ++ rest) = afterName? (quoted name) 0 rest := by
  have htext : label.render ++ rest = label.before.chars ++ (label.key.render ++
      ((label.behind.chars ++ ':' :: label.gap.chars) ++ rest)) := by
    simp [Label.render]
  have hquote : '"' ∉ label.behind.chars ++ ':' :: label.gap.chars := by
    simp [quote_not_mem_blanks]
  have hhead : ∀ c ∈ ((label.behind.chars ++ ':' :: label.gap.chars) ++ rest).head?,
      isFieldChar c = false := by
    intro c hc
    cases hbehind : label.behind.chars with
    | nil =>
        rw [hbehind] at hc
        cases hc
        decide
    | cons b bs =>
        rw [hbehind] at hc
        cases hc
        exact isFieldChar_of_isSpace (label.behind.isSpace c (by simp [hbehind]))
  rw [htext, afterName?_append (quote_not_mem_blanks _),
    afterName?_string h hkey hhead fun heq => absurd heq hne, afterName?_append hquote]

/-! ## The members of a document -/

/-- In a part of a document, the search for a name finds the first of some members that has it,
and otherwise goes on behind the part. -/
def Finds (name text : List Char) (members : List (List Char × Source)) : Prop :=
  ∀ rest, Closes rest → match members.lookup name with
    | none => afterName? (quoted name) 0 (text ++ rest) = afterName? (quoted name) 0 rest
    | some value => ∃ (gap : Blanks) (tail : List Char), Closes tail ∧
        afterName? (quoted name) 0 (text ++ rest) = some (gap.chars ++ value.render ++ tail)

theorem Finds.nothing {text : List Char} (h : '"' ∉ text) : Finds name text [] :=
  fun rest _ => afterName?_append h rest

theorem Finds.append_front {front text : List Char} {members : List (List Char × Source)}
    (hfront : '"' ∉ front) (h : Finds name text members) :
    Finds name (front ++ text) members := by
  intro rest hrest
  rw [List.append_assoc, afterName?_append hfront]
  exact h rest hrest

/-- Two parts one after the other, where the second may stand behind a value. -/
theorem Finds.append {text text' : List Char} {members members' : List (List Char × Source)}
    (h : Finds name text members) (hcloses : ∀ rest, Closes rest → Closes (text' ++ rest))
    (h' : Finds name text' members') : Finds name (text ++ text') (members ++ members') := by
  intro rest hrest
  have hfirst := h (text' ++ rest) (hcloses rest hrest)
  have hsecond := h' rest hrest
  rw [List.lookup_append, List.append_assoc]
  cases hlookup : members.lookup name with
  | none =>
      rw [hlookup] at hfirst
      dsimp only at hfirst
      rw [Option.none_or, hfirst]
      exact hsecond
  | some value =>
      rw [hlookup] at hfirst
      exact hfirst

/-- What stands behind a value in its container. -/
theorem Finds.append_back {text : List Char} {members : List (List Char × Source)}
    (h : Finds name text members) {back : List Char} (hback : '"' ∉ back)
    (hcloses : ∀ rest, Closes rest → Closes (back ++ rest)) :
    Finds name (text ++ back) members := by
  have hnil := h.append hcloses (.nothing hback)
  rwa [List.append_nil] at hnil

theorem Finds.member (h : IsFieldName name) {label : Label} {value : Source}
    (hkey : '"' ∉ label.key.chars) (hvalue : Finds name value.render value.members) :
    Finds name (label.render ++ value.render) ((label.key.chars, value) :: value.members) := by
  intro rest hrest
  rw [List.append_assoc]
  by_cases heq : label.key.chars = name
  · subst heq
    rw [List.lookup_cons_self]
    refine ⟨label.gap, rest, hrest, ?_⟩
    rw [afterName?_label, List.append_assoc]
  · have hne : (name == label.key.chars) = false := by simpa using Ne.symm heq
    rw [List.lookup_cons, hne, afterName?_label_of_ne h hkey heq]
    exact hvalue rest hrest

/-- A part goes on behind a value with a comma. -/
theorem Finds.append_comma {text text' : List Char} {members members' : List (List Char × Source)}
    (h : Finds name text members) (h' : Finds name text' members') :
    Finds name (text ++ ',' :: text') (members ++ members') := by
  have hcomma : '"' ∉ [','] := by decide
  exact h.append (fun _ _ => closes_cons (.inl rfl) _) (.append_front hcomma h')

theorem Finds.append_blanks {text : List Char} {members : List (List Char × Source)}
    (h : Finds name text members) (b : Blanks) : Finds name (text ++ b.chars) members :=
  h.append_back (quote_not_mem_blanks b) fun _ hrest => hrest.append_blanks b

/-- What a container holds, and then its brackets. -/
theorem Finds.enclose {text : List Char} {members : List (List Char × Source)} {o c : Char}
    (hoc : Brackets o c) (h : Finds name text members) :
    Finds name (o :: text ++ [c]) members := by
  have hopening : '"' ∉ [o] := by cases hoc <;> decide
  have hclosing : '"' ∉ [c] := by cases hoc <;> decide
  have hcloses : c = ',' ∨ c = ']' ∨ c = '}' := by cases hoc <;> decide
  exact (h.append_front hopening).append_back hclosing fun rest _ => closes_cons hcloses rest

theorem Finds.scalar (literal : ScalarLiteral) : Finds name literal.chars [] :=
  .nothing fun h => absurd (literal.wellFormed.chars.2 _ h) (by decide)

theorem Finds.string (h : IsFieldName name) {literal : StringLiteral}
    (hliteral : '"' ∉ literal.chars) : Finds name literal.render [] := fun _ hrest =>
  afterName?_string h hliteral (fun _ hc => hrest.isFieldChar hc) fun _ => hrest.skipBlanks_ne

mutual

theorem finds_source (h : IsFieldName name) :
    (s : Source) → (∀ literal ∈ s.literals, '"' ∉ literal) → Finds name s.render s.members
  | .scalar literal, _ => .scalar literal
  | .string literal, hquote => .string h (hquote literal.chars (by simp [Source.literals]))
  | .emptyArray blanks, _ => .enclose .square (.nothing (quote_not_mem_blanks blanks))
  | .array items, hquote => .enclose .square (finds_items h items hquote)
  | .emptyObject blanks, _ => .enclose .curly (.nothing (quote_not_mem_blanks blanks))
  | .object members, hquote => .enclose .curly (finds_members h members hquote)

theorem finds_items (h : IsFieldName name) :
    (items : Items) → (∀ literal ∈ items.literals, '"' ∉ literal) →
      Finds name items.render items.members
  | .last before item behind, hquote => by
      have hitem := finds_source h item hquote
      exact (hitem.append_front (quote_not_mem_blanks before)).append_blanks behind
  | .more before item behind rest, hquote => by
      obtain ⟨hitems, hrest⟩ := List.forall_mem_append.1 hquote
      have hitem := finds_source h item hitems
      have hfront := (hitem.append_front (quote_not_mem_blanks before)).append_blanks behind
      exact hfront.append_comma (finds_items h rest hrest)

theorem finds_members (h : IsFieldName name) :
    (members : Members) → (∀ literal ∈ members.literals, '"' ∉ literal) →
      Finds name members.render members.members
  | .last label value behind, hquote => by
      obtain ⟨hkey, hvalues⟩ := List.forall_mem_cons.1 hquote
      have hvalue := finds_source h value hvalues
      exact (Finds.member h hkey hvalue).append_blanks behind
  | .more label value behind rest, hquote => by
      obtain ⟨hmember, hrest⟩ := List.forall_mem_append.1 hquote
      obtain ⟨hkey, hvalues⟩ := List.forall_mem_cons.1 hmember
      have hvalue := finds_source h value hvalues
      have hfront := (Finds.member h hkey hvalue).append_blanks behind
      exact hfront.append_comma (finds_members h rest hrest)

end

/-! ## Fields -/

/-- The field of a name is the first member that has it. -/
theorem field_render (h : IsFieldName name) (s : Source)
    (hquote : s.NoEscapedQuote) :
    field name s.render = match s.members.lookup name with
      | none => .error (.noField (String.ofList name))
      | some value => .ok value.render := by
  have hfinds := finds_source h s hquote [] closes_nil
  rw [List.append_nil] at hfinds
  rw [field, show '"' :: name ++ ['"'] = quoted name from rfl]
  cases hlookup : s.members.lookup name with
  | none =>
      rw [hlookup] at hfinds
      dsimp only at hfinds ⊢
      rw [hfinds]
      rfl
  | some value =>
      rw [hlookup] at hfinds
      obtain ⟨gap, tail, htail, hafter⟩ := hfinds
      have hgap : ∀ c ∈ gap.chars, isAsciiBlank c := fun c hc =>
        isAsciiBlank_of_isSpace (gap.isSpace c hc)
      rw [hafter]
      dsimp only
      rw [value?_render value hgap htail.ends]

end Stencil.JsonPath
