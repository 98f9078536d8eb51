import Stencil.Json.Printer
import Stencil.Proofs.Json.Quoted
import Stencil.Proofs.Json.Reader

/-!
# Reading what was written

A document whose literals are well formed, written in any style, is the text of a `Source`
(`exists_source`): the line breaks and the indentation are blanks between its tokens. So it is read
back as it was, from its indented lines (`parse?_pretty`) and from the text without blanks
(`parse?_compact`).
-/

namespace Stencil.Json

/-- The documents that can be written: their numbers and strings are well formed. -/
inductive WellFormed : Json → Prop
  | null : WellFormed .null
  | bool (b : Bool) : WellFormed (.bool b)
  | number {literal : List Char} : (Number.ofLiteral? literal).isSome →
      WellFormed (.number literal)
  | string {literal : List Char} : IsStringLiteral literal → WellFormed (.string literal)
  | array {items : List Json} : (∀ item ∈ items, WellFormed item) → WellFormed (.array items)
  | object {members : List (List Char × Json)} : (∀ m ∈ members, IsStringLiteral m.1) →
      (∀ m ∈ members, WellFormed m.2) → WellFormed (.object members)

theorem wellFormed_ofText (s : String) : (ofText s).WellFormed :=
  .string (Quoted.isStringLiteral_quote s.toList)

/-! ## Styles -/

def Blanks.none : Blanks := ⟨[], fun _ h => absurd h List.not_mem_nil⟩

def Blanks.one : Blanks := ⟨[' '], fun c hc => by rw [List.mem_singleton.1 hc]; rfl⟩

/-- A line feed and an indentation are blanks. -/
def Blanks.newline (level : Nat) : Blanks where
  chars := Json.newline level
  isSpace := by
    intro c hc
    rcases List.mem_cons.1 hc with rfl | hc
    · rfl
    · obtain rfl := List.eq_of_mem_replicate hc
      rfl

/-- The blanks of a way to write documents. -/
structure Style where
  /-- In front of what stands in a container or ends it, by its level. -/
  before : Nat → Blanks
  /-- Behind a colon. -/
  behind : Blanks

/-- One member or item on a line. -/
def Style.lines : Style := ⟨.newline, .one⟩

/-- No blanks at all. -/
def Style.dense : Style := ⟨fun _ => .none, .none⟩

mutual

/-- A document of a level in a style. -/
def writeAt (style : Style) (level : Nat) : Json → List Char
  | .null => ['n', 'u', 'l', 'l']
  | .bool b => writeBool b
  | .number literal => literal
  | .string literal => writeLiteral literal
  | .array [] => ['[', ']']
  | .array (item :: items) =>
    '[' :: (style.before (level + 1)).chars ++ writeAt style (level + 1) item ++
      writeItems style level items
  | .object [] => ['{', '}']
  | .object ((key, value) :: members) =>
    '{' :: (style.before (level + 1)).chars ++ writeLiteral key ++ ':' :: style.behind.chars ++
      writeAt style (level + 1) value ++ writeMembers style level members

/-- The items behind the first one, and the end of the array. -/
def writeItems (style : Style) (level : Nat) : List Json → List Char
  | [] => (style.before level).chars ++ [']']
  | item :: items =>
    ',' :: (style.before (level + 1)).chars ++ writeAt style (level + 1) item ++
      writeItems style level items

/-- The members behind the first one, and the end of the object. -/
def writeMembers (style : Style) (level : Nat) : List (List Char × Json) → List Char
  | [] => (style.before level).chars ++ ['}']
  | (key, value) :: members =>
    ',' :: (style.before (level + 1)).chars ++ writeLiteral key ++ ':' :: style.behind.chars ++
      writeAt style (level + 1) value ++ writeMembers style level members

end

mutual

theorem prettyAt_eq (level : Nat) : (j : Json) → prettyAt level j = writeAt .lines level j
  | .null | .bool _ | .number _ | .string _ | .array [] | .object [] => by rw [prettyAt, writeAt]
  | .array (item :: items) => by
      rw [prettyAt, writeAt, prettyAt_eq (level + 1) item, prettyItems_eq level items]
      rfl
  | .object ((key, value) :: members) => by
      rw [prettyAt, writeAt, prettyAt_eq (level + 1) value, prettyMembers_eq level members]
      simp [Style.lines, Blanks.newline, Blanks.one]

theorem prettyItems_eq (level : Nat) : (items : List Json) →
    prettyItems level items = writeItems .lines level items
  | [] => by rw [prettyItems, writeItems]; rfl
  | item :: items => by
      rw [prettyItems, writeItems, prettyAt_eq (level + 1) item, prettyItems_eq level items]
      rfl

theorem prettyMembers_eq (level : Nat) : (members : List (List Char × Json)) →
    prettyMembers level members = writeMembers .lines level members
  | [] => by rw [prettyMembers, writeMembers]; rfl
  | (key, value) :: members => by
      rw [prettyMembers, writeMembers, prettyAt_eq (level + 1) value,
        prettyMembers_eq level members]
      simp [Style.lines, Blanks.newline, Blanks.one]

end

mutual

theorem compact_eq (level : Nat) : (j : Json) → compact j = writeAt .dense level j
  | .null | .bool _ | .number _ | .string _ | .array [] | .object [] => by rw [compact, writeAt]
  | .array (item :: items) => by
      rw [compact, writeAt, compact_eq (level + 1) item, compactItems_eq level items]
      rfl
  | .object ((key, value) :: members) => by
      rw [compact, writeAt, compact_eq (level + 1) value, compactMembers_eq level members]
      simp [Style.dense, Blanks.none]

theorem compactItems_eq (level : Nat) : (items : List Json) →
    compactItems items = writeItems .dense level items
  | [] => by rw [compactItems, writeItems]; rfl
  | item :: items => by
      rw [compactItems, writeItems, compact_eq (level + 1) item, compactItems_eq level items]
      rfl

theorem compactMembers_eq (level : Nat) : (members : List (List Char × Json)) →
    compactMembers members = writeMembers .dense level members
  | [] => by rw [compactMembers, writeMembers]; rfl
  | (key, value) :: members => by
      rw [compactMembers, writeMembers, compact_eq (level + 1) value,
        compactMembers_eq level members]
      simp [Style.dense, Blanks.none]

end

/-! ## The text of a source -/

/-- A key, its colon, and the blanks of a style. -/
def Style.label (style : Style) (level : Nat) (key : StringLiteral) : Label :=
  ⟨style.before level, key, .none, style.behind⟩

theorem Style.render_label (style : Style) (level : Nat) (key : StringLiteral) :
    (style.label level key).render =
      (style.before level).chars ++ writeLiteral key.chars ++ ':' :: style.behind.chars := by
  simp [label, Label.render, Blanks.none, StringLiteral.render, writeLiteral]

mutual

/-- A well-formed document, written at a level, is the text of a source of the document. -/
theorem exists_source (style : Style) (level : Nat) : (j : Json) → j.WellFormed →
    ∃ s : Source, s.render = writeAt style level j ∧ s.toJson = j
  | .null, _ => ⟨.scalar ⟨_, .null⟩, rfl, rfl⟩
  | .bool true, _ => ⟨.scalar ⟨_, .true⟩, rfl, rfl⟩
  | .bool false, _ => ⟨.scalar ⟨_, .false⟩, rfl, rfl⟩
  | .number literal, .number hliteral => by
      refine ⟨.scalar ⟨literal, .number hliteral⟩, by rw [writeAt]; rfl, ?_⟩
      rw [Source.toJson, ScalarLiteral.toJson, Lexer.word?_of_number hliteral]
  | .string literal, .string hliteral => ⟨.string ⟨literal, hliteral⟩, by rw [writeAt]; rfl, rfl⟩
  | .array [], _ => ⟨.emptyArray .none, rfl, rfl⟩
  | .array (item :: items), .array h => by
      obtain ⟨hitem, hitems⟩ := List.forall_mem_cons.1 h
      obtain ⟨s, hs, hjson⟩ := exists_source style (level + 1) item hitem
      obtain ⟨source, hrender, hall⟩ :=
        exists_items style level items hitems (style.before (level + 1)) s
      refine ⟨.array source, ?_, by rw [Source.toJson, hall, hjson]⟩
      rw [Source.render, List.cons_append, hrender, hs, writeAt]
      rfl
  | .object [], _ => ⟨.emptyObject .none, rfl, rfl⟩
  | .object ((key, value) :: members), .object hkeys hvalues => by
      obtain ⟨hkey, hkeys⟩ := List.forall_mem_cons.1 hkeys
      obtain ⟨hvalue, hvalues⟩ := List.forall_mem_cons.1 hvalues
      obtain ⟨s, hs, hjson⟩ := exists_source style (level + 1) value hvalue
      obtain ⟨source, hrender, hall⟩ :=
        exists_members style level members hkeys hvalues (style.label (level + 1) ⟨key, hkey⟩) s
      refine ⟨.object source, ?_, by rw [Source.toJson, hall, hjson]; rfl⟩
      rw [Source.render, List.cons_append, hrender, hs, writeAt, Style.render_label]
      simp

/-- What is written behind an item is that of a source which has the item in front. -/
theorem exists_items (style : Style) (level : Nat) : (items : List Json) →
    (∀ item ∈ items, item.WellFormed) → ∀ (before : Blanks) (s : Source), ∃ source : Items,
      source.render ++ [']'] = before.chars ++ s.render ++ writeItems style level items ∧
      source.toJson = s.toJson :: items
  | [], _, before, s => by
      refine ⟨.last before s (style.before level), ?_, rfl⟩
      rw [Items.render, writeItems, List.append_assoc]
  | item :: items, h, before, s => by
      obtain ⟨hitem, hitems⟩ := List.forall_mem_cons.1 h
      obtain ⟨s', hs', hjson⟩ := exists_source style (level + 1) item hitem
      obtain ⟨source, hrender, hall⟩ :=
        exists_items style level items hitems (style.before (level + 1)) s'
      refine ⟨.more before s .none source, ?_, by rw [Items.toJson, hall, hjson]⟩
      rw [Items.render, List.append_assoc, List.cons_append, hrender, hs', writeItems]
      simp [Blanks.none]

theorem exists_members (style : Style) (level : Nat) : (members : List (List Char × Json)) →
    (∀ m ∈ members, IsStringLiteral m.1) → (∀ m ∈ members, m.2.WellFormed) →
    ∀ (label : Label) (s : Source), ∃ source : Members,
      source.render ++ ['}'] = label.render ++ s.render ++ writeMembers style level members ∧
      source.toJson = (label.key.chars, s.toJson) :: members
  | [], _, _, label, s => by
      refine ⟨.last label s (style.before level), ?_, rfl⟩
      rw [Members.render, writeMembers, List.append_assoc]
  | (key, value) :: members, hkeys, hvalues, label, s => by
      obtain ⟨hkey, hkeys⟩ := List.forall_mem_cons.1 hkeys
      obtain ⟨hvalue, hvalues⟩ := List.forall_mem_cons.1 hvalues
      obtain ⟨s', hs', hjson⟩ := exists_source style (level + 1) value hvalue
      obtain ⟨source, hrender, hall⟩ :=
        exists_members style level members hkeys hvalues (style.label (level + 1) ⟨key, hkey⟩) s'
      refine ⟨.more label s .none source, ?_, by rw [Members.toJson, hall, hjson]; rfl⟩
      rw [Members.render, List.append_assoc, List.cons_append, hrender, hs', writeMembers,
        Style.render_label]
      simp [Blanks.none]

end

/-- A well-formed document is read back from what is written of it in any style. -/
theorem parse?_writeAt (style : Style) (level : Nat) {j : Json} (h : j.WellFormed) :
    parse? (String.ofList (writeAt style level j)) = some j := by
  obtain ⟨s, hrender, hjson⟩ := exists_source style level j h
  refine parse?_eq_some_iff.2 ⟨.none, .none, s, ?_, hjson⟩
  simp [hrender, Blanks.none]

theorem parse?_pretty {j : Json} (h : j.WellFormed) :
    parse? (String.ofList j.pretty) = some j := by
  rw [pretty, prettyAt_eq, parse?_writeAt _ _ h]

theorem parse?_compact {j : Json} (h : j.WellFormed) :
    parse? (String.ofList j.compact) = some j := by
  rw [compact_eq 0, parse?_writeAt _ _ h]

/-- What is written of a document is not blank. -/
theorem trim_pretty_ne_nil {j : Json} (h : j.WellFormed) : Text.trim j.pretty ≠ [] := by
  obtain ⟨s, hrender, -⟩ := exists_source .lines 0 j h
  have htrim := s.trim_render .none .none
  simp only [Blanks.none, List.nil_append, List.append_nil, hrender] at htrim
  obtain ⟨c, cs, hcons, -⟩ := s.render_eq_cons
  rw [pretty, prettyAt_eq, htrim, ← hrender, hcons]
  exact List.cons_ne_nil c cs

end Stencil.Json
