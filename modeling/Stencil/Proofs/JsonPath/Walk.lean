import Stencil.Proofs.Json.Reader
import Stencil.Proofs.JsonPath.Path
import Stencil.Proofs.JsonPath.Search

/-!
# Values at JSON paths in documents

What `extract` finds by scanning a text is what a walk over the document finds
(`extract_eq_walk`): a field leads to the first member with that key, in the order of the text and
at any depth, an index to an item of an array. The result is the text of the value the walk ends
at, without the quotes of a string, and there is an error where the walk has a step that leads
nowhere. This holds of all texts that are read as documents and whose strings hold no escaped
quote. With one, a part of a string can be taken for a key.
-/

namespace Stencil.JsonPath

open Text Json

/-! ## The walk -/

/-- The value of the first member with a name. -/
def memberOf (name : List Char) (s : Source) : Except Error Source :=
  match s.members.lookup name with
  | none => .error (.noField (String.ofList name))
  | some value => .ok value

/-- The item of an array at an index; `name` is the field that an error names. -/
def itemOf (name : List Char) (index : Nat) (s : Source) : Except Error Source :=
  match s.items? with
  | none => .error (.notArray (String.ofList name))
  | some items =>
    match items[index]? with
    | none => .error (.outOfBounds index (String.ofList name))
    | some item => .ok item

/-- The field of a segment; an empty one stays where it is. -/
def selectField (name : List Char) (s : Source) : Except Error Source :=
  if name = [] then .ok s else memberOf name s

/-- The index of a segment with a field. -/
def selectIndex (name : List Char) (index? : Option Nat) (s : Source) : Except Error Source :=
  match index? with
  | none => .ok s
  | some index => itemOf name index s

/-- One segment of a path. -/
def select (segment : Segment) (s : Source) : Except Error Source := do
  selectIndex segment.field segment.index (← selectField segment.field s)

/-- All segments of a path, one after the other. -/
def walk : List Segment → Source → Except Error Source
  | [], s => .ok s
  | segment :: rest, s => do walk rest (← select segment s)

/-- The text of a document, without the quotes of a string. -/
def shown : Source → List Char
  | .string literal => literal.chars
  | s => s.render

/-- A segment of a path whose field is a plain name and whose index fits 64 bits; it may be an
index alone. -/
structure Segment.Plain (segment : Segment) : Prop where
  isFieldChar : ∀ c ∈ segment.field, isFieldChar c
  bound : ∀ index ∈ segment.index, index < 18446744073709551616
  nonempty : segment.field = [] → segment.index.isSome

/-- A path is written with a point behind the dollar sign, which may be left out in front of an
index and where nothing follows. -/
def Spells (path : List Char) (segments : List Segment) : Prop :=
  path = render segments ∨
    (∀ segment ∈ segments.head?, segment.field = []) ∧ path = '$' :: joined segments

/-! ## Items -/

/-- What `item` does behind an item: it was counted, and a comma must follow for another one. -/
def itemBehind (name : String) (number : Nat) (value rest : List Char) :
    (index : Nat) → Except Error (List Char)
  | 0 => .ok value
  | index + 1 =>
    match skipBlanks rest with
    | ',' :: rest => item name number index rest
    | ']' :: _ => .error (.outOfBounds number name)
    | [] => .error (.outOfBounds number name)
    | _ => .error (.notArray name)

/-- Where no closing bracket stands, an item is taken. -/
theorem item_of_ne {c : Char} {cs r : List Char} (hskip : skipBlanks cs = c :: r) (hc : c ≠ ']')
    (name : String) (number index : Nat) :
    item name number index cs = match value? (c :: r) with
      | none => .error (.notArray name)
      | some (value, rest) => itemBehind name number value rest index := by
  rw [item, hskip]
  split
  next hnil => cases hnil
  next r hclosing => exact absurd (List.cons.inj hclosing).1 hc
  next =>
    cases value? (c :: r) with
    | none => rfl
    | some parts => cases index <;> rfl

theorem itemBehind_of_ne {c : Char} {rest r : List Char} (hskip : skipBlanks rest = c :: r)
    (hcomma : c ≠ ',') (hclosing : c ≠ ']') (name : String) (number : Nat) (value : List Char)
    (index : Nat) :
    itemBehind name number value rest (index + 1) = .error (.notArray name) := by
  rw [itemBehind, hskip]
  split
  next r heq => exact absurd (List.cons.inj heq).1 hcomma
  next r heq => exact absurd (List.cons.inj heq).1 hclosing
  next hnil => cases hnil
  next => rfl

/-- An item is taken whole. -/
theorem item_append (name : String) (number index : Nat) (before : Blanks) (s : Source)
    {rest : List Char} (h : Ends rest) :
    item name number index (before.chars ++ s.render ++ rest) =
      itemBehind name number s.render rest index := by
  have hvalue : value? (s.render ++ rest) = some (s.render, rest) :=
    value?_render s (List.forall_mem_nil _) h
  obtain ⟨c, cs, hcons, hblank⟩ := s.render_eq_cons
  have hskip : skipBlanks (before.chars ++ s.render ++ rest) = c :: (cs ++ rest) := by
    rw [List.append_assoc, skipBlanks_blanks, skipBlanks_render, hcons, List.cons_append]
  rw [hcons, List.cons_append] at hvalue
  have hclosing : c ≠ ']' := by
    rintro rfl
    rw [value?, skipBlanks_cons (by decide)] at hvalue
    cases hvalue
  rw [item_of_ne hskip hclosing, hvalue, hcons]

/-- The items of an array are counted between its commas. -/
theorem item_render (name : String) (number : Nat) (rest : List Char) :
    (items : Items) → (index : Nat) → item name number index (items.render ++ ']' :: rest) =
      match items.toList[index]? with
      | none => .error (.outOfBounds number name)
      | some s => .ok s.render
  | .last before s behind, index => by
      have hcloses : Closes (behind.chars ++ ']' :: rest) :=
        (closes_cons (.inr (.inl rfl)) rest).append_blanks behind
      rw [Items.render, List.append_assoc, item_append name number index before s hcloses.ends]
      cases index with
      | zero => rfl
      | succ index =>
          rw [itemBehind, skipBlanks_blanks, skipBlanks_cons (by decide)]
          rfl
  | .more before s behind items, index => by
      have hcloses : Closes (behind.chars ++ ',' :: (items.render ++ ']' :: rest)) :=
        (closes_cons (.inl rfl) _).append_blanks behind
      have htext : (Items.more before s behind items).render ++ ']' :: rest =
          before.chars ++ s.render ++ (behind.chars ++ ',' :: (items.render ++ ']' :: rest)) := by
        simp [Items.render]
      rw [htext, item_append name number index before s hcloses.ends]
      cases index with
      | zero => rfl
      | succ index =>
          rw [itemBehind, skipBlanks_blanks, skipBlanks_cons (by decide)]
          exact item_render name number rest items index

theorem element_of_ne {c : Char} {cs r : List Char} (hskip : skipBlanks cs = c :: r)
    (hc : c ≠ '[') (name : List Char) (index : Nat) :
    element name index cs = .error (.notArray (String.ofList name)) := by
  rw [element, hskip]
  split
  next r heq => exact absurd (List.cons.inj heq).1 hc
  next => rfl

/-- The items of an array are found behind blanks, and whatever follows the array. -/
theorem element_append {s : Source} {items : List Source} (hitems : s.items? = some items)
    {front : List Char} (hfront : ∀ c ∈ front, isAsciiBlank c) (rest name : List Char)
    (index : Nat) :
    element name index (front ++ s.render ++ rest) =
      match items[index]? with
      | none => .error (.outOfBounds index (String.ofList name))
      | some item => .ok item.render := by
  have hskip : skipBlanks (front ++ s.render ++ rest) = s.render ++ rest := by
    rw [List.append_assoc, skipBlanks_append hfront, skipBlanks_render]
  rw [element, hskip]
  cases s with
  | emptyArray blanks =>
      cases hitems
      have htext : (Source.emptyArray blanks).render ++ rest =
          '[' :: (blanks.chars ++ ']' :: rest) := by simp [Source.render]
      rw [htext]
      change item (String.ofList name) index index (blanks.chars ++ ']' :: rest) = _
      rw [item, skipBlanks_blanks, skipBlanks_cons (by decide)]
      rfl
  | array items =>
      cases hitems
      have htext : (Source.array items).render ++ rest = '[' :: (items.render ++ ']' :: rest) := by
        simp [Source.render]
      rw [htext]
      exact item_render (String.ofList name) index rest items index
  | _ => cases hitems

/-- Where a document is no array, its text does not begin with the bracket of one. -/
theorem element_render (name : List Char) (index : Nat) (s : Source) :
    element name index s.render = (itemOf name index s).map Source.render := by
  have hskip := skipBlanks_render s []
  rw [List.append_nil] at hskip
  have harray : ∀ items, s.items? = some items →
      element name index s.render = (itemOf name index s).map Source.render := by
    intro items hitems
    have happend := element_append hitems (List.forall_mem_nil _) [] name index
    rw [List.nil_append, List.append_nil] at happend
    rw [happend, itemOf, hitems]
    dsimp only
    cases items[index]? <;> rfl
  cases s with
  | scalar literal =>
      obtain ⟨hne, hall⟩ := literal.wellFormed.chars
      obtain ⟨c, cs, hcons⟩ := List.exists_cons_of_ne_nil hne
      have hc : c ≠ '[' := ne_of_isScalarChar (hall c (by simp [hcons])) (by decide)
      rw [element_of_ne (hskip.trans hcons) hc]
      rfl
  | string literal => exact element_of_ne hskip (by decide) name index
  | emptyArray blanks => exact harray [] rfl
  | array items => exact harray items.toList rfl
  | emptyObject blanks => exact element_of_ne hskip (by decide) name index
  | object members => exact element_of_ne hskip (by decide) name index

/-! ## Steps -/

theorem field_eq_memberOf {name : List Char} (h : IsFieldName name) {s : Source}
    (hquote : s.NoEscapedQuote) : field name s.render = (memberOf name s).map Source.render := by
  rw [field_render h s hquote, memberOf]
  cases s.members.lookup name <;> rfl

theorem memberOf_noEscapedQuote {name : List Char} {s value : Source}
    (h : memberOf name s = .ok value) (hquote : s.NoEscapedQuote) : value.NoEscapedQuote := by
  unfold memberOf at h
  split at h
  · cases h
  next v hlookup =>
    cases h
    obtain ⟨front, back, hsplit, -⟩ := List.lookup_eq_some_iff.1 hlookup
    have hmem : (name, value) ∈ s.members := by simp [hsplit]
    exact fun literal hliteral => hquote literal (Source.mem_literals hmem literal hliteral)

theorem itemOf_noEscapedQuote {name : List Char} {index : Nat} {s value : Source}
    (h : itemOf name index s = .ok value) (hquote : s.NoEscapedQuote) :
    value.NoEscapedQuote := by
  unfold itemOf at h
  split at h
  · cases h
  next items hitems =>
    split at h
    · cases h
    next item hitem =>
      cases h
      have hmem := List.mem_of_getElem? hitem
      exact fun literal hliteral =>
        hquote literal (Source.mem_literals_of_items? hitems hmem literal hliteral)

theorem select_noEscapedQuote {segment : Segment} {s value : Source}
    (h : select segment s = .ok value) (hquote : s.NoEscapedQuote) : value.NoEscapedQuote := by
  unfold select at h
  cases hfield : selectField segment.field s with
  | error err =>
      rw [hfield] at h
      cases h
  | ok v =>
      rw [hfield] at h
      have hv : v.NoEscapedQuote := by
        unfold selectField at hfield
        split at hfield
        · cases hfield
          exact hquote
        · exact memberOf_noEscapedQuote hfield hquote
      change selectIndex segment.field segment.index v = .ok value at h
      unfold selectIndex at h
      split at h
      · cases h
        exact hv
      · exact itemOf_noEscapedQuote h hv

theorem Segment.Plain.isFieldName {segment : Segment} (h : segment.Plain)
    (hne : segment.field ≠ []) : IsFieldName segment.field := ⟨hne, h.isFieldChar⟩

theorem step_render {segment : Segment} (h : segment.Plain) {s : Source}
    (hquote : s.NoEscapedQuote) : step segment s.render = (select segment s).map Source.render := by
  have hindex : ∀ value : Source, (match segment.index with
      | none => .ok value.render
      | some index => element segment.field index value.render) =
      (selectIndex segment.field segment.index value).map Source.render := by
    intro value
    cases segment.index with
    | none => rfl
    | some index => exact element_render segment.field index value
  rw [step, select, selectField]
  split
  · exact hindex s
  next hne =>
    rw [field_eq_memberOf (h.isFieldName hne) hquote]
    cases memberOf segment.field s with
    | error err => rfl
    | ok value => exact hindex value

theorem follow_render {segments : List Segment} (h : ∀ segment ∈ segments, segment.Plain)
    {s : Source} (hquote : s.NoEscapedQuote) :
    follow segments s.render = (walk segments s).map Source.render := by
  induction segments generalizing s with
  | nil => rfl
  | cons segment rest ih =>
      obtain ⟨hsegment, hrest⟩ := List.forall_mem_cons.1 h
      rw [follow, walk, step_render hsegment hquote]
      cases hselect : select segment s with
      | error err => rfl
      | ok value => exact ih hrest (select_noEscapedQuote hselect hquote)

/-! ## Whole texts -/

theorem stripQuotes_render (s : Source) : stripQuotes s.render = shown s := by
  cases s with
  | scalar literal =>
      obtain ⟨hne, hall⟩ := literal.wellFormed.chars
      obtain ⟨c, cs, hcons⟩ := List.exists_cons_of_ne_nil hne
      have hc : c ≠ '"' := ne_of_isScalarChar (hall c (by simp [hcons])) (by decide)
      change stripQuotes literal.chars = literal.chars
      rw [hcons, stripQuotes]
      rintro r ⟨⟩
      exact hc rfl
  | string literal =>
      change stripQuotes ('"' :: (literal.chars ++ ['"'])) = literal.chars
      rw [stripQuotes, if_pos List.getLast?_concat, List.dropLast_concat]
  | emptyArray blanks => rfl
  | array items => rfl
  | emptyObject blanks => rfl
  | object members => rfl

/-- The characters of plain names end no field. -/
theorem Segment.Plain.wellFormed {segment : Segment} (h : segment.Plain) :
    segment.WellFormed where
  marks c hc := by
    have hplain := h.isFieldChar c hc
    refine ⟨?_, ?_, ?_⟩ <;> rintro rfl <;> exact absurd hplain (by decide)
  last c hc := by
    have hplain := h.isFieldChar c (List.mem_of_mem_getLast? hc)
    simp only [JsonPath.isFieldChar, Bool.or_eq_true, beq_iff_eq] at hplain
    rcases hplain with (halphanum | rfl) | rfl
    · exact isBlank_of_isAlphanum halphanum
    all_goals decide
  bound := h.bound
  nonempty := h.nonempty

theorem parse_of_spells {path : List Char} {segments : List Segment}
    (hpath : Spells path segments) (h : ∀ segment ∈ segments, segment.Plain) :
    parse path = .ok segments := by
  have hreadable : Readable segments :=
    readable_of_wellFormed fun segment hmem => (h segment hmem).wellFormed
  rcases hpath with rfl | ⟨hbare, rfl⟩
  · exact hreadable.parse_render
  · exact hreadable.parse_joined (.inr ⟨rfl, hbare⟩)

theorem extract_render {s : Source} (hquote : s.NoEscapedQuote) (front back : Blanks)
    {segments : List Segment} (h : ∀ segment ∈ segments, segment.Plain) {path : List Char}
    (hpath : Spells path segments) :
    extract (String.ofList (front.chars ++ s.render ++ back.chars)) (String.ofList path) =
      (walk segments s).map fun value => String.ofList (shown value) := by
  rw [extract, String.toList_ofList, String.toList_ofList, parse_of_spells hpath h,
    s.trim_render front back]
  change (follow segments s.render >>= fun value => _) = _
  rw [follow_render h hquote]
  cases walk segments s with
  | error err => rfl
  | ok value => exact congrArg (fun cs => Except.ok (String.ofList cs)) (stripQuotes_render value)

/-- A text that is read as a document is the text of one, with blanks around it. Unless there is an
escaped quote in it, what is extracted from the text at a path is what the walk over the document
ends at. -/
theorem extract_eq_walk {body : String} {j : Json} (hbody : Json.parse? body = some j) :
    (∃ (front back : Blanks) (s : Source),
      body.toList = front.chars ++ s.render ++ back.chars ∧ s.toJson = j) ∧
    ∀ (front back : Blanks) (s : Source), body.toList = front.chars ++ s.render ++ back.chars →
      s.NoEscapedQuote → ∀ segments : List Segment, (∀ segment ∈ segments, segment.Plain) →
      ∀ path, Spells path segments →
        extract body (String.ofList path) =
          (walk segments s).map fun value => String.ofList (shown value) := by
  refine ⟨Json.parse?_eq_some_iff.1 hbody, ?_⟩
  intro front back s htext hquote segments hplain path hpath
  have hextract := extract_render hquote front back hplain hpath
  rwa [← htext, String.ofList_toList] at hextract

/-- A name that is also a string, brackets in strings, and a backslash in front of a quote. -/
theorem extract_eq_walk_nested :
    let space : Blanks := ⟨[' '], List.all_eq_true.1 (by decide)⟩
    let nothing : Blanks := ⟨[], List.all_eq_true.1 (by decide)⟩
    let name : StringLiteral := ⟨['x', '-', '1'], .of_forall (by simp)⟩
    let bracket : StringLiteral := ⟨[']', '\\', '\\'],
      .char (by decide) (by decide) (by decide) (.escape (by decide) .nil)⟩
    let items : Items := .more nothing (.emptyArray space) nothing
      (.last space (.string bracket) nothing)
    let object : Source := .object (.more ⟨nothing, bracket, nothing, nothing⟩ (.string name) nothing
      (.last ⟨space, name, space, space⟩ (.array items) nothing))
    let s : Source := .array (.more nothing (.string name) space (.last space object nothing))
    let segments : List Segment := [⟨[], some 1⟩, ⟨name.chars, some 1⟩]
    let body := "[\"x-1\" , \x7b\"]\\\\\":\"x-1\", \"x-1\" : [[ ], \"]\\\\\"]\x7d] "
    let path : List Char := ['$', '[', '1', ']', '.', 'x', '-', '1', '[', '1', ']']
    Json.parse? body = some s.toJson ∧ s.NoEscapedQuote ∧
    (∀ segment ∈ segments, segment.Plain) ∧ Spells path segments ∧
    extract body (String.ofList path) = .ok "]\\\\" := by
  intro space nothing name bracket items object s segments body path
  have htext : body.toList = nothing.chars ++ s.render ++ space.chars := by decide +kernel
  have hbody : Json.parse? body = some s.toJson :=
    Json.parse?_eq_some_iff.2 ⟨nothing, space, s, htext, rfl⟩
  have hquote : s.NoEscapedQuote := by decide
  have hplain : ∀ segment ∈ segments, segment.Plain := by
    rw [List.forall_mem_cons, List.forall_mem_cons]
    have hname : ∀ c ∈ name.chars, isFieldChar c := List.all_eq_true.1 (by decide)
    have hbound : ∀ index ∈ some 1, index < 18446744073709551616 := by rintro index ⟨⟩; decide
    exact ⟨⟨by simp, hbound, by simp⟩, ⟨hname, hbound, by simp⟩, by simp⟩
  have hpath : Spells path segments := .inr ⟨by rintro segment ⟨⟩; rfl, by decide⟩
  refine ⟨hbody, hquote, hplain, hpath, ?_⟩
  rw [(extract_eq_walk hbody).2 nothing space s htext hquote segments hplain path hpath]
  rfl

end Stencil.JsonPath
