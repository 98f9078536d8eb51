import Stencil.Json.Parser
import Stencil.Proofs.Json.Tokens

/-!
# The texts that are JSON documents

`parse?` gives a document for exactly those texts that are the text of a `Source`, with any blanks
around it, and the document it gives is the one that is written there (`parse?_eq_some_iff`). So
what is proved of all sources holds of all texts that can be read.

The machine that builds documents meets what follows a value before it knows the containers around
it. What must follow for the open containers to be closed is said by `Completes`, and what must
follow in any of its states by `Builder.Expects`: it is carried from the end of the text to its
beginning, one token at a time.
-/

namespace Stencil.Json

/-! ## The document that is written -/

/-- The document of a word or a number. -/
def ScalarLiteral.toJson (literal : ScalarLiteral) : Json :=
  match Lexer.word? literal.chars with
  | some .null => .null
  | some (.bool b) => .bool b
  | _ => .number literal.chars

mutual

/-- The document without the blanks of its text. -/
def Source.toJson : Source → Json
  | .scalar literal => literal.toJson
  | .string literal => .string literal.chars
  | .emptyArray _ => .array []
  | .array items => .array items.toJson
  | .emptyObject _ => .object []
  | .object members => .object members.toJson

def Items.toJson : Items → List Json
  | .last _ item _ => [item.toJson]
  | .more _ item _ rest => item.toJson :: rest.toJson

def Members.toJson : Members → List (List Char × Json)
  | .last label value _ => [(label.key.chars, value.toJson)]
  | .more label value _ rest => (label.key.chars, value.toJson) :: rest.toJson

end

namespace Builder

theorem run?_cons (state : Builder) (token : Token) (tokens : List Token) :
    run? state (token :: tokens) = (step state token).bind (run? · tokens) := by
  cases state with
  | done frames v => cases frames <;> rfl
  | _ => rfl

/-! ## From a document to its tokens and back -/

theorem stepValue_scalar (frames : List Frame) (literal : ScalarLiteral) :
    stepValue frames literal.token = some (done frames literal.toJson) := by
  obtain ⟨chars, h⟩ := literal
  cases h with
  | null => rfl
  | true => rfl
  | false => rfl
  | number h =>
      rw [ScalarLiteral.token, ScalarLiteral.toJson, Lexer.word?_of_number h]
      rfl

/-- A document does not begin with the end of an array. -/
theorem run?_firstItem_source (frames : List Frame) (s : Source) (rest : List Token) :
    run? (firstItem frames) (s.tokens ++ rest) =
      run? (value (.array [] :: frames)) (s.tokens ++ rest) := by
  have hstep : ∀ token, stepValue (.array [] :: frames) token ≠ none →
      step (firstItem frames) token = stepValue (.array [] :: frames) token := by
    intro token h
    cases token with
    | closeArray => exact absurd rfl h
    | _ => rfl
  cases s with
  | scalar literal =>
      have hscalar := stepValue_scalar (.array [] :: frames) literal
      change run? _ (literal.token :: rest) = run? _ (literal.token :: rest)
      rw [run?_cons, run?_cons, hstep _ (by simp [hscalar])]
      rfl
  | string literal => rfl
  | emptyArray blanks => rfl
  | array items => rfl
  | emptyObject blanks => rfl
  | object members => rfl

theorem run?_firstItem_items (frames : List Frame) (items : Items) (rest : List Token) :
    run? (firstItem frames) (items.tokens ++ rest) =
      run? (value (.array [] :: frames)) (items.tokens ++ rest) := by
  cases items with
  | last before s behind => exact run?_firstItem_source frames s rest
  | more before s behind items =>
      have htokens : (Items.more before s behind items).tokens ++ rest =
          s.tokens ++ (.comma :: items.tokens ++ rest) := by simp [Items.tokens]
      rw [htokens]
      exact run?_firstItem_source frames s _

theorem run?_firstKey_members (frames : List Frame) (members : Members) (rest : List Token) :
    run? (firstKey frames) (members.tokens ++ rest) =
      run? (key frames []) (members.tokens ++ rest) := by
  cases members <;> rfl

mutual

/-- The tokens of a document are built into it. -/
theorem run?_source : (s : Source) → (frames : List Frame) → (rest : List Token) →
    run? (value frames) (s.tokens ++ rest) = run? (done frames s.toJson) rest
  | .scalar literal, frames, rest => by
      have hscalar : step (value frames) literal.token = some (done frames literal.toJson) :=
        stepValue_scalar frames literal
      change run? _ (literal.token :: rest) = _
      rw [run?_cons, hscalar]
      rfl
  | .string literal, frames, rest => rfl
  | .emptyArray blanks, frames, rest => rfl
  | .array items, frames, rest => by
      have htokens : (Source.array items).tokens ++ rest =
          .openArray :: (items.tokens ++ .closeArray :: rest) := by simp [Source.tokens]
      rw [htokens]
      change run? (firstItem frames) _ = _
      rw [run?_firstItem_items, run?_items items]
      rfl
  | .emptyObject blanks, frames, rest => rfl
  | .object members, frames, rest => by
      have htokens : (Source.object members).tokens ++ rest =
          .openObject :: (members.tokens ++ .closeObject :: rest) := by simp [Source.tokens]
      rw [htokens]
      change run? (firstKey frames) _ = _
      rw [run?_firstKey_members, run?_members members]
      rfl

theorem run?_items : (items : Items) → (before : List Json) → (frames : List Frame) →
    (rest : List Token) →
    run? (value (.array before :: frames)) (items.tokens ++ .closeArray :: rest) =
      run? (done frames (.array (before.reverse ++ items.toJson))) rest
  | .last _ s _, before, frames, rest => by
      rw [Items.tokens, run?_source s, run?_cons]
      change run? (done frames (.array (s.toJson :: before).reverse)) rest = _
      rw [List.reverse_cons]
      rfl
  | .more _ s _ items, before, frames, rest => by
      rw [Items.tokens, List.append_assoc, run?_source s, List.cons_append, run?_cons]
      change run? (value (.array (s.toJson :: before) :: frames)) _ = _
      rw [run?_items items, List.reverse_cons, List.append_assoc]
      rfl

theorem run?_members : (members : Members) → (before : List (List Char × Json)) →
    (frames : List Frame) → (rest : List Token) →
    run? (key frames before) (members.tokens ++ .closeObject :: rest) =
      run? (done frames (.object (before.reverse ++ members.toJson))) rest
  | .last label s _, before, frames, rest => by
      change run? (value (.object before label.key.chars :: frames))
        (s.tokens ++ .closeObject :: rest) = _
      rw [run?_source s, run?_cons]
      change run? (done frames (.object ((label.key.chars, s.toJson) :: before).reverse)) rest = _
      rw [List.reverse_cons]
      rfl
  | .more label s _ members, before, frames, rest => by
      change run? (value (.object before label.key.chars :: frames))
        (s.tokens ++ .comma :: members.tokens ++ .closeObject :: rest) = _
      rw [List.append_assoc, run?_source s, List.cons_append, run?_cons]
      change run? (key frames ((label.key.chars, s.toJson) :: before)) _ = _
      rw [run?_members members, List.reverse_cons, List.append_assoc]
      rfl

end

/-! ## From tokens to a document -/

/-- A text that may stand behind a value in some open containers: it closes them, and the whole is
`j`. In what way the value itself is written does not matter. -/
def Completes : List Frame → Json → List Char → Json → Prop
  | [], v, text, j => (∃ blanks : Blanks, text = blanks.chars) ∧ v = j
  | .array before :: frames, v, text, j =>
    ∀ (blanks : Blanks) (s : Source), s.toJson = v → ∃ (items : Items) (rest : List Char),
      blanks.chars ++ s.render ++ text = items.render ++ ']' :: rest ∧
      Completes frames (.array (before.reverse ++ items.toJson)) rest j
  | .object before k :: frames, v, text, j =>
    ∀ (label : Label) (s : Source), label.key.chars = k → s.toJson = v →
      ∃ (members : Members) (rest : List Char),
        label.render ++ s.render ++ text = members.render ++ '}' :: rest ∧
        Completes frames (.object (before.reverse ++ members.toJson)) rest j

section

variable {frames : List Frame} {v j : Json} {text : List Char}

theorem Completes.lastItem {before : List Json} (behind : Blanks)
    (h : Completes frames (.array (v :: before).reverse) text j) :
    Completes (.array before :: frames) v (behind.chars ++ ']' :: text) j := by
  rintro blanks s rfl
  refine ⟨.last blanks s behind, text, by simp [Items.render], ?_⟩
  simpa [Items.toJson] using h

theorem Completes.nextItem {before : List Json} (behind blanks : Blanks) (s : Source)
    (h : Completes (.array (v :: before) :: frames) s.toJson text j) :
    Completes (.array before :: frames) v
      (behind.chars ++ ',' :: (blanks.chars ++ s.render ++ text)) j := by
  rintro blanks' s' rfl
  obtain ⟨items, rest, heq, hrest⟩ := h blanks s rfl
  refine ⟨.more blanks' s' behind items, rest, ?_, ?_⟩
  · rw [heq]
    simp [Items.render]
  · simpa [Items.toJson] using hrest

theorem Completes.lastMember {before : List (List Char × Json)} {k : List Char}
    (behind : Blanks) (h : Completes frames (.object ((k, v) :: before).reverse) text j) :
    Completes (.object before k :: frames) v (behind.chars ++ '}' :: text) j := by
  rintro label s rfl rfl
  refine ⟨.last label s behind, text, by simp [Members.render], ?_⟩
  simpa [Members.toJson] using h

theorem Completes.nextMember {before : List (List Char × Json)} {k : List Char}
    (behind : Blanks) (label : Label) (s : Source)
    (h : Completes (.object ((k, v) :: before) label.key.chars :: frames) s.toJson text j) :
    Completes (.object before k :: frames) v
      (behind.chars ++ ',' :: (label.render ++ s.render ++ text)) j := by
  rintro label' s' rfl rfl
  obtain ⟨members, rest, heq, hrest⟩ := h label s rfl rfl
  refine ⟨.more label' s' behind members, rest, ?_, ?_⟩
  · rw [heq]
    simp [Members.render]
  · simpa [Members.toJson] using hrest

end

/-- A text that may follow in a state, so that the whole is `j`. -/
def Expects : Builder → List Char → Json → Prop
  | value frames, text, j => ∃ (blanks : Blanks) (s : Source) (rest : List Char),
      text = blanks.chars ++ s.render ++ rest ∧ Completes frames s.toJson rest j
  | firstItem frames, text, j =>
      (∃ (blanks : Blanks) (rest : List Char), text = blanks.chars ++ ']' :: rest ∧
        Completes frames (.array []) rest j) ∨
      ∃ (items : Items) (rest : List Char), text = items.render ++ ']' :: rest ∧
        Completes frames (.array items.toJson) rest j
  | firstKey frames, text, j =>
      (∃ (blanks : Blanks) (rest : List Char), text = blanks.chars ++ '}' :: rest ∧
        Completes frames (.object []) rest j) ∨
      ∃ (members : Members) (rest : List Char), text = members.render ++ '}' :: rest ∧
        Completes frames (.object members.toJson) rest j
  | key frames members, text, j => ∃ (label : Label) (s : Source) (rest : List Char),
      text = label.render ++ s.render ++ rest ∧
        Completes (.object members label.key.chars :: frames) s.toJson rest j
  | colon frames members k, text, j =>
      ∃ (behind gap : Blanks) (s : Source) (rest : List Char),
        text = behind.chars ++ ':' :: (gap.chars ++ s.render ++ rest) ∧
        Completes (.object members k :: frames) s.toJson rest j
  | done frames v, text, j => Completes frames v text j

variable {j : Json}

/-- A token that begins a value. -/
theorem expects_of_stepValue {frames : List Frame} {token : Token} {state : Builder}
    (hwf : token.WellFormed) (h : stepValue frames token = some state) (blanks : Blanks)
    {text : List Char} (hexpects : Expects state text j) :
    Expects (value frames) (blanks.chars ++ token.chars ++ text) j := by
  cases token with
  | null =>
      cases h
      exact ⟨blanks, .scalar ⟨_, .null⟩, text, rfl, hexpects⟩
  | bool b =>
      cases h
      cases b with
      | true => exact ⟨blanks, .scalar ⟨_, .true⟩, text, rfl, hexpects⟩
      | false => exact ⟨blanks, .scalar ⟨_, .false⟩, text, rfl, hexpects⟩
  | number literal =>
      cases h
      have hjson : ScalarLiteral.toJson ⟨literal, .number hwf⟩ = .number literal := by
        rw [ScalarLiteral.toJson, Lexer.word?_of_number hwf]
      refine ⟨blanks, .scalar ⟨literal, .number hwf⟩, text, rfl, ?_⟩
      rw [Source.toJson, hjson]
      exact hexpects
  | string literal =>
      cases h
      exact ⟨blanks, .string ⟨literal, hwf⟩, text, rfl, hexpects⟩
  | openArray =>
      cases h
      rcases hexpects with ⟨inner, rest, rfl, hrest⟩ | ⟨items, rest, rfl, hrest⟩
      · exact ⟨blanks, .emptyArray inner, rest, by simp [Token.chars, Source.render], hrest⟩
      · exact ⟨blanks, .array items, rest, by simp [Token.chars, Source.render], hrest⟩
  | openObject =>
      cases h
      rcases hexpects with ⟨inner, rest, rfl, hrest⟩ | ⟨members, rest, rfl, hrest⟩
      · exact ⟨blanks, .emptyObject inner, rest, by simp [Token.chars, Source.render], hrest⟩
      · exact ⟨blanks, .object members, rest, by simp [Token.chars, Source.render], hrest⟩
  | closeObject => cases h
  | closeArray => cases h
  | colon => cases h
  | comma => cases h

/-- A token behind a value. -/
theorem expects_of_stepDone {frames : List Frame} {v : Json} {token : Token} {state : Builder}
    (h : stepDone frames v token = some state) (blanks : Blanks) {text : List Char}
    (hexpects : Expects state text j) :
    Completes frames v (blanks.chars ++ token.chars ++ text) j := by
  unfold stepDone at h
  split at h
  · cases h
    obtain ⟨before, s, rest, rfl, hrest⟩ := hexpects
    simpa [Token.chars] using hrest.nextItem blanks before s
  · cases h
    simpa [Token.chars] using Completes.lastItem blanks hexpects
  · cases h
    obtain ⟨label, s, rest, rfl, hrest⟩ := hexpects
    simpa [Token.chars] using hrest.nextMember blanks label s
  · cases h
    simpa [Token.chars] using Completes.lastMember blanks hexpects
  · cases h

/-- A key, behind which a colon must follow. -/
theorem expects_of_colon {frames : List Frame} {before : List (List Char × Json)}
    {k : List Char} (hwf : IsStringLiteral k) (blanks : Blanks) {text : List Char}
    (hexpects : Expects (colon frames before k) text j) :
    Expects (key frames before) (blanks.chars ++ (Token.string k).chars ++ text) j := by
  obtain ⟨behind, gap, s, rest, rfl, hrest⟩ := hexpects
  refine ⟨⟨blanks, ⟨k, hwf⟩, behind, gap⟩, s, rest, ?_, hrest⟩
  simp [Label.render, StringLiteral.render, Token.chars]

/-- One step: in front of a text that may follow behind a token, the token may follow. -/
theorem expects_of_step {state state' : Builder} {token : Token} (hwf : token.WellFormed)
    (h : step state token = some state') (blanks : Blanks) {text : List Char}
    (hexpects : Expects state' text j) :
    Expects state (blanks.chars ++ token.chars ++ text) j := by
  cases state with
  | value frames => exact expects_of_stepValue hwf h blanks hexpects
  | firstItem frames =>
      by_cases hclose : token = .closeArray
      · subst hclose
        cases h
        exact .inl ⟨blanks, text, by simp [Token.chars], hexpects⟩
      · have hvalue : stepValue (.array [] :: frames) token = some state' := by
          rw [← h]
          cases token <;> first | rfl | exact absurd rfl hclose
        obtain ⟨before, s, rest, heq, hrest⟩ := expects_of_stepValue hwf hvalue blanks hexpects
        obtain ⟨items, rest', heq', hrest'⟩ := hrest before s rfl
        exact .inr ⟨items, rest', heq.trans heq', hrest'⟩
  | firstKey frames =>
      cases token with
      | closeObject =>
          cases h
          exact .inl ⟨blanks, text, by simp [Token.chars], hexpects⟩
      | string k =>
          cases h
          obtain ⟨label, s, rest, heq, hrest⟩ := expects_of_colon hwf blanks hexpects
          obtain ⟨members, rest', heq', hrest'⟩ := hrest label s rfl rfl
          exact .inr ⟨members, rest', heq.trans heq', hrest'⟩
      | _ => cases h
  | key frames before =>
      cases token with
      | string k =>
          cases h
          exact expects_of_colon hwf blanks hexpects
      | _ => cases h
  | colon frames before k =>
      cases token with
      | colon =>
          cases h
          obtain ⟨gap, s, rest, rfl, hrest⟩ := hexpects
          exact ⟨blanks, gap, s, rest, by simp [Token.chars], hrest⟩
      | _ => cases h
  | done frames v => exact expects_of_stepDone h blanks hexpects

/-- A run: the text of tokens that are built into `j` may follow. -/
theorem expects_of_run? {text : List Char} {tokens : List Token} (hspelt : Spelt text tokens)
    {state : Builder} (h : run? state tokens = some j) : Expects state text j := by
  induction hspelt generalizing state with
  | done blanks =>
      cases state with
      | done frames v =>
          cases frames with
          | nil =>
              cases h
              exact ⟨⟨blanks, rfl⟩, rfl⟩
          | cons frame frames => cases h
      | _ => cases h
  | token blanks hwf _ ih =>
      rw [run?_cons] at h
      obtain ⟨state', hstep, hrun⟩ := Option.bind_eq_some_iff.1 h
      exact expects_of_step hwf hstep blanks (ih hrun)

end Builder

/-- A text is read as a document exactly if it is the text of one, with blanks around it. -/
theorem parse?_eq_some_iff {text : String} {j : Json} : parse? text = some j ↔
    ∃ (front back : Blanks) (s : Source),
      text.toList = front.chars ++ s.render ++ back.chars ∧ s.toJson = j := by
  constructor
  · intro h
    obtain ⟨tokens, htokens, hrun⟩ := Option.bind_eq_some_iff.1 h
    obtain ⟨front, s, rest, heq, ⟨back, rfl⟩, hj⟩ :=
      Builder.expects_of_run? (spelt_of_ofChars? htokens) hrun
    exact ⟨front, back, s, heq, hj⟩
  · rintro ⟨front, back, s, heq, rfl⟩
    have hbuild := Builder.run?_source s [] []
    rw [List.append_nil] at hbuild
    rw [parse?, heq, ofChars?_render]
    exact hbuild

end Stencil.Json
