import Stencil.Proofs.Json.Source

/-!
# The tokens of JSON texts

A text has the tokens that are written in it one after the other, with any blanks around them
(`spelt_of_ofChars?`): what the machine has taken of an unfinished token is kept in its state, so
with every character it takes, the tokens that ended and what is kept are the text so far. In the
other direction the tokens of a document's text are those of the document (`ofChars?_render`), for
no word or number goes on behind the end of a value.
-/

namespace Stencil.Json

/-! ## Tokens in a text -/

/-- The text of a token. -/
def Token.chars : Token → List Char
  | .openObject => ['{']
  | .closeObject => ['}']
  | .openArray => ['[']
  | .closeArray => [']']
  | .colon => [':']
  | .comma => [',']
  | .null => ['n', 'u', 'l', 'l']
  | .bool true => ['t', 'r', 'u', 'e']
  | .bool false => ['f', 'a', 'l', 's', 'e']
  | .number literal => literal
  | .string literal => '"' :: literal ++ ['"']

/-- The literal of a token is one. -/
def Token.WellFormed : Token → Prop
  | .number literal => (Number.ofLiteral? literal).isSome
  | .string literal => IsStringLiteral literal
  | _ => True

/-- A text in which some tokens stand one after the other, with blanks between them. -/
inductive Spelt : List Char → List Token → Prop
  | done (blanks : Blanks) : Spelt blanks.chars []
  | token (blanks : Blanks) {token : Token} (h : token.WellFormed) {rest tokens} :
      Spelt rest tokens → Spelt (blanks.chars ++ token.chars ++ rest) (token :: tokens)

theorem Spelt.nil : Spelt [] [] := .done ⟨[], by simp⟩

theorem Spelt.cons {token : Token} (h : token.WellFormed) {rest : List Char}
    {tokens : List Token} (hrest : Spelt rest tokens) :
    Spelt (token.chars ++ rest) (token :: tokens) :=
  .token ⟨[], by simp⟩ h hrest

theorem Spelt.space {c : Char} (hc : Lexer.isSpace c) {cs : List Char} {tokens : List Token}
    (h : Spelt cs tokens) : Spelt (c :: cs) tokens := by
  cases h with
  | done blanks => exact .done ⟨c :: blanks.chars, List.forall_mem_cons.2 ⟨hc, blanks.isSpace⟩⟩
  | token blanks hwf hrest =>
      exact .token ⟨c :: blanks.chars, List.forall_mem_cons.2 ⟨hc, blanks.isSpace⟩⟩ hwf hrest

namespace Lexer

/-! ## What the machine has taken -/

/-- What has been taken of an unfinished token. -/
def pending : Lexer → List Char
  | between => []
  | word seen => seen.reverse
  | number seen => seen.reverse
  | string seen => '"' :: seen.reverse
  | escape seen => '"' :: seen.reverse
  | hex _ seen => '"' :: seen.reverse

/-- The front of a string literal. -/
def Opens (front : List Char) : Prop :=
  ∀ rest, IsStringLiteral rest → IsStringLiteral (front ++ rest)

theorem opens_nil : Opens [] := fun _ h => h

theorem Opens.append {front part : List Char} (h : Opens front) (hpart : Opens part) :
    Opens (front ++ part) := by
  intro rest hrest
  rw [List.append_assoc]
  exact h _ (hpart rest hrest)

/-- What has been taken of a string is the front of a literal. -/
def Sound : Lexer → Prop
  | string seen => Opens seen.reverse
  | escape seen => ∃ front, seen.reverse = front ++ ['\\'] ∧ Opens front
  | hex missing seen => ∃ front digits, seen.reverse = front ++ '\\' :: 'u' :: digits ∧
      Opens front ∧ (∀ d ∈ digits, (Percent.hexValue? d).isSome) ∧
      digits.length + missing = 4 ∧ 0 < missing
  | _ => True

theorem of_mark? {c : Char} {token : Token} (h : mark? c = some token) :
    token.chars = [c] ∧ token.WellFormed := by
  unfold mark? at h
  split at h <;> cases h <;> exact ⟨rfl, trivial⟩

theorem of_word? {word : List Char} {token : Token} (h : word? word = some token) :
    token.chars = word ∧ token.WellFormed := by
  unfold word? at h
  split at h
  next hnull =>
    cases h
    exact ⟨hnull.symm, trivial⟩
  next =>
    split at h
    next htrue =>
      cases h
      exact ⟨htrue.symm, trivial⟩
    next =>
      split at h
      next hfalse =>
        cases h
        exact ⟨hfalse.symm, trivial⟩
      next => cases h

theorem of_number? {literal : List Char} {token : Token} (h : number? literal = some token) :
    token.chars = literal ∧ token.WellFormed := by
  obtain ⟨n, hn, rfl⟩ := Option.map_eq_some_iff.1 h
  exact ⟨rfl, Option.isSome_iff_exists.2 ⟨n, hn⟩⟩

/-- A character is taken: the tokens that end with it and what is kept from then on are what was
kept and the character. -/
structure Takes (kept : List Char) (c : Char) (state : Lexer) (tokens : List Token) : Prop where
  sound : state.Sound
  spelt : ∀ cs rest, Spelt (state.pending ++ cs) rest → Spelt (kept ++ c :: cs) (tokens ++ rest)

theorem Takes.quiet {kept : List Char} {c : Char} {state : Lexer} (h : state.Sound)
    (hpending : state.pending = kept ++ [c]) : Takes kept c state [] := by
  refine ⟨h, fun cs rest hrest => ?_⟩
  rw [hpending, List.append_assoc] at hrest
  exact hrest

theorem takes_of_start {c : Char} {state : Lexer} {tokens : List Token}
    (h : start c = some (state, tokens)) : Takes [] c state tokens := by
  unfold start at h
  split at h
  next hspace =>
    cases h
    exact ⟨trivial, fun cs rest hrest => hrest.space hspace⟩
  next =>
    split at h
    next token hmark =>
      cases h
      obtain ⟨hchars, hwf⟩ := of_mark? hmark
      refine ⟨trivial, fun cs rest hrest => ?_⟩
      have hcons := Spelt.cons hwf hrest
      rwa [hchars] at hcons
    next =>
      split at h
      next hquote =>
        cases h
        exact .quiet opens_nil (by rw [hquote]; rfl)
      next =>
        split at h
        · cases h
          exact .quiet trivial rfl
        · split at h
          · cases h
            exact .quiet trivial rfl
          · cases h

/-- A character behind a token. -/
theorem takes_of_startAfter {token? : Option Token} {seen : List Char}
    (htoken : ∀ token, token? = some token → token.chars = seen ∧ token.WellFormed) {c : Char}
    {state : Lexer} {tokens : List Token} (h : startAfter token? c = some (state, tokens)) :
    Takes seen c state tokens := by
  simp only [startAfter, Option.bind_eq_bind, Option.bind_eq_some_iff] at h
  obtain ⟨token, htoken?, ⟨state', tokens'⟩, hstart, heq⟩ := h
  cases heq
  obtain ⟨hchars, hwf⟩ := htoken token htoken?
  have htakes := takes_of_start hstart
  refine ⟨htakes.sound, fun cs rest hrest => ?_⟩
  rw [← hchars]
  exact .cons hwf (htakes.spelt cs rest hrest)

theorem takes_of_string {seen : List Char} (hseen : Opens seen.reverse) {c : Char}
    {state : Lexer} {tokens : List Token} (h : step (string seen) c = some (state, tokens)) :
    Takes ('"' :: seen.reverse) c state tokens := by
  rw [step] at h
  split at h
  next hquote =>
    cases h
    have hwf : (Token.string seen.reverse).WellFormed := by
      have hnil := hseen [] .nil
      rwa [List.append_nil] at hnil
    refine ⟨trivial, fun cs rest hrest => ?_⟩
    have hcons := Spelt.cons hwf hrest
    simpa [pending, Token.chars, hquote] using hcons
  next hquote =>
    split at h
    next hescape =>
      cases h
      exact .quiet ⟨seen.reverse, by simp [hescape], hseen⟩ (by simp [pending])
    next hescape =>
      split at h
      · cases h
      next hcontrol =>
        cases h
        have hchar : Opens [c] := fun rest hrest =>
          .char hquote hescape (Nat.not_lt.1 hcontrol) hrest
        refine .quiet ?_ (by simp [pending])
        rw [Sound, List.reverse_cons]
        exact hseen.append hchar

theorem takes_of_escape {seen : List Char} (hstate : (escape seen).Sound) {c : Char}
    {state : Lexer} {tokens : List Token} (h : step (escape seen) c = some (state, tokens)) :
    Takes ('"' :: seen.reverse) c state tokens := by
  obtain ⟨front, hseen, hfront⟩ := hstate
  have happend : (c :: seen).reverse = front ++ ['\\', c] := by simp [hseen]
  rw [step] at h
  split at h
  next hu =>
    cases h
    exact .quiet ⟨front, [], by rw [happend, hu], hfront, by simp, rfl, by decide⟩
      (by simp [pending])
  next =>
    split at h
    next hescaped =>
      cases h
      have hpart : Opens ['\\', c] := fun rest hrest => .escape hescaped hrest
      refine .quiet ?_ (by simp [pending])
      rw [Sound, happend]
      exact hfront.append hpart
    next => cases h

theorem takes_of_hex {missing : Nat} {seen : List Char} (hstate : (hex missing seen).Sound)
    {c : Char} {state : Lexer} {tokens : List Token}
    (h : step (hex missing seen) c = some (state, tokens)) :
    Takes ('"' :: seen.reverse) c state tokens := by
  obtain ⟨front, digits, hseen, hfront, hdigits, hlength, hmissing⟩ := hstate
  have happend : (c :: seen).reverse = front ++ '\\' :: 'u' :: (digits ++ [c]) := by simp [hseen]
  rw [step] at h
  split at h
  next hhex =>
    have hall : ∀ d ∈ digits ++ [c], (Percent.hexValue? d).isSome := by
      intro d hd
      rcases List.mem_append.1 hd with hd | hd
      · exact hdigits d hd
      · rwa [List.mem_singleton.1 hd]
    cases h
    refine .quiet ?_ (by split <;> simp [pending])
    split
    next hlast =>
      -- the digit completes the escape
      have hthree : digits.length = 3 := by omega
      rw [Sound, happend]
      refine hfront.append fun rest hrest => ?_
      match digits, hthree with
      | [a, b, d], _ => exact .code hall hrest
    next hmore =>
      refine ⟨front, digits ++ [c], happend, hfront, hall, ?_, by omega⟩
      rw [List.length_append, List.length_singleton]
      omega
  next => cases h

/-- One step. -/
theorem takes_of_step {state state' : Lexer} (hstate : state.Sound) {c : Char}
    {tokens : List Token} (h : step state c = some (state', tokens)) :
    Takes state.pending c state' tokens := by
  cases state with
  | between => exact takes_of_start h
  | word seen =>
      rw [step] at h
      split at h
      · cases h
        exact .quiet trivial (by simp [pending])
      · exact takes_of_startAfter (fun token => of_word?) h
  | number seen =>
      rw [step] at h
      split at h
      · cases h
        exact .quiet trivial (by simp [pending])
      · exact takes_of_startAfter (fun token => of_number?) h
  | string seen => exact takes_of_string hstate h
  | escape seen => exact takes_of_escape hstate h
  | hex missing seen => exact takes_of_hex hstate h

/-- The end of the text. -/
theorem spelt_of_finish? {state : Lexer} {tokens : List Token}
    (h : finish? state = some tokens) : Spelt state.pending tokens := by
  cases state with
  | between =>
      cases h
      exact .nil
  | word seen =>
      obtain ⟨token, htoken, rfl⟩ := Option.map_eq_some_iff.1 h
      obtain ⟨hchars, hwf⟩ := of_word? htoken
      have hcons := Spelt.cons hwf .nil
      rwa [List.append_nil, hchars] at hcons
  | number seen =>
      obtain ⟨token, htoken, rfl⟩ := Option.map_eq_some_iff.1 h
      obtain ⟨hchars, hwf⟩ := of_number? htoken
      have hcons := Spelt.cons hwf .nil
      rwa [List.append_nil, hchars] at hcons
  | string seen => cases h
  | escape seen => cases h
  | hex missing seen => cases h

theorem run?_cons_eq_some {state : Lexer} {c : Char} {cs : List Char} {tokens : List Token}
    (h : run? state (c :: cs) = some tokens) : ∃ state' front rest,
      step state c = some (state', front) ∧ run? state' cs = some rest ∧ tokens = front ++ rest := by
  simp only [run?, Option.bind_eq_bind, Option.bind_eq_some_iff] at h
  obtain ⟨⟨state', front⟩, hstep, rest, hrest, heq⟩ := h
  cases heq
  exact ⟨state', front, rest, hstep, hrest, rfl⟩

/-- A run: the tokens stand in what was kept and the rest of the text. -/
theorem spelt_of_run? {state : Lexer} (hstate : state.Sound) {cs : List Char}
    {tokens : List Token} (h : run? state cs = some tokens) :
    Spelt (state.pending ++ cs) tokens := by
  induction cs generalizing state tokens with
  | nil =>
      rw [List.append_nil]
      exact spelt_of_finish? h
  | cons c cs ih =>
      obtain ⟨state', front, rest, hstep, hrest, rfl⟩ := run?_cons_eq_some h
      have htakes := takes_of_step hstate hstep
      exact htakes.spelt cs rest (ih htakes.sound hrest)

end Lexer

/-- The tokens of a text stand in it, one after the other. -/
theorem spelt_of_ofChars? {cs : List Char} {tokens : List Token}
    (h : Token.ofChars? cs = some tokens) : Spelt cs tokens := by
  have hbetween : Lexer.between.Sound := trivial
  exact Lexer.spelt_of_run? hbetween h

/-! ## The tokens of a document -/

/-- The token of a word or a number. -/
def ScalarLiteral.token (literal : ScalarLiteral) : Token :=
  (Lexer.word? literal.chars).getD (.number literal.chars)

mutual

/-- The tokens of a document. -/
def Source.tokens : Source → List Token
  | .scalar literal => [literal.token]
  | .string literal => [.string literal.chars]
  | .emptyArray _ => [.openArray, .closeArray]
  | .array items => .openArray :: items.tokens ++ [.closeArray]
  | .emptyObject _ => [.openObject, .closeObject]
  | .object members => .openObject :: members.tokens ++ [.closeObject]

def Items.tokens : Items → List Token
  | .last _ item _ => item.tokens
  | .more _ item _ rest => item.tokens ++ .comma :: rest.tokens

def Members.tokens : Members → List Token
  | .last label value _ => .string label.key.chars :: .colon :: value.tokens
  | .more label value _ rest =>
    .string label.key.chars :: .colon :: value.tokens ++ .comma :: rest.tokens

end

namespace Lexer

/-- A text that the machine takes between two tokens, and that has some tokens whatever follows. -/
def Reads (text : List Char) (tokens : List Token) : Prop :=
  ∀ rest, run? between (text ++ rest) = (run? between rest).map (tokens ++ ·)

/-- The same where what follows does not go on with a word or a number. -/
def ReadsApart (text : List Char) (tokens : List Token) : Prop :=
  ∀ rest, (∀ c ∈ rest.head?, isScalarChar c = false) →
    run? between (text ++ rest) = (run? between rest).map (tokens ++ ·)

theorem Reads.apart {text : List Char} {tokens : List Token} (h : Reads text tokens) :
    ReadsApart text tokens := fun rest _ => h rest

theorem Reads.append {a b : List Char} {ta tb : List Token} (ha : Reads a ta)
    (hb : Reads b tb) : Reads (a ++ b) (ta ++ tb) := by
  intro rest
  rw [List.append_assoc, ha, hb, Option.map_map]
  simp [Function.comp_def]

/-- What begins with no character of words and numbers goes on with none. -/
theorem ReadsApart.append {a b : List Char} {ta tb : List Token} (ha : ReadsApart a ta)
    (hb : Reads b tb) (hne : b ≠ []) (hhead : ∀ c ∈ b.head?, isScalarChar c = false) :
    Reads (a ++ b) (ta ++ tb) := by
  intro rest
  have hhead' : ∀ c ∈ (b ++ rest).head?, isScalarChar c = false := by
    obtain ⟨c, cs, rfl⟩ := List.exists_cons_of_ne_nil hne
    exact hhead
  rw [List.append_assoc, ha _ hhead', hb, Option.map_map]
  simp [Function.comp_def]

/-! ### Characters -/

theorem run?_cons {state state' : Lexer} {c : Char} {tokens : List Token}
    (h : step state c = some (state', tokens)) (cs : List Char) :
    run? state (c :: cs) = (run? state' cs).map (tokens ++ ·) := by
  cases hrun : run? state' cs <;> simp [run?, h, hrun]

theorem run?_quiet {state state' : Lexer} {c : Char} (h : step state c = some (state', []))
    (cs : List Char) : run? state (c :: cs) = run? state' cs := by
  rw [run?_cons h]
  exact Option.map_id_apply

/-- Characters that go on with a token are taken. -/
theorem run?_append (state : List Char → Lexer) {p : Char → Bool}
    (h : ∀ seen c, p c → step (state seen) c = some (state (c :: seen), [])) {cs : List Char}
    (hcs : ∀ c ∈ cs, p c) (seen rest : List Char) :
    run? (state seen) (cs ++ rest) = run? (state (cs.reverse ++ seen)) rest := by
  induction cs generalizing seen with
  | nil => rfl
  | cons c cs ih =>
      obtain ⟨hc, hcs⟩ := List.forall_mem_cons.1 hcs
      rw [List.cons_append, run?_quiet (h seen c hc), ih hcs]
      simp

/-- A character that does not go on with a token ends it. -/
theorem run?_behind {state : Lexer} {token : Token} {rest : List Char}
    (hfinish : finish? state = some [token])
    (hstep : ∀ c ∈ rest.head?, step state c = startAfter (some token) c) :
    run? state rest = (run? between rest).map (token :: ·) := by
  cases rest with
  | nil =>
      rw [run?, hfinish]
      rfl
  | cons c cs =>
      rw [run?, hstep c rfl]
      cases hstart : start c with
      | none => simp [run?, startAfter, step, hstart]
      | some p =>
          obtain ⟨state', tokens⟩ := p
          cases hrun : run? state' cs with
          | none => simp [run?, startAfter, step, hstart, hrun]
          | some more => simp [run?, startAfter, step, hstart, hrun]

theorem Reads.blanks (b : Blanks) : Reads b.chars [] := by
  intro rest
  have hquiet : ∀ (seen : List Char) c, isSpace c → step between c = some (between, []) := by
    intro _ c hc
    simp [step, start, hc]
  rw [run?_append (fun _ => between) hquiet b.isSpace []]
  simp

/-- A token that is one character. -/
theorem Reads.mark {c : Char} {token : Token} (h : start c = some (between, [token])) :
    Reads [c] [token] := by
  intro rest
  have hstep : step between c = some (between, [token]) := h
  exact run?_cons hstep rest

theorem run?_string {literal : List Char} (h : IsStringLiteral literal)
    (seen rest : List Char) : run? (string seen) (literal ++ '"' :: rest) =
      (run? between rest).map (.string (seen.reverse ++ literal) :: ·) := by
  induction h generalizing seen with
  | nil =>
      have hend : step (string seen) '"' = some (between, [.string seen.reverse]) := by rfl
      rw [List.nil_append, List.append_nil]
      exact run?_cons hend rest
  | @char c cs hquote hescape hcontrol _ ih =>
      have hstep : step (string seen) c = some (string (c :: seen), []) := by
        simp [step, hquote, hescape, Nat.not_lt.2 hcontrol]
      rw [List.cons_append, run?_quiet hstep, ih]
      simp
  | @escape c cs hescaped _ ih =>
      have hu : c ≠ 'u' := by
        rintro rfl
        cases hescaped
      have hfirst : step (string seen) '\\' = some (escape ('\\' :: seen), []) := by rfl
      have hsecond : step (escape ('\\' :: seen)) c =
          some (string (c :: '\\' :: seen), []) := by
        simp [step, hu, hescaped]
      rw [List.cons_append, List.cons_append, run?_quiet hfirst, run?_quiet hsecond, ih]
      simp
  | @code a b c d cs hhex _ ih =>
      simp only [List.forall_mem_cons] at hhex
      obtain ⟨ha, hb, hc, hd, -⟩ := hhex
      have hmore : ∀ {x : Char}, (Percent.hexValue? x).isSome → ∀ missing seen, 1 < missing →
          step (hex missing seen) x = some (hex (missing - 1) (x :: seen), []) := by
        intro x hx missing seen hmissing
        simp [step, hx, Nat.not_le.2 hmissing]
      have hlast : ∀ seen, step (hex 1 seen) d = some (string (d :: seen), []) := by
        intro seen
        simp [step, hd]
      have hfirst : step (string seen) '\\' = some (escape ('\\' :: seen), []) := by rfl
      have hsecond : step (escape ('\\' :: seen)) 'u' = some (hex 4 ('u' :: '\\' :: seen), []) := by
        rfl
      simp only [List.cons_append]
      rw [run?_quiet hfirst, run?_quiet hsecond, run?_quiet (hmore ha 4 _ (by decide)),
        run?_quiet (hmore hb 3 _ (by decide)), run?_quiet (hmore hc 2 _ (by decide)),
        run?_quiet (hlast _), ih]
      simp

theorem Reads.string (literal : StringLiteral) :
    Reads literal.render [.string literal.chars] := by
  intro rest
  have hbegin : step between '"' = some (Lexer.string [], []) := by rfl
  rw [literal.render_append, run?_quiet hbegin, run?_string literal.wellFormed]
  rfl

/-! ### Words and numbers -/

theorem isDigit_of_isLower {c : Char} (h : c.isLower) : c.isDigit = false := by
  obtain ⟨hmin, -⟩ := Bool.and_eq_true_iff.1 h
  rw [Bool.eq_false_iff]
  intro hdigit
  obtain ⟨-, hmax⟩ := Bool.and_eq_true_iff.1 hdigit
  exact absurd (UInt32.le_trans (of_decide_eq_true hmin) (of_decide_eq_true hmax)) (by decide)

/-- A character of words and numbers can only begin a token of these. -/
theorem start_of_isScalarChar {c : Char} (h : isScalarChar c) : start c =
    if c.isDigit || c = '-' then some (number [c], [])
    else if c.isLower then some (word [c], []) else none := by
  have hspace : isSpace c = false := by
    rw [Bool.eq_false_iff]
    intro hc
    rw [isScalarChar_of_isSpace hc] at h
    cases h
  have hmark : mark? c = none := by
    unfold mark?
    split
    case h_7 => rfl
    all_goals exact absurd h (by decide)
  have hquote : c ≠ '"' := by
    rintro rfl
    exact absurd h (by decide)
  rw [start, hspace, hmark]
  dsimp only
  rw [if_neg hquote]
  rfl

/-- A word is taken as long as letters follow. -/
theorem ReadsApart.word {word : List Char} (hne : word ≠ []) (hlower : ∀ c ∈ word, c.isLower)
    {token : Token} (hword : word? word = some token) : ReadsApart word [token] := by
  intro rest hrest
  obtain ⟨c, cs, rfl⟩ := List.exists_cons_of_ne_nil hne
  obtain ⟨hc, hcs⟩ := List.forall_mem_cons.1 hlower
  have hbegin : step between c = some (Lexer.word [c], []) := by
    have hscalar : isScalarChar c := by simp [isScalarChar, hc]
    have hhyphen : c ≠ '-' := by
      rintro rfl
      exact absurd hc (by decide)
    simp [step, start_of_isScalarChar hscalar, isDigit_of_isLower hc, hhyphen, hc]
  have hmore : ∀ seen c, c.isLower →
      step (Lexer.word seen) c = some (Lexer.word (c :: seen), []) := by
    intro seen c hc
    simp [step, hc]
  have hseen : (cs.reverse ++ [c]).reverse = c :: cs := by simp
  rw [List.cons_append, run?_quiet hbegin, run?_append Lexer.word hmore hcs]
  refine run?_behind ?_ fun d hd => ?_
  · rw [finish?, hseen, hword]
    rfl
  · have hlower : d.isLower = false := (Bool.or_eq_false_iff.1 (hrest d hd)).1
    rw [step, hlower, hseen, hword]
    rfl

theorem ReadsApart.number {literal : List Char} (h : (Number.ofLiteral? literal).isSome) :
    ReadsApart literal [.number literal] := by
  intro rest hrest
  obtain ⟨hne, hall⟩ := Number.isLiteralChar_of_ofLiteral? h
  obtain ⟨c, cs, rfl⟩ := List.exists_cons_of_ne_nil hne
  obtain ⟨hc, hcs⟩ := List.forall_mem_cons.1 hall
  have hbegin : step between c = some (Lexer.number [c], []) := by
    have hscalar : isScalarChar c := by simp [isScalarChar, hc]
    have hhead := Number.head_of_ofLiteral? h
    rw [step, start_of_isScalarChar hscalar]
    exact if_pos (by simpa using hhead)
  have hmore : ∀ seen c, Number.isLiteralChar c →
      step (Lexer.number seen) c = some (Lexer.number (c :: seen), []) := by
    intro seen c hc
    simp [step, hc]
  have hseen : (cs.reverse ++ [c]).reverse = c :: cs := by simp
  obtain ⟨n, hn⟩ := Option.isSome_iff_exists.1 h
  have hnumber : number? (c :: cs) = some (.number (c :: cs)) := by rw [number?, hn]; rfl
  rw [List.cons_append, run?_quiet hbegin, run?_append Lexer.number hmore hcs]
  refine run?_behind ?_ fun d hd => ?_
  · rw [finish?, hseen, hnumber]
    rfl
  · have hliteral : Number.isLiteralChar d = false := (Bool.or_eq_false_iff.1 (hrest d hd)).2
    rw [step, hliteral, hseen, hnumber]
    rfl

/-- No word is a number. -/
theorem word?_of_number {literal : List Char} (h : (Number.ofLiteral? literal).isSome) :
    word? literal = none := by
  have hne : ∀ {word : List Char}, (Number.ofLiteral? word).isSome = false → literal ≠ word := by
    rintro word hword rfl
    rw [h] at hword
    cases hword
  rw [word?, if_neg (hne (by decide)), if_neg (hne (by decide)), if_neg (hne (by decide))]

theorem ReadsApart.scalar (literal : ScalarLiteral) :
    ReadsApart literal.chars [literal.token] := by
  obtain ⟨chars, h⟩ := literal
  cases h with
  | null => exact .word (by decide) (List.all_eq_true.1 (by decide)) rfl
  | true => exact .word (by decide) (List.all_eq_true.1 (by decide)) rfl
  | false => exact .word (by decide) (List.all_eq_true.1 (by decide)) rfl
  | number h =>
      rw [ScalarLiteral.token, word?_of_number h]
      exact .number h

/-! ### Containers -/

/-- Behind a document may stand blanks, and then a mark. -/
theorem ReadsApart.append_mark {text : List Char} {tokens : List Token}
    (h : ReadsApart text tokens) (b : Blanks) {c : Char} {mark : Token}
    (hc : isScalarChar c = false) (hmark : start c = some (between, [mark])) :
    Reads (text ++ (b.chars ++ [c])) (tokens ++ [mark]) := by
  have hback : Reads (b.chars ++ [c]) [mark] := (Reads.blanks b).append (.mark hmark)
  refine h.append hback (by simp) ?_
  cases hb : b.chars with
  | nil =>
      rintro d ⟨⟩
      exact hc
  | cons s bs =>
      rintro d ⟨⟩
      exact isScalarChar_of_isSpace (b.isSpace s (by simp [hb]))

theorem Reads.label (l : Label) : Reads l.render [.string l.key.chars, .colon] := by
  have hcolon : Reads [':'] [.colon] := .mark rfl
  have hkey := ((Reads.blanks l.before).append (.string l.key)).append (.blanks l.behind)
  exact hkey.append (hcolon.append (.blanks l.gap))

mutual

/-- The text of a document has its tokens. -/
theorem readsApart_source : (s : Source) → ReadsApart s.render s.tokens
  | .scalar literal => .scalar literal
  | .string literal => (Reads.string literal).apart
  | .emptyArray blanks => by
      have hopen : Reads ['['] [.openArray] := .mark rfl
      have hclose : Reads [']'] [.closeArray] := .mark rfl
      exact (hopen.append ((Reads.blanks blanks).append hclose)).apart
  | .array items => by
      have hopen : Reads ['['] [.openArray] := .mark rfl
      exact (hopen.append (reads_items items)).apart
  | .emptyObject blanks => by
      have hopen : Reads ['{'] [.openObject] := .mark rfl
      have hclose : Reads ['}'] [.closeObject] := .mark rfl
      exact (hopen.append ((Reads.blanks blanks).append hclose)).apart
  | .object members => by
      have hopen : Reads ['{'] [.openObject] := .mark rfl
      exact (hopen.append (reads_members members)).apart

theorem reads_items :
    (items : Items) → Reads (items.render ++ [']']) (items.tokens ++ [.closeArray])
  | .last before item behind => by
      have hitem := (readsApart_source item).append_mark behind (c := ']') (by decide) rfl
      simpa [Items.render, Items.tokens] using (Reads.blanks before).append hitem
  | .more before item behind rest => by
      have hitem := (readsApart_source item).append_mark behind (c := ',') (by decide) rfl
      have hfront := (Reads.blanks before).append hitem
      simpa [Items.render, Items.tokens] using hfront.append (reads_items rest)

theorem reads_members :
    (members : Members) → Reads (members.render ++ ['}']) (members.tokens ++ [.closeObject])
  | .last label value behind => by
      have hvalue := (readsApart_source value).append_mark behind (c := '}') (by decide) rfl
      simpa [Members.render, Members.tokens] using (Reads.label label).append hvalue
  | .more label value behind rest => by
      have hvalue := (readsApart_source value).append_mark behind (c := ',') (by decide) rfl
      have hfront := (Reads.label label).append hvalue
      simpa [Members.render, Members.tokens] using hfront.append (reads_members rest)

end

end Lexer

/-- The tokens of a document's text, with blanks at its ends, are those of the document. -/
theorem ofChars?_render (s : Source) (front back : Blanks) :
    Token.ofChars? (front.chars ++ s.render ++ back.chars) = some s.tokens := by
  have hback : ∀ c ∈ back.chars.head?, isScalarChar c = false := fun c hc =>
    isScalarChar_of_isSpace (back.isSpace c (List.mem_of_mem_head? hc))
  have hblanks := Lexer.Reads.blanks back []
  rw [List.append_nil] at hblanks
  rw [Token.ofChars?, List.append_assoc, Lexer.Reads.blanks front,
    Lexer.readsApart_source s _ hback, hblanks]
  simp [Lexer.run?, Lexer.finish?]

end Stencil.Json
