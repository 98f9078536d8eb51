import Stencil.Proofs.Resolver.Lookup
import Stencil.Proofs.Template.Placeholders

/-!
# The rules of evaluation

Evaluation as three relations between a state before and a state after, with the depth counted
upwards and nothing that bounds it but the rule `Evaluates.tooDeep`. The trace lists the values
that were evaluated, each with its depth. The main statements:

* a resolver follows the rules (`evaluates_nested`, `resolves_resolveTop`,
  `expands_expand`), so every evaluation comes to an end;
* no value is evaluated deeper than one level below the limit (`Evaluates.depth_le`);
* what is kept stays kept (`Evaluates.kept_mono`).

Properties of resolvers are proved by recursion on derivations.
-/

namespace Stencil.Resolver

open Text

/-- The values that were evaluated, in order, each with its depth. -/
abbrev Trace := List (Nat × String)

/-! ## Rules -/

mutual

/-- The value of an expression that stands in a text at depth `d`. -/
inductive Resolves (b : Bindings) (s : Surroundings) :
    (d : Nat) → String → State → Except LookupError String → State → Trace → Prop
  /-- A value that is kept is not looked up again. -/
  | kept {d e st value} : st.cache.get? e = some value → Resolves b s d e st (.ok value) st []
  | answered {d e st value journal} : st.cache.get? e = none →
      b.template? (stripPercent e).1 = none →
      answer b s (stripPercent e).1 st.journal = (.ok value, journal) →
      Resolves b s d e st (.ok (encodeIf (stripPercent e).2 value))
        ⟨st.cache.insert e (encodeIf (stripPercent e).2 value), journal⟩ []
  | refused {d e st err journal} : st.cache.get? e = none →
      b.template? (stripPercent e).1 = none →
      answer b s (stripPercent e).1 st.journal = (.error err, journal) →
      Resolves b s d e st (.error err) ⟨st.cache, journal⟩ []
  | named {d e st template value st' tr} : st.cache.get? e = none →
      b.template? (stripPercent e).1 = some template →
      Evaluates b s (d + 1) template
        ⟨st.cache, st.journal.warn (b.remarks (stripPercent e).1)⟩ (.ok value) st' tr →
      Resolves b s d e st (.ok (encodeIf (stripPercent e).2 value))
        ⟨st'.cache.insert e (encodeIf (stripPercent e).2 value), st'.journal⟩ tr
  /-- An expression whose template has no value is not kept. -/
  | abandoned {d e st template err st' tr} : st.cache.get? e = none →
      b.template? (stripPercent e).1 = some template →
      Evaluates b s (d + 1) template
        ⟨st.cache, st.journal.warn (b.remarks (stripPercent e).1)⟩ (.error err) st' tr →
      Resolves b s d e st (.error err) st' tr

/-- The value of a template at depth `d`. -/
inductive Evaluates (b : Bindings) (s : Surroundings) :
    (d : Nat) → String → State → Except LookupError String → State → Trace → Prop
  | verbatim {d text st} : occurs ['{', '{'] text.toList = false →
      Evaluates b s d text st (.ok text) st [(d, text)]
  | tooDeep {d text st} : occurs ['{', '{'] text.toList = true → depthLimit < d →
      Evaluates b s d text st (.error (.recursionLimit text)) st [(d, text)]
  | filled {d text st r st' tr} : occurs ['{', '{'] text.toList = true → d ≤ depthLimit →
      Expands b s d (Template.pieces text) st r st' tr →
      Evaluates b s d text st (r.map String.ofList) st' ((d, text) :: tr)

/-- The text that the pieces of a template at depth `d` become. -/
inductive Expands (b : Bindings) (s : Surroundings) :
    (d : Nat) → List (Piece (List Char)) → State → Except LookupError (List Char) → State →
      Trace → Prop
  | nil {d st} : Expands b s d [] st (.ok []) st []
  | char {d c rest st r st' tr} : Expands b s d rest st r st' tr →
      Expands b s d (.char c :: rest) st (r.map (c :: ·)) st' tr
  | value {d inner rest st v st₁ tr₁ r st₂ tr₂} :
      Resolves b s d (Template.expression inner) st (.ok v) st₁ tr₁ →
      Expands b s d rest st₁ r st₂ tr₂ →
      Expands b s d (.span inner :: rest) st (r.map (v.toList ++ ·)) st₂ (tr₁ ++ tr₂)
  /-- A placeholder without a value stays; at the top this goes for every error. -/
  | left {d inner rest st err st₁ tr₁ r st₂ tr₂} :
      Resolves b s d (Template.expression inner) st (.error err) st₁ tr₁ →
      d = 0 ∨ err.tooDeep = false →
      Expands b s d rest st₁ r st₂ tr₂ →
      Expands b s d (.span inner :: rest) st (r.map (Template.write inner ++ ·)) st₂ (tr₁ ++ tr₂)
  /-- Below the top, too deep a nesting ends the whole text. -/
  | aborted {d inner rest st err st₁ tr₁} :
      Resolves b s d (Template.expression inner) st (.error err) st₁ tr₁ →
      0 < d → err.tooDeep = true →
      Expands b s d (.span inner :: rest) st (.error err) st₁ tr₁

end

variable {b : Bindings} {s : Surroundings}

/-! ## Resolvers follow the rules -/

/-- Keeps the value of an expression that was looked up. -/
def keep (e : String) : Except LookupError String × State → Except LookupError String × State
  | (.ok value, st) =>
    (.ok (encodeIf (stripPercent e).2 value),
      ⟨st.cache.insert e (encodeIf (stripPercent e).2 value), st.journal⟩)
  | (.error err, st) => (.error err, st)

/-- An expression that is not kept is looked up and then kept. -/
theorem resolveWith_of_not_kept {evaluate : String → Step String} {e : String} {st : State}
    (h : st.cache.get? e = none) :
    resolveWith b s evaluate e st = keep e (lookup b s evaluate (stripPercent e).1 st) := by
  simp only [resolveWith, h]
  rcases lookup b s evaluate (stripPercent e).1 st with ⟨_ | _, _⟩ <;> rfl

theorem resolves_resolveWith {d : Nat} {evaluate : String → Step String}
    (h : ∀ text st, ∃ tr, Evaluates b s (d + 1) text st (evaluate text st).1 (evaluate text st).2 tr)
    (e : String) (st : State) :
    ∃ tr, Resolves b s d e st (resolveWith b s evaluate e st).1
      (resolveWith b s evaluate e st).2 tr := by
  cases hkept : st.cache.get? e with
  | some value =>
      refine ⟨[], ?_⟩
      simp only [resolveWith, hkept]
      exact .kept hkept
  | none =>
      rw [resolveWith_of_not_kept hkept]
      cases htemplate : b.template? (stripPercent e).1 with
      | none =>
          -- a leaf evaluates no template, so nothing is traced
          rw [lookup_of_leaf htemplate]
          refine ⟨[], ?_⟩
          rcases hanswer : answer b s (stripPercent e).1 st.journal with ⟨_ | value, journal⟩
          · exact .refused hkept htemplate hanswer
          · exact .answered hkept htemplate hanswer
      | some template =>
          rw [lookup_of_template htemplate]
          obtain ⟨tr, htr⟩ :=
            h template ⟨st.cache, st.journal.warn (b.remarks (stripPercent e).1)⟩
          refine ⟨tr, ?_⟩
          revert htr
          rcases evaluate template ⟨st.cache, st.journal.warn (b.remarks (stripPercent e).1)⟩
            with ⟨_ | value, st'⟩
          · exact fun htr => .abandoned hkept htemplate htr
          · exact fun htr => .named hkept htemplate htr

/-- What stands in front of a result does not change whether it is one. -/
theorem prepend_eq (front : List Char) (p : Except LookupError (List Char) × State) :
    prepend front p = (p.1.map (front ++ ·), p.2) := by
  rcases p with ⟨_ | _, _⟩ <;> rfl

theorem expands_expandNested {d : Nat} (hd : 0 < d) {resolve : String → Step String}
    (h : ∀ e st, ∃ tr, Resolves b s d e st (resolve e st).1 (resolve e st).2 tr)
    (ps : List (Piece (List Char))) (st : State) :
    ∃ tr, Expands b s d ps st (expandNested resolve ps st).1 (expandNested resolve ps st).2 tr := by
  induction ps generalizing st with
  | nil => exact ⟨[], .nil⟩
  | cons piece rest ih =>
      cases piece with
      | char c =>
          obtain ⟨tr, htr⟩ := ih st
          simp only [expandNested, prepend_eq]
          exact ⟨tr, .char htr⟩
      | span inner =>
          obtain ⟨tr₁, h₁⟩ := h (Template.expression inner) st
          simp only [expandNested]
          revert h₁
          rcases resolve (Template.expression inner) st with ⟨err | value, st₁⟩
          · intro h₁
            obtain ⟨tr₂, h₂⟩ := ih st₁
            -- only the error of depth ends the text
            cases err with
            | recursionLimit text => exact ⟨tr₁, .aborted h₁ hd rfl⟩
            | _ =>
              simp only [prepend_eq]
              exact ⟨tr₁ ++ tr₂, .left h₁ (.inr rfl) h₂⟩
          · intro h₁
            obtain ⟨tr₂, h₂⟩ := ih st₁
            simp only [prepend_eq]
            exact ⟨tr₁ ++ tr₂, .value h₁ h₂⟩

/-- Characters alone are left as they are. -/
theorem expandNested_chars (resolve : String → Step String) (cs : List Char) (st : State) :
    expandNested resolve (cs.map .char) st = (.ok cs, st) := by
  induction cs with
  | nil => rfl
  | cons c cs ih => simp [expandNested, ih, prepend]

/-- The evaluation of a template follows the rules at the depth that its room stands for. -/
theorem evaluates_nested {room d : Nat} (hroom : d + room = depthLimit + 1) (hd : 0 < d)
    (text : String) (st : State) :
    ∃ tr, Evaluates b s d text st (nested b s room text st).1 (nested b s room text st).2 tr := by
  induction room generalizing d text st with
  | zero =>
      -- no room is left one level below the limit
      refine ⟨[(d, text)], ?_⟩
      simp only [nested]
      cases hocc : occurs ['{', '{'] text.toList with
      | false => exact .verbatim hocc
      | true => exact .tooDeep hocc (by omega)
  | succ room ih =>
      simp only [nested]
      cases hocc : occurs ['{', '{'] text.toList with
      | false =>
          -- the rule takes the text as it is, the resolver goes through its characters
          rw [Template.pieces, Template.pieces_of_not_occurs hocc, expandNested_chars]
          refine ⟨[(d, text)], ?_⟩
          simp only [String.ofList_toList]
          exact .verbatim hocc
      | true =>
          have hresolve := resolves_resolveWith (b := b) (s := s) (d := d)
            fun text st => ih (d := d + 1) (by omega) (by omega) text st
          obtain ⟨tr, htr⟩ := expands_expandNested hd hresolve (Template.pieces text) st
          refine ⟨(d, text) :: tr, ?_⟩
          have hfilled := Evaluates.filled hocc (by omega) htr
          revert hfilled
          rcases expandNested (resolveWith b s (nested b s room)) (Template.pieces text) st
            with ⟨_ | cs, st'⟩
          · exact id
          · exact id

/-- An expression at the top is resolved by the rules. -/
theorem resolves_resolveTop (e : String) (st : State) :
    ∃ tr, Resolves b s 0 e st (resolveTop b s e st).1 (resolveTop b s e st).2 tr :=
  resolves_resolveWith (fun text st => evaluates_nested (by omega) (by omega) text st) e st

/-- A text at the top is expanded by the rules, and there is no error. -/
theorem expands_expand (ps : List (Piece (List Char))) (st : State) :
    ∃ tr, Expands b s 0 ps st (.ok (expand (resolveTop b s) ps st).1)
      (expand (resolveTop b s) ps st).2 tr := by
  induction ps generalizing st with
  | nil => exact ⟨[], .nil⟩
  | cons piece rest ih =>
      cases piece with
      | char c =>
          obtain ⟨tr, htr⟩ := ih st
          exact ⟨tr, .char htr⟩
      | span inner =>
          obtain ⟨tr₁, h₁⟩ := resolves_resolveTop (b := b) (s := s) (Template.expression inner) st
          simp only [expand]
          revert h₁
          rcases resolveTop b s (Template.expression inner) st with ⟨err | value, st₁⟩
          · intro h₁
            obtain ⟨tr₂, h₂⟩ := ih st₁
            exact ⟨tr₁ ++ tr₂, .left h₁ (.inl rfl) h₂⟩
          · intro h₁
            obtain ⟨tr₂, h₂⟩ := ih st₁
            exact ⟨tr₁ ++ tr₂, .value h₁ h₂⟩

theorem expand_chars (resolve : String → Step String) (cs : List Char) (st : State) :
    expand resolve (cs.map .char) st = (cs, st) := by
  induction cs with
  | nil => rfl
  | cons c cs ih => simp [expand, ih]

/-- The pieces of a text that is processed are expanded by the rules. -/
theorem expands_process (r : Resolver) (s : Surroundings) (text : String) (journal : Journal) :
    ∃ tr, Expands r.bindings s 0 (Template.pieces text) ⟨r.cache, journal⟩
      (.ok (r.process s text journal).1.toList)
      ⟨(r.process s text journal).2.1.cache, (r.process s text journal).2.2⟩ tr := by
  obtain ⟨tr, htr⟩ := expands_expand (b := r.bindings) (s := s) (Template.pieces text)
    ⟨r.cache, journal⟩
  refine ⟨tr, ?_⟩
  simp only [process, String.toList_ofList]
  exact htr

/-- A text is processed by the rules. -/
theorem evaluates_process (r : Resolver) (s : Surroundings) (text : String) (journal : Journal) :
    ∃ tr, Evaluates r.bindings s 0 text ⟨r.cache, journal⟩
      (.ok (r.process s text journal).1)
      ⟨(r.process s text journal).2.1.cache, (r.process s text journal).2.2⟩ tr := by
  cases hocc : occurs ['{', '{'] text.toList with
  | true =>
      obtain ⟨tr, htr⟩ := expands_process r s text journal
      refine ⟨(0, text) :: tr, ?_⟩
      rw [← String.ofList_toList (s := (r.process s text journal).1)]
      exact .filled hocc (Nat.zero_le _) htr
  | false =>
      refine ⟨[(0, text)], ?_⟩
      simp only [process, Template.pieces, Template.pieces_of_not_occurs hocc, expand_chars,
        String.ofList_toList]
      exact .verbatim hocc

/-- An expression that is asked for is resolved by the rules. -/
theorem resolves_resolveExpression (r : Resolver) (s : Surroundings) (expression : String)
    (journal : Journal) :
    ∃ tr, Resolves r.bindings s 0 (trimText expression) ⟨r.cache, journal⟩
      (r.resolveExpression s expression journal).1
      ⟨(r.resolveExpression s expression journal).2.1.cache,
        (r.resolveExpression s expression journal).2.2⟩ tr :=
  resolves_resolveTop (trimText expression) ⟨r.cache, journal⟩

/-! ## Depth -/

mutual

theorem Resolves.depth_le {d : Nat} {e : String} {st st' : State}
    {r : Except LookupError String} {tr : Trace} :
    Resolves b s d e st r st' tr → d ≤ depthLimit → ∀ v ∈ tr, v.1 ≤ depthLimit + 1
  | .kept _, _ => by simp
  | .answered _ _ _, _ => by simp
  | .refused _ _ _, _ => by simp
  | .named _ _ h, hd => h.depth_le (Nat.succ_le_succ hd)
  | .abandoned _ _ h, hd => h.depth_le (Nat.succ_le_succ hd)

/-- No value is evaluated deeper than one level below the limit. -/
theorem Evaluates.depth_le {d : Nat} {text : String} {st st' : State}
    {r : Except LookupError String} {tr : Trace} :
    Evaluates b s d text st r st' tr → d ≤ depthLimit + 1 → ∀ v ∈ tr, v.1 ≤ depthLimit + 1
  | .verbatim _, hd => by simpa using hd
  | .tooDeep _ _, hd => by simpa using hd
  | .filled _ hd h, hd' => by
      intro v hv
      rcases List.mem_cons.1 hv with rfl | hv
      · exact hd'
      · exact h.depth_le hd v hv

theorem Expands.depth_le {d : Nat} {ps : List (Piece (List Char))} {st st' : State}
    {r : Except LookupError (List Char)} {tr : Trace} :
    Expands b s d ps st r st' tr → d ≤ depthLimit → ∀ v ∈ tr, v.1 ≤ depthLimit + 1
  | .nil, _ => by simp
  | .char h, hd => h.depth_le hd
  | .value h₁ h₂, hd => by
      intro v hv
      rcases List.mem_append.1 hv with hv | hv
      · exact h₁.depth_le hd v hv
      · exact h₂.depth_le hd v hv
  | .left h₁ _ h₂, hd => by
      intro v hv
      rcases List.mem_append.1 hv with hv | hv
      · exact h₁.depth_le hd v hv
      · exact h₂.depth_le hd v hv
  | .aborted h₁ _ _, hd => h₁.depth_le hd

end

/-! ## Errors -/

/-- Only too deep a nesting ends a text, and only below the top. -/
theorem Expands.tooDeep_of_error {d : Nat} {ps : List (Piece (List Char))} {st st' : State}
    {r : Except LookupError (List Char)} {tr : Trace} (h : Expands b s d ps st r st' tr)
    {err : LookupError} (hr : r = .error err) : 0 < d ∧ err.tooDeep = true :=
  match h with
  | .nil => by cases hr
  | .char (r := r) h => by
      cases r with
      | ok cs => cases hr
      | error e => cases hr; exact h.tooDeep_of_error rfl
  | .value (r := r) _ h => by
      cases r with
      | ok cs => cases hr
      | error e => cases hr; exact h.tooDeep_of_error rfl
  | .left (r := r) _ _ h => by
      cases r with
      | ok cs => cases hr
      | error e => cases hr; exact h.tooDeep_of_error rfl
  | .aborted _ hd herr => by
      cases hr
      exact ⟨hd, herr⟩

/-- The error of a template is always that values nest too deep. -/
theorem Evaluates.tooDeep_of_error {d : Nat} {text : String} {st st' : State} {tr : Trace}
    {r : Except LookupError String} (h : Evaluates b s d text st r st' tr)
    {err : LookupError} (hr : r = .error err) : err.tooDeep = true := by
  cases h with
  | verbatim _ => cases hr
  | tooDeep _ _ => cases hr; rfl
  | @filled _ _ _ r _ _ _ _ h =>
      cases r with
      | ok cs => cases hr
      | error e => cases hr; exact (h.tooDeep_of_error rfl).2

/-- Any other error is the answer of a leaf. -/
theorem Resolves.answer_of_error {d : Nat} {e : String} {st st' : State} {tr : Trace}
    {err : LookupError} (h : Resolves b s d e st (.error err) st' tr)
    (herr : err.tooDeep = false) :
    b.template? (stripPercent e).1 = none ∧
      (answer b s (stripPercent e).1 st.journal).1 = .error err := by
  cases h with
  | refused _ htemplate hanswer => exact ⟨htemplate, by rw [hanswer]⟩
  | abandoned _ _ h =>
      rw [h.tooDeep_of_error rfl] at herr
      cases herr

/-! ## The cache grows -/

/-- Every expression that is kept before is kept after. -/
def KeptMono (before after : Dict String) : Prop :=
  ∀ e, (before.get? e).isSome → (after.get? e).isSome

theorem KeptMono.refl (cache : Dict String) : KeptMono cache cache := fun _ h => h

theorem KeptMono.trans {c₁ c₂ c₃ : Dict String} (h₁ : KeptMono c₁ c₂) (h₂ : KeptMono c₂ c₃) :
    KeptMono c₁ c₃ := fun e h => h₂ e (h₁ e h)

theorem KeptMono.insert {c₁ c₂ : Dict String} (h : KeptMono c₁ c₂) (e value : String) :
    KeptMono c₁ (c₂.insert e value) := by
  intro k hk
  rw [Dict.get?_insert]
  split
  · rfl
  · exact h k hk

mutual

theorem Resolves.kept_mono {d : Nat} {e : String} {st st' : State}
    {r : Except LookupError String} {tr : Trace} :
    Resolves b s d e st r st' tr → KeptMono st.cache st'.cache
  | .kept _ => .refl _
  | .answered _ _ _ => (KeptMono.refl _).insert _ _
  | .refused _ _ _ => .refl _
  | .named _ _ h => h.kept_mono.insert _ _
  | .abandoned _ _ h => h.kept_mono

theorem Evaluates.kept_mono {d : Nat} {text : String} {st st' : State}
    {r : Except LookupError String} {tr : Trace} :
    Evaluates b s d text st r st' tr → KeptMono st.cache st'.cache
  | .verbatim _ => .refl _
  | .tooDeep _ _ => .refl _
  | .filled _ _ h => h.kept_mono

theorem Expands.kept_mono {d : Nat} {ps : List (Piece (List Char))} {st st' : State}
    {r : Except LookupError (List Char)} {tr : Trace} :
    Expands b s d ps st r st' tr → KeptMono st.cache st'.cache
  | .nil => .refl _
  | .char h => h.kept_mono
  | .value h₁ h₂ => h₁.kept_mono.trans h₂.kept_mono
  | .left h₁ _ h₂ => h₁.kept_mono.trans h₂.kept_mono
  | .aborted h₁ _ _ => h₁.kept_mono

end

/-- An expression with a value is kept. -/
theorem Resolves.isSome_of_ok {d : Nat} {e value : String} {st st' : State} {tr : Trace}
    (h : Resolves b s d e st (.ok value) st' tr) : (st'.cache.get? e).isSome := by
  cases h with
  | kept hkept => simp [hkept]
  | answered _ _ _ => simp
  | named _ _ _ => simp

end Stencil.Resolver
