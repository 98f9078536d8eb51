import Stencil.Proofs.Resolver.History
import Stencil.Proofs.Resolver.Trap

/-!
# The cache is written once

What happens inside the evaluations of a history, deed by deed: a leaf had a value, a value was
put into the cache, a resolution came to an end. The rules of evaluation are given once more with
the list of their deeds (`ResolvesBy`, `EvaluatesBy`, `ExpandsBy`), so that the moments between
two deeds can be spoken of, also those in the middle of evaluations that have not ended.

In every history in which the cache is not cleared, a value is only ever put under an expression
that has none at that moment (`Orderly`), so an entry stays as it is at all later moments, every
later resolution gives it, and no leaf has a value twice for the same expression
(`cache_written_once`). An insertion that meets no entry is what `Evaluates.not_kept` says of
evaluations; the rest is an induction over deeds.
-/

namespace Stencil.Resolver

open Text

/-! ## Deeds -/

/-- What happens while expressions are resolved. -/
inductive Deed where
  /-- A system function or a reference was evaluated for an expression and had a value. -/
  | evaluated (e : String)
  /-- A value was put into the cache under an expression. -/
  | stored (e value : String)
  /-- The resolution of an expression ended with a result. -/
  | resolved (e : String) (r : Except LookupError String)

namespace Deed

/-- Whether a deed is the evaluation of a leaf for an expression. -/
def evaluates (e : String) : Deed → Bool
  | evaluated e' => e' == e
  | _ => false

/-- What a deed does to the cache. -/
def apply (cache : Dict String) : Deed → Dict String
  | stored e value => cache.insert e value
  | _ => cache

end Deed

/-- The cache after some deeds. -/
def replay (cache : Dict String) (log : List Deed) : Dict String := log.foldl Deed.apply cache

mutual

/-- The value of an expression, with the deeds of its resolution. -/
inductive ResolvesBy (b : Bindings) (s : Surroundings) :
    (d : Nat) → String → State → Except LookupError String → State → List Deed → Prop
  | kept {d e st value} : st.cache.get? e = some value →
      ResolvesBy b s d e st (.ok value) st [.resolved e (.ok value)]
  | answered {d e st value journal} : st.cache.get? e = none →
      b.template? (stripPercent e).1 = none →
      answer b s (stripPercent e).1 st.journal = (.ok value, journal) →
      ResolvesBy b s d e st (.ok (encodeIf (stripPercent e).2 value))
        ⟨st.cache.insert e (encodeIf (stripPercent e).2 value), journal⟩
        [.evaluated e, .stored e (encodeIf (stripPercent e).2 value),
          .resolved e (.ok (encodeIf (stripPercent e).2 value))]
  | refused {d e st err journal} : st.cache.get? e = none →
      b.template? (stripPercent e).1 = none →
      answer b s (stripPercent e).1 st.journal = (.error err, journal) →
      ResolvesBy b s d e st (.error err) ⟨st.cache, journal⟩ [.resolved e (.error err)]
  | named {d e st template value st' log} : st.cache.get? e = none →
      b.template? (stripPercent e).1 = some template →
      EvaluatesBy b s (d + 1) template
        ⟨st.cache, st.journal.warn (b.remarks (stripPercent e).1)⟩ (.ok value) st' log →
      ResolvesBy b s d e st (.ok (encodeIf (stripPercent e).2 value))
        ⟨st'.cache.insert e (encodeIf (stripPercent e).2 value), st'.journal⟩
        (log ++ [.stored e (encodeIf (stripPercent e).2 value),
          .resolved e (.ok (encodeIf (stripPercent e).2 value))])
  | abandoned {d e st template err st' log} : st.cache.get? e = none →
      b.template? (stripPercent e).1 = some template →
      EvaluatesBy b s (d + 1) template
        ⟨st.cache, st.journal.warn (b.remarks (stripPercent e).1)⟩ (.error err) st' log →
      ResolvesBy b s d e st (.error err) st' (log ++ [.resolved e (.error err)])

/-- The value of a template at depth `d`, with the deeds of its evaluation. -/
inductive EvaluatesBy (b : Bindings) (s : Surroundings) :
    (d : Nat) → String → State → Except LookupError String → State → List Deed → Prop
  | verbatim {d text st} : occurs ['{', '{'] text.toList = false →
      EvaluatesBy b s d text st (.ok text) st []
  | tooDeep {d text st} : occurs ['{', '{'] text.toList = true → depthLimit < d →
      EvaluatesBy b s d text st (.error (.recursionLimit text)) st []
  | filled {d text st r st' log} : occurs ['{', '{'] text.toList = true → d ≤ depthLimit →
      ExpandsBy b s d (Template.pieces text) st r st' log →
      EvaluatesBy b s d text st (r.map String.ofList) st' log

/-- The text that the pieces of a template become, with the deeds on the way. -/
inductive ExpandsBy (b : Bindings) (s : Surroundings) :
    (d : Nat) → List (Piece (List Char)) → State → Except LookupError (List Char) → State →
      List Deed → Prop
  | nil {d st} : ExpandsBy b s d [] st (.ok []) st []
  | char {d c rest st r st' log} : ExpandsBy b s d rest st r st' log →
      ExpandsBy b s d (.char c :: rest) st (r.map (c :: ·)) st' log
  | value {d inner rest st v st₁ log₁ r st₂ log₂} :
      ResolvesBy b s d (Template.expression inner) st (.ok v) st₁ log₁ →
      ExpandsBy b s d rest st₁ r st₂ log₂ →
      ExpandsBy b s d (.span inner :: rest) st (r.map (v.toList ++ ·)) st₂ (log₁ ++ log₂)
  | left {d inner rest st err st₁ log₁ r st₂ log₂} :
      ResolvesBy b s d (Template.expression inner) st (.error err) st₁ log₁ →
      d = 0 ∨ err.tooDeep = false →
      ExpandsBy b s d rest st₁ r st₂ log₂ →
      ExpandsBy b s d (.span inner :: rest) st (r.map (Template.write inner ++ ·)) st₂
        (log₁ ++ log₂)
  | aborted {d inner rest st err st₁ log₁} :
      ResolvesBy b s d (Template.expression inner) st (.error err) st₁ log₁ →
      0 < d → err.tooDeep = true →
      ExpandsBy b s d (.span inner :: rest) st (.error err) st₁ log₁

end

variable {b : Bindings} {s : Surroundings}

/-! ## Every evaluation has its deeds -/

mutual

theorem Resolves.log {d : Nat} {e : String} {st st' : State} {r : Except LookupError String}
    {tr : Trace} : Resolves b s d e st r st' tr → ∃ log, ResolvesBy b s d e st r st' log
  | .kept he => ⟨_, .kept he⟩
  | .answered he htemplate hanswer => ⟨_, .answered he htemplate hanswer⟩
  | .refused he htemplate hanswer => ⟨_, .refused he htemplate hanswer⟩
  | .named he htemplate h => by
      obtain ⟨log, hlog⟩ := h.log
      exact ⟨_, .named he htemplate hlog⟩
  | .abandoned he htemplate h => by
      obtain ⟨log, hlog⟩ := h.log
      exact ⟨_, .abandoned he htemplate hlog⟩

theorem Evaluates.log {d : Nat} {text : String} {st st' : State}
    {r : Except LookupError String} {tr : Trace} :
    Evaluates b s d text st r st' tr → ∃ log, EvaluatesBy b s d text st r st' log
  | .verbatim hocc => ⟨_, .verbatim hocc⟩
  | .tooDeep hocc hd => ⟨_, .tooDeep hocc hd⟩
  | .filled hocc hd h => by
      obtain ⟨log, hlog⟩ := h.log
      exact ⟨_, .filled hocc hd hlog⟩

theorem Expands.log {d : Nat} {ps : List (Piece (List Char))} {st st' : State}
    {r : Except LookupError (List Char)} {tr : Trace} :
    Expands b s d ps st r st' tr → ∃ log, ExpandsBy b s d ps st r st' log
  | .nil => ⟨_, .nil⟩
  | .char h => by
      obtain ⟨log, hlog⟩ := h.log
      exact ⟨_, .char hlog⟩
  | .value h₁ h₂ => by
      obtain ⟨log₁, hlog₁⟩ := h₁.log
      obtain ⟨log₂, hlog₂⟩ := h₂.log
      exact ⟨_, .value hlog₁ hlog₂⟩
  | .left h₁ hleft h₂ => by
      obtain ⟨log₁, hlog₁⟩ := h₁.log
      obtain ⟨log₂, hlog₂⟩ := h₂.log
      exact ⟨_, .left hlog₁ hleft hlog₂⟩
  | .aborted h₁ hd herr => by
      obtain ⟨log₁, hlog₁⟩ := h₁.log
      exact ⟨_, .aborted hlog₁ hd herr⟩

end

mutual

/-- Without its deeds, a resolution follows the rules. -/
theorem ResolvesBy.resolves {d : Nat} {e : String} {st st' : State}
    {r : Except LookupError String} {log : List Deed} :
    ResolvesBy b s d e st r st' log → ∃ tr, Resolves b s d e st r st' tr
  | .kept he => ⟨_, .kept he⟩
  | .answered he htemplate hanswer => ⟨_, .answered he htemplate hanswer⟩
  | .refused he htemplate hanswer => ⟨_, .refused he htemplate hanswer⟩
  | .named he htemplate h => by
      obtain ⟨tr, htr⟩ := h.evaluates
      exact ⟨_, .named he htemplate htr⟩
  | .abandoned he htemplate h => by
      obtain ⟨tr, htr⟩ := h.evaluates
      exact ⟨_, .abandoned he htemplate htr⟩

theorem EvaluatesBy.evaluates {d : Nat} {text : String} {st st' : State}
    {r : Except LookupError String} {log : List Deed} :
    EvaluatesBy b s d text st r st' log → ∃ tr, Evaluates b s d text st r st' tr
  | .verbatim hocc => ⟨_, .verbatim hocc⟩
  | .tooDeep hocc hd => ⟨_, .tooDeep hocc hd⟩
  | .filled hocc hd h => by
      obtain ⟨tr, htr⟩ := h.expands
      exact ⟨_, .filled hocc hd htr⟩

theorem ExpandsBy.expands {d : Nat} {ps : List (Piece (List Char))} {st st' : State}
    {r : Except LookupError (List Char)} {log : List Deed} :
    ExpandsBy b s d ps st r st' log → ∃ tr, Expands b s d ps st r st' tr
  | .nil => ⟨_, .nil⟩
  | .char h => by
      obtain ⟨tr, htr⟩ := h.expands
      exact ⟨_, .char htr⟩
  | .value h₁ h₂ => by
      obtain ⟨tr₁, htr₁⟩ := h₁.resolves
      obtain ⟨tr₂, htr₂⟩ := h₂.expands
      exact ⟨_, .value htr₁ htr₂⟩
  | .left h₁ hleft h₂ => by
      obtain ⟨tr₁, htr₁⟩ := h₁.resolves
      obtain ⟨tr₂, htr₂⟩ := h₂.expands
      exact ⟨_, .left htr₁ hleft htr₂⟩
  | .aborted h₁ hd herr => by
      obtain ⟨tr₁, htr₁⟩ := h₁.resolves
      exact ⟨_, .aborted htr₁ hd herr⟩

end

/-! ## Orderly deeds -/

/-- Deeds that respect the cache: a value is put where there is none, a leaf is evaluated just
before its value is put there, and the resolution of an expression that is kept gives what is
kept. -/
inductive Orderly : Dict String → List Deed → Prop
  | nil {cache} : Orderly cache []
  | evaluated {cache e value log} : Orderly cache (.stored e value :: log) →
      Orderly cache (.evaluated e :: .stored e value :: log)
  | stored {cache e value log} : cache.get? e = none → Orderly (cache.insert e value) log →
      Orderly cache (.stored e value :: log)
  | resolved {cache e r log} : (∀ value, cache.get? e = some value → r = .ok value) →
      Orderly cache log → Orderly cache (.resolved e r :: log)

theorem replay_append (cache : Dict String) (log log' : List Deed) :
    replay cache (log ++ log') = replay (replay cache log) log' :=
  List.foldl_append

theorem Orderly.append {cache : Dict String} {log log' : List Deed} (h : Orderly cache log)
    (h' : Orderly (replay cache log) log') : Orderly cache (log ++ log') := by
  induction h with
  | nil => exact h'
  | evaluated _ ih => exact .evaluated (ih h')
  | stored he _ ih => exact .stored he (ih h')
  | resolved hr _ ih => exact .resolved hr (ih h')

/-- A value is stored where there is none, and the resolution ends with it. -/
theorem Orderly.store {cache : Dict String} {e : String} (he : cache.get? e = none)
    (value : String) : Orderly cache [.stored e value, .resolved e (.ok value)] := by
  refine .stored he (.resolved ?_ .nil)
  intro value' h
  rw [Dict.get?_insert, if_pos rfl] at h
  rw [Option.some.inj h]

theorem Orderly.of_append {cache : Dict String} {before after : List Deed}
    (h : Orderly cache (before ++ after)) : Orderly (replay cache before) after := by
  induction before generalizing cache with
  | nil => exact h
  | cons deed before ih =>
      rw [List.cons_append] at h
      generalize hrest : before ++ after = rest at h
      cases h with
      | evaluated h => exact ih (hrest ▸ h)
      | stored _ h => exact ih (hrest ▸ h)
      | resolved _ h => exact ih (hrest ▸ h)

/-- Without a value stored under it, an expression has the entry that it had. -/
theorem get?_replay_of_not_stored {e : String} {log : List Deed} (cache : Dict String)
    (h : ∀ value, .stored e value ∉ log) : (replay cache log).get? e = cache.get? e := by
  induction log generalizing cache with
  | nil => rfl
  | cons deed log ih =>
      have hlog : ∀ value, .stored e value ∉ log := fun value hmem =>
        h value (List.mem_cons_of_mem _ hmem)
      have hdeed : (deed.apply cache).get? e = cache.get? e := by
        cases deed with
        | stored e' value =>
            have hne : e ≠ e' := by
              rintro rfl
              exact h value List.mem_cons_self
            rw [Deed.apply, Dict.get?_insert, if_neg hne]
        | evaluated e' => rfl
        | resolved e' r => rfl
      rw [replay, List.foldl_cons]
      exact (ih (deed.apply cache) hlog).trans hdeed

/-- Under an expression that is kept nothing is stored or evaluated any more, and all resolutions
give what is kept. -/
theorem Orderly.of_kept {cache : Dict String} {log : List Deed} (h : Orderly cache log)
    {e value : String} (he : cache.get? e = some value) :
    (∀ value', .stored e value' ∉ log) ∧ (∀ r, .resolved e r ∈ log → r = .ok value) ∧
      log.countP (Deed.evaluates e) = 0 := by
  induction h with
  | nil => exact ⟨by simp, by simp, rfl⟩
  | @evaluated cache e' value' log _ ih =>
      obtain ⟨hstored, hresolved, hcount⟩ := ih he
      have hne : e' ≠ e := by
        rintro rfl
        exact hstored value' List.mem_cons_self
      refine ⟨by simpa using hstored, by simpa using hresolved, ?_⟩
      rw [List.countP_cons, hcount]
      simp [Deed.evaluates, hne]
  | @stored cache e' value' log hnone _ ih =>
      have hne : e ≠ e' := by
        rintro rfl
        rw [hnone] at he
        cases he
      obtain ⟨hstored, hresolved, hcount⟩ := ih (by simpa [hne] using he)
      refine ⟨by simpa [hne] using hstored, by simpa using hresolved, ?_⟩
      rw [List.countP_cons, hcount]
      rfl
  | @resolved cache e' r log hr _ ih =>
      obtain ⟨hstored, hresolved, hcount⟩ := ih he
      refine ⟨by simpa using hstored, ?_, ?_⟩
      · intro r' hmem
        rcases List.mem_cons.1 hmem with heq | hmem
        · cases heq
          exact hr value he
        · exact hresolved r' hmem
      · rw [List.countP_cons, hcount]
        rfl

/-- A leaf has a value at most once for an expression. -/
theorem Orderly.evaluates_le_one {cache : Dict String} {log : List Deed} (h : Orderly cache log)
    (e : String) : log.countP (Deed.evaluates e) ≤ 1 := by
  induction h with
  | nil => exact Nat.zero_le 1
  | @evaluated cache e' value log h ih =>
      rw [List.countP_cons]
      by_cases he : e' = e
      · -- its value is stored at once, and from then on it is kept
        subst he
        cases h with
        | stored _ h =>
            have hkept : (cache.insert e' value).get? e' = some value := by simp
            rw [List.countP_cons, (h.of_kept hkept).2.2]
            simp [Deed.evaluates]
      · simpa [Deed.evaluates, he] using ih
  | stored _ _ ih => simpa [List.countP_cons, Deed.evaluates] using ih
  | resolved _ _ ih => simpa [List.countP_cons, Deed.evaluates] using ih

/-! ## Evaluation is orderly -/

/-- Orderly deeds that turn one cache into another. -/
structure Turns (before : Dict String) (log : List Deed) (after : Dict String) : Prop where
  orderly : Orderly before log
  replay_eq : replay before log = after

namespace Turns

theorem nil (cache : Dict String) : Turns cache [] cache := ⟨.nil, rfl⟩

theorem append {c₁ c₂ c₃ : Dict String} {log₁ log₂ : List Deed} (h₁ : Turns c₁ log₁ c₂)
    (h₂ : Turns c₂ log₂ c₃) : Turns c₁ (log₁ ++ log₂) c₃ := by
  obtain ⟨horderly, rfl⟩ := h₁
  refine ⟨horderly.append h₂.orderly, ?_⟩
  rw [replay_append]
  exact h₂.replay_eq

theorem store {cache : Dict String} {e : String} (he : cache.get? e = none) (value : String) :
    Turns cache [.stored e value, .resolved e (.ok value)] (cache.insert e value) :=
  ⟨.store he value, rfl⟩

theorem fail {cache : Dict String} {e : String} (he : cache.get? e = none) (err : LookupError) :
    Turns cache [.resolved e (.error err)] cache := by
  refine ⟨.resolved ?_ .nil, rfl⟩
  intro value hvalue
  rw [he] at hvalue
  cases hvalue

end Turns

mutual

/-- The deeds of a resolution are orderly and do to the cache what the resolution does. -/
theorem ResolvesBy.turns {d : Nat} {e : String} {st st' : State}
    {r : Except LookupError String} {log : List Deed} :
    ResolvesBy b s d e st r st' log → Turns st.cache log st'.cache
  | .kept he => by
      refine ⟨.resolved ?_ .nil, rfl⟩
      intro value hvalue
      rw [he] at hvalue
      cases hvalue
      rfl
  | .answered he _ _ => ⟨.evaluated (Turns.store he _).orderly, rfl⟩
  | .refused he _ _ => .fail he _
  | .named he htemplate h => by
      -- whatever was evaluated on the way, the expression is still not kept
      obtain ⟨tr, htr⟩ := h.evaluates
      exact h.turns.append (.store (htr.not_kept htemplate he) _)
  | .abandoned he htemplate h => by
      obtain ⟨tr, htr⟩ := h.evaluates
      exact h.turns.append (.fail (htr.not_kept htemplate he) _)

theorem EvaluatesBy.turns {d : Nat} {text : String} {st st' : State}
    {r : Except LookupError String} {log : List Deed} :
    EvaluatesBy b s d text st r st' log → Turns st.cache log st'.cache
  | .verbatim _ => .nil _
  | .tooDeep _ _ => .nil _
  | .filled _ _ h => h.turns

theorem ExpandsBy.turns {d : Nat} {ps : List (Piece (List Char))} {st st' : State}
    {r : Except LookupError (List Char)} {log : List Deed} :
    ExpandsBy b s d ps st r st' log → Turns st.cache log st'.cache
  | .nil => .nil _
  | .char h => h.turns
  | .value h₁ h₂ => h₁.turns.append h₂.turns
  | .left h₁ _ h₂ => h₁.turns.append h₂.turns
  | .aborted h₁ _ _ => h₁.turns

end

/-! ## Histories -/

/-- The deeds of an operation on a resolver. -/
def Operation.Does : Operation → Resolver × Journal → List Deed → Prop
  | .process s text, (r, journal), log =>
    ExpandsBy r.bindings s 0 (Template.pieces text) ⟨r.cache, journal⟩
      (.ok (r.process s text journal).1.toList)
      ⟨(r.process s text journal).2.1.cache, (r.process s text journal).2.2⟩ log
  | .resolve s expression, (r, journal), log =>
    ResolvesBy r.bindings s 0 (trimText expression) ⟨r.cache, journal⟩
      (r.resolveExpression s expression journal).1
      ⟨(r.resolveExpression s expression journal).2.1.cache,
        (r.resolveExpression s expression journal).2.2⟩ log
  | _, _, log => log = []

/-- The deeds of a history. -/
inductive Does : List Operation → Resolver × Journal → List Deed → Prop
  | nil {p} : Does [] p []
  | cons {op ops p log log'} : op.Does p log → Does ops (op.run p) log' →
      Does (op :: ops) p (log ++ log')

theorem Operation.exists_does (op : Operation) (p : Resolver × Journal) :
    ∃ log, op.Does p log := by
  obtain ⟨r, journal⟩ := p
  cases op with
  | process s text =>
      obtain ⟨tr, htr⟩ := expands_process r s text journal
      exact htr.log
  | resolve s expression =>
      obtain ⟨tr, htr⟩ := resolves_resolveExpression r s expression journal
      exact htr.log
  | declare name value => exact ⟨[], rfl⟩
  | setVariable name value => exact ⟨[], rfl⟩
  | setResponse name response => exact ⟨[], rfl⟩
  | clearCache => exact ⟨[], rfl⟩

theorem exists_does (ops : List Operation) (p : Resolver × Journal) : ∃ log, Does ops p log := by
  induction ops generalizing p with
  | nil => exact ⟨[], .nil⟩
  | cons op ops ih =>
      obtain ⟨log, hlog⟩ := op.exists_does p
      obtain ⟨log', hlog'⟩ := ih (op.run p)
      exact ⟨log ++ log', .cons hlog hlog'⟩

/-- The deeds of an operation that does not clear the cache are orderly. -/
theorem Operation.Does.turns {op : Operation} (hop : op ≠ .clearCache) {p : Resolver × Journal}
    {log : List Deed} (h : op.Does p log) : Turns p.1.cache log (op.run p).1.cache := by
  obtain ⟨r, journal⟩ := p
  cases op with
  | process s text => exact ExpandsBy.turns h
  | resolve s expression => exact ResolvesBy.turns h
  | clearCache => exact absurd rfl hop
  -- the rest changes what names stand for and leaves the cache alone
  | declare name value =>
      obtain rfl : log = [] := h
      exact .nil _
  | setVariable name value =>
      obtain rfl : log = [] := h
      exact .nil _
  | setResponse name response =>
      obtain rfl : log = [] := h
      exact .nil _

theorem Does.turns {ops : List Operation} {p : Resolver × Journal} {log : List Deed}
    (h : Does ops p log) (hops : ∀ op ∈ ops, op ≠ .clearCache) :
    Turns p.1.cache log (runAll ops p).1.cache := by
  induction h with
  | nil => exact .nil _
  | cons hop _ ih =>
      have hfirst := hop.turns (hops _ List.mem_cons_self)
      exact hfirst.append (ih fun op hmem => hops op (List.mem_cons_of_mem _ hmem))

/-- An expression that is kept is resolved to what is kept, and nothing else happens. -/
theorem resolveExpression_of_kept {r : Resolver} {expression value : String}
    (h : r.cache.get? (trimText expression) = some value) (s : Surroundings)
    (journal : Journal) : r.resolveExpression s expression journal = (.ok value, r, journal) := by
  simp only [resolveExpression, resolveTop, resolveWith, h]

/-- In a history without clearing the cache, whatever else changes between its operations, an
entry stays from the moment it is made, nothing is stored under its expression again, and every
resolution from then on gives it; so a system function or a reference has a value at most once for
the same expression. The moments are those between any two deeds, also in the middle of an
evaluation. -/
theorem cache_written_once {ops : List Operation} (hops : ∀ op ∈ ops, op ≠ .clearCache)
    (start : Resolver × Journal) :
    (∃ log, Does ops start log) ∧
    ∀ log, Does ops start log →
      replay start.1.cache log = (runAll ops start).1.cache ∧
      (∀ before between after, log = before ++ between ++ after → ∀ e value,
        (replay start.1.cache before).get? e = some value →
          (replay start.1.cache (before ++ between)).get? e = some value ∧
          (∀ value', .stored e value' ∉ between) ∧
          (∀ r, .resolved e r ∈ between → r = .ok value)) ∧
      (∀ expression value, (runAll ops start).1.cache.get? (trimText expression) = some value →
        ∀ s journal, (runAll ops start).1.resolveExpression s expression journal =
          (.ok value, (runAll ops start).1, journal)) ∧
      (∀ e, log.countP (Deed.evaluates e) ≤ 1) := by
  refine ⟨exists_does ops start, ?_⟩
  intro log hlog
  have hturns := hlog.turns hops
  refine ⟨hturns.replay_eq, ?_, ?_, hturns.orderly.evaluates_le_one⟩
  · rintro before between after rfl e value he
    have hsplit := hturns.orderly
    rw [List.append_assoc] at hsplit
    obtain ⟨hstored, hresolved, -⟩ := hsplit.of_append.of_kept he
    have hbetween : ∀ value', .stored e value' ∉ between := fun value' hmem =>
      hstored value' (List.mem_append_left after hmem)
    refine ⟨?_, hbetween, fun r hmem => hresolved r (List.mem_append_left after hmem)⟩
    rw [replay_append, get?_replay_of_not_stored _ hbetween]
    exact he
  · intro expression value hkept s journal
    exact resolveExpression_of_kept hkept s journal

theorem cache_written_once_identifier :
    let later : Surroundings := { Surroundings.bare with random := fun _ => 7 }
    let ops : List Operation := [.process .bare "{{a}} {{ping}}", .setVariable "a" "2",
      .process later "{{$guid}} {{%a}}", .resolve later "a"]
    let start : Resolver × Journal :=
      (⟨.ofVariables [("a", "x{{$guid}}"), ("ping", "{{a}}{{ping}}")], .empty⟩, [])
    let r := (runAll ops start).1
    (∀ op ∈ ops, op ≠ .clearCache) ∧
    (∃ log, Does ops start log) ∧
    (∀ log, Does ops start log → log.countP (Deed.evaluates "$guid") ≤ 1) ∧
    r.cache.get? "a" = some "x00000000-0000-4000-8000-000000000000" ∧
    r.cache.get? "%a" = some "2" ∧
    (r.resolveExpression later " a " []).1 = .ok "x00000000-0000-4000-8000-000000000000" := by
  intro later ops start r
  have hops : ∀ op ∈ ops, op ≠ .clearCache := by simp [ops]
  obtain ⟨hexists, hlog⟩ := cache_written_once hops start
  have hkept : r.cache.get? (trimText " a ") = some "x00000000-0000-4000-8000-000000000000" := by
    decide +kernel
  refine ⟨hops, hexists, fun log h => (hlog log h).2.2.2 "$guid", hkept, by decide +kernel, ?_⟩
  obtain ⟨log, h⟩ := hexists
  rw [(hlog log h).2.2.1 " a " _ hkept later []]

end Stencil.Resolver
