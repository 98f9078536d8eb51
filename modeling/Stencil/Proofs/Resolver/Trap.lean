import Mathlib.Logic.Relation
import Stencil.Proofs.Resolver.Evaluation

/-!
# Traps

A trap is a set of expressions each of which names a variable in whose template another one of the
set stands. While none of the set is kept, an evaluation that meets one of them goes from one to
the next until the limit of depth ends it, and since the error of depth is passed on below the
top, none of the set gets a value and none is kept afterwards (`Resolves.trapped`). The argument
is a recursion on derivations: one that gives an expression of the set a value would hold a
smaller one that does.

The expressions that wait for their values while one of them is met again make up a trap. So an
expression is not kept when the evaluation of its template ends, whatever was evaluated on the way
(`Evaluates.not_kept`): an insertion into the cache never meets an entry.
-/

namespace Stencil.Resolver

open Text Relation

/-! ## Results that give up -/

/-- A result says that values nest too deep. -/
def GivesUp {α : Type} (r : Except LookupError α) : Prop :=
  ∃ err, r = .error err ∧ err.tooDeep = true

theorem GivesUp.map {α β : Type} {r : Except LookupError α} (h : GivesUp r) (f : α → β) :
    GivesUp (r.map f) := by
  obtain ⟨err, rfl, herr⟩ := h
  exact ⟨err, rfl, herr⟩

theorem not_givesUp_ok {α : Type} (a : α) : ¬ GivesUp (.ok a : Except LookupError α) := by
  rintro ⟨err, h, -⟩
  cases h

/-! ## Evaluation in a trap -/

/-- Each expression of the set names a variable in whose template another one of the set stands. -/
def Bindings.Trap (b : Bindings) (C : String → Prop) : Prop :=
  ∀ e, C e → ∃ template, b.template? (stripPercent e).1 = some template ∧
    ∃ inner, .span inner ∈ Template.pieces template ∧ C (Template.expression inner)

/-- No expression of the set is kept. -/
def Clear (C : String → Prop) (cache : Dict String) : Prop :=
  ∀ e value, cache.get? e = some value → ¬ C e

variable {b : Bindings} {s : Surroundings} {C : String → Prop}

theorem Clear.empty : Clear C .empty := by
  intro e value h
  rw [Dict.get?_empty] at h
  cases h

theorem Clear.insert {cache : Dict String} (h : Clear C cache) {e : String} (he : ¬ C e)
    (value : String) : Clear C (cache.insert e value) := by
  intro e' value' h'
  rw [Dict.get?_insert] at h'
  split at h'
  next heq => exact heq ▸ he
  next => exact h e' value' h'

theorem Bindings.Trap.template_ne_none (hC : b.Trap C) {e : String} (h : C e) :
    b.template? (stripPercent e).1 ≠ none := by
  obtain ⟨template, htemplate, -⟩ := hC e h
  rw [htemplate]
  simp

theorem Bindings.Trap.step (hC : b.Trap C) {e template : String} (h : C e)
    (htemplate : b.template? (stripPercent e).1 = some template) :
    ∃ inner, .span inner ∈ Template.pieces template ∧ C (Template.expression inner) := by
  obtain ⟨template', htemplate', hinner⟩ := hC e h
  rw [htemplate] at htemplate'
  cases htemplate'
  exact hinner

mutual

/-- An expression of a trap gives up, and none is put into the cache. -/
theorem Resolves.trapped (hC : b.Trap C) {d : Nat} {e : String} {st st' : State}
    {r : Except LookupError String} {tr : Trace} : Resolves b s d e st r st' tr →
    Clear C st.cache → Clear C st'.cache ∧ (C e → GivesUp r)
  | .kept hkept, hf => ⟨hf, fun he => absurd he (hf _ _ hkept)⟩
  | .answered _ htemplate _, hf => by
      have he : ¬ C e := fun he => hC.template_ne_none he htemplate
      exact ⟨hf.insert he _, fun he' => absurd he' he⟩
  | .refused _ htemplate _, hf =>
      ⟨hf, fun he => absurd htemplate (hC.template_ne_none he)⟩
  | .named _ htemplate h, hf => by
      -- a template with a value names nothing that gives up, so this is none of the set
      obtain ⟨hf', hup⟩ := h.trapped hC hf
      have he : ¬ C e := fun he =>
        not_givesUp_ok _ (hup (Nat.succ_pos _) (hC.step he htemplate))
      exact ⟨hf'.insert he _, fun he' => absurd he' he⟩
  | .abandoned _ _ h, hf => by
      obtain ⟨hf', -⟩ := h.trapped hC hf
      exact ⟨hf', fun _ => ⟨_, rfl, h.tooDeep_of_error rfl⟩⟩

theorem Evaluates.trapped (hC : b.Trap C) {d : Nat} {text : String} {st st' : State}
    {r : Except LookupError String} {tr : Trace} : Evaluates b s d text st r st' tr →
    Clear C st.cache → Clear C st'.cache ∧
      (0 < d → (∃ inner, .span inner ∈ Template.pieces text ∧ C (Template.expression inner)) →
        GivesUp r)
  | .verbatim hocc, hf => by
      -- there is no placeholder in the template at all
      refine ⟨hf, ?_⟩
      rintro - ⟨inner, hmem, -⟩
      rw [Template.pieces, Template.pieces_of_not_occurs hocc] at hmem
      simp at hmem
  | .tooDeep _ _, hf => ⟨hf, fun _ _ => ⟨_, rfl, rfl⟩⟩
  | .filled _ _ h, hf => by
      obtain ⟨hf', hup⟩ := h.trapped hC hf
      exact ⟨hf', fun hd hinner => (hup hd hinner).map _⟩

theorem Expands.trapped (hC : b.Trap C) {d : Nat} {ps : List (Piece (List Char))}
    {st st' : State} {r : Except LookupError (List Char)} {tr : Trace} :
    Expands b s d ps st r st' tr → Clear C st.cache → Clear C st'.cache ∧
      (0 < d → (∃ inner, .span inner ∈ ps ∧ C (Template.expression inner)) → GivesUp r)
  | .nil, hf => ⟨hf, by rintro - ⟨inner, hmem, -⟩; cases hmem⟩
  | .char h, hf => by
      obtain ⟨hf', hup⟩ := h.trapped hC hf
      refine ⟨hf', ?_⟩
      rintro hd ⟨inner, hmem, hinner⟩
      rcases List.mem_cons.1 hmem with hmem | hmem
      · cases hmem
      · exact (hup hd ⟨inner, hmem, hinner⟩).map _
  | .value h₁ h₂, hf => by
      obtain ⟨hf₁, hup₁⟩ := h₁.trapped hC hf
      obtain ⟨hf₂, hup₂⟩ := h₂.trapped hC hf₁
      refine ⟨hf₂, ?_⟩
      rintro hd ⟨inner, hmem, hinner⟩
      rcases List.mem_cons.1 hmem with hmem | hmem
      · cases hmem
        exact absurd (hup₁ hinner) (not_givesUp_ok _)
      · exact (hup₂ hd ⟨inner, hmem, hinner⟩).map _
  | .left h₁ hleft h₂, hf => by
      obtain ⟨hf₁, hup₁⟩ := h₁.trapped hC hf
      obtain ⟨hf₂, hup₂⟩ := h₂.trapped hC hf₁
      refine ⟨hf₂, ?_⟩
      rintro hd ⟨inner, hmem, hinner⟩
      rcases List.mem_cons.1 hmem with hmem | hmem
      · -- below the top an error of depth does not leave the placeholder
        cases hmem
        obtain ⟨err, herr, hdeep⟩ := hup₁ hinner
        cases herr
        rcases hleft with hd0 | hshallow
        · omega
        · rw [hshallow] at hdeep
          cases hdeep
      · exact (hup₂ hd ⟨inner, hmem, hinner⟩).map _
  | .aborted h₁ _ herr, hf => ⟨(h₁.trapped hC hf).1, fun _ _ => ⟨_, rfl, herr⟩⟩

end

/-! ## The way to an insertion -/

/-- An expression that is not kept names a variable in whose template one stands that is not kept
either. -/
def Bindings.Opens (b : Bindings) (cache : Dict String) (e e' : String) : Prop :=
  cache.get? e = none ∧ cache.get? e' = none ∧
    ∃ template, b.template? (stripPercent e).1 = some template ∧
      ∃ inner, .span inner ∈ Template.pieces template ∧ Template.expression inner = e'

/-- What is not kept later is not kept before. -/
theorem KeptMono.none {before after : Dict String} (h : KeptMono before after) {e : String}
    (hnone : after.get? e = none) : before.get? e = none := by
  cases hbefore : before.get? e with
  | none => rfl
  | some value =>
      have hafter := h e (by rw [hbefore]; rfl)
      rw [hnone] at hafter
      cases hafter

theorem Bindings.Opens.mono {before after : Dict String} (h : KeptMono before after)
    {e e' : String} (hopens : b.Opens after e e') : b.Opens before e e' :=
  ⟨h.none hopens.1, h.none hopens.2.1, hopens.2.2⟩

/-- From an expression that is not kept a way of such expressions leads to `k`. -/
def Bindings.Leads (b : Bindings) (cache : Dict String) (e k : String) : Prop :=
  cache.get? e = none ∧ ReflTransGen (b.Opens cache) e k

/-- From an expression among the pieces of a text a way leads to `k`. -/
def Bindings.LeadsFrom (b : Bindings) (cache : Dict String) (ps : List (Piece (List Char)))
    (k : String) : Prop :=
  ∃ inner, .span inner ∈ ps ∧ b.Leads cache (Template.expression inner) k

theorem Bindings.Leads.mono {before after : Dict String} (h : KeptMono before after)
    {e k : String} (hlead : b.Leads after e k) : b.Leads before e k :=
  ⟨h.none hlead.1, ReflTransGen.mono (fun _ _ hopens => hopens.mono h) _ _ hlead.2⟩

theorem Bindings.LeadsFrom.tail {cache : Dict String} {ps : List (Piece (List Char))}
    {k : String} (h : b.LeadsFrom cache ps k) (piece : Piece (List Char)) :
    b.LeadsFrom cache (piece :: ps) k := by
  obtain ⟨inner, hmem, hlead⟩ := h
  exact ⟨inner, List.mem_cons_of_mem _ hmem, hlead⟩

/-- What is put into the cache at a placeholder or behind it is led to from there. -/
theorem leadsFrom_cons {before between : Dict String} (hmono : KeptMono before between)
    {inner : List Char} {rest : List (Piece (List Char))} {k : String}
    (hfirst : between.get? k ≠ none → b.Leads before (Template.expression inner) k)
    (hrest : between.get? k = none → b.LeadsFrom between rest k) :
    b.LeadsFrom before (.span inner :: rest) k := by
  by_cases hk : between.get? k = none
  · obtain ⟨inner', hmem, hlead⟩ := hrest hk
    exact ⟨inner', List.mem_cons_of_mem _ hmem, hlead.mono hmono⟩
  · exact ⟨inner, List.mem_cons_self, hfirst hk⟩

mutual

/-- What is put into the cache is reached through expressions that were not kept before. -/
theorem Resolves.leads {k : String} {d : Nat} {e : String} {st st' : State}
    {r : Except LookupError String} {tr : Trace} : Resolves b s d e st r st' tr →
    st.cache.get? k = none → st'.cache.get? k ≠ none → b.Leads st.cache e k
  | .kept _, hnone, hk => absurd hnone hk
  | .answered he _ _, hnone, hk => by
      refine ⟨he, ?_⟩
      rw [Dict.get?_insert] at hk
      split at hk
      next heq => exact heq ▸ .refl
      next => exact absurd hnone hk
  | .refused _ _ _, hnone, hk => absurd hnone hk
  | .named he htemplate h, hnone, hk => by
      refine ⟨he, ?_⟩
      rw [Dict.get?_insert] at hk
      split at hk
      next heq => exact heq ▸ .refl
      next =>
        obtain ⟨inner, hmem, hinner, hpath⟩ := h.leads hnone hk
        exact .head ⟨he, hinner, _, htemplate, inner, hmem, rfl⟩ hpath
  | .abandoned he htemplate h, hnone, hk => by
      obtain ⟨inner, hmem, hinner, hpath⟩ := h.leads hnone hk
      exact ⟨he, .head ⟨he, hinner, _, htemplate, inner, hmem, rfl⟩ hpath⟩

theorem Evaluates.leads {k : String} {d : Nat} {text : String} {st st' : State}
    {r : Except LookupError String} {tr : Trace} : Evaluates b s d text st r st' tr →
    st.cache.get? k = none → st'.cache.get? k ≠ none →
    b.LeadsFrom st.cache (Template.pieces text) k
  | .verbatim _, hnone, hk => absurd hnone hk
  | .tooDeep _ _, hnone, hk => absurd hnone hk
  | .filled _ _ h, hnone, hk => h.leads hnone hk

theorem Expands.leads {k : String} {d : Nat} {ps : List (Piece (List Char))} {st st' : State}
    {r : Except LookupError (List Char)} {tr : Trace} : Expands b s d ps st r st' tr →
    st.cache.get? k = none → st'.cache.get? k ≠ none → b.LeadsFrom st.cache ps k
  | .nil, hnone, hk => absurd hnone hk
  | .char h, hnone, hk => (h.leads hnone hk).tail _
  | .value h₁ h₂, hnone, hk =>
      leadsFrom_cons h₁.kept_mono (h₁.leads hnone) fun hmid => h₂.leads hmid hk
  | .left h₁ _ h₂, hnone, hk =>
      leadsFrom_cons h₁.kept_mono (h₁.leads hnone) fun hmid => h₂.leads hmid hk
  | .aborted h₁ _ _, hnone, hk => ⟨_, List.mem_cons_self, h₁.leads hnone hk⟩

end

/-- The expressions on the ways from an expression that is not kept back to itself are a trap. -/
theorem trap_of_opens {cache : Dict String} {e e₁ : String} (hfirst : b.Opens cache e e₁)
    (hback : ReflTransGen (b.Opens cache) e₁ e) :
    b.Trap fun x => ReflTransGen (b.Opens cache) e x ∧ ReflTransGen (b.Opens cache) x e := by
  rintro x ⟨hex, hxe⟩
  have hnext : ∃ y, b.Opens cache x y ∧ ReflTransGen (b.Opens cache) y e := by
    rcases ReflTransGen.cases_head hxe with rfl | hstep
    · exact ⟨e₁, hfirst, hback⟩
    · exact hstep
  obtain ⟨y, hxy, hye⟩ := hnext
  obtain ⟨template, htemplate, inner, hmem, rfl⟩ := hxy.2.2
  exact ⟨template, htemplate, inner, hmem, hex.tail hxy, hye⟩

theorem clear_of_opens {cache : Dict String} {e : String} (he : cache.get? e = none) :
    Clear (fun x => ReflTransGen (b.Opens cache) e x ∧ ReflTransGen (b.Opens cache) x e)
      cache := by
  rintro x value hx ⟨-, hxe⟩
  have hnone : cache.get? x = none := by
    rcases ReflTransGen.cases_head hxe with rfl | ⟨y, hxy, -⟩
    · exact he
    · exact hxy.1
  rw [hnone] at hx
  cases hx

/-- When the evaluation of its template ends, an expression that was not kept is still not kept,
whether there is a value or not. -/
theorem Evaluates.not_kept {d : Nat} {e template : String} {st st' : State}
    {r : Except LookupError String} {tr : Trace} (h : Evaluates b s d template st r st' tr)
    (htemplate : b.template? (stripPercent e).1 = some template)
    (he : st.cache.get? e = none) : st'.cache.get? e = none := by
  refine Classical.byContradiction fun hkept => ?_
  -- the expression was met again on a way that leads back to it, and this way is a trap
  obtain ⟨inner, hmem, hinner, hpath⟩ := h.leads he hkept
  have hfirst : b.Opens st.cache e (Template.expression inner) :=
    ⟨he, hinner, template, htemplate, inner, hmem, rfl⟩
  obtain ⟨hclear, -⟩ := h.trapped (trap_of_opens hfirst hpath) (clear_of_opens he)
  obtain ⟨value, hvalue⟩ := Option.ne_none_iff_exists'.1 hkept
  exact hclear e value hvalue ⟨.refl, .refl⟩

/-- An expression whose resolution fails is not kept. -/
theorem Resolves.not_kept_of_error {d : Nat} {e : String} {st st' : State} {err : LookupError}
    {tr : Trace} (h : Resolves b s d e st (.error err) st' tr) : st'.cache.get? e = none := by
  cases h with
  | refused he _ _ => exact he
  | abandoned he htemplate h => exact h.not_kept htemplate he

end Stencil.Resolver
