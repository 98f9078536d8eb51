import Mathlib.Data.List.Forall2
import Stencil.Proofs.Resolver.History
import Stencil.Proofs.Resolver.Trap

/-!
# Cycles of variables

Variables whose templates name each other in a circle have no values. An expression from which
such a circle can be reached (`Bindings.CyclicAt`) is never kept, so no evaluation of it is cut
short by the cache; it goes round until the limit of depth ends it. These expressions are a trap
(`Bindings.trap_cyclicAt`), and what holds of traps holds of them.
-/

namespace Stencil.Resolver

open Text Relation

/-- The template of a variable names another variable. -/
def Bindings.Names (b : Bindings) (x y : String) : Prop :=
  ∃ template, b.template? x = some template ∧ (b.template? y).isSome ∧
    ∃ e ∈ Template.unresolved template, (stripPercent e).1 = y

/-- From a variable a circle of variables can be reached. -/
def Bindings.Cyclic (b : Bindings) (x : String) : Prop :=
  ∃ m, ReflTransGen b.Names x m ∧ TransGen b.Names m m

/-- From the variable that an expression names a circle of variables can be reached. -/
def Bindings.CyclicAt (b : Bindings) (e : String) : Prop := b.Cyclic (stripPercent e).1

/-- No expression that is kept leads into a circle. -/
def CycleFree (b : Bindings) (cache : Dict String) : Prop :=
  ∀ e value, cache.get? e = some value → ¬ b.CyclicAt e

variable {b : Bindings} {s : Surroundings}

/-- A variable that leads into a circle names another one that does. -/
theorem Bindings.Cyclic.step {x : String} (h : b.Cyclic x) :
    ∃ template, b.template? x = some template ∧
      ∃ inner, .span inner ∈ Template.pieces template ∧
        b.CyclicAt (Template.expression inner) := by
  have hnext : ∃ y, b.Names x y ∧ b.Cyclic y := by
    obtain ⟨m, hxm, hmm⟩ := h
    rcases ReflTransGen.cases_head hxm with rfl | ⟨y, hxy, hym⟩
    · -- the variable is on the circle: go once round it
      obtain ⟨y, hxy, hyx⟩ := TransGen.head'_iff.1 hmm
      exact ⟨y, hxy, x, hyx, hmm⟩
    · exact ⟨y, hxy, m, hym, hmm⟩
  obtain ⟨y, ⟨template, htemplate, -, e, hmem, hey⟩, hy⟩ := hnext
  obtain ⟨inner, hinner, rfl⟩ := Template.mem_unresolved.1 hmem
  refine ⟨template, htemplate, inner, hinner, ?_⟩
  rw [Bindings.CyclicAt, hey]
  exact hy

/-- The expressions that lead into a circle are a trap. -/
theorem Bindings.trap_cyclicAt (b : Bindings) : b.Trap b.CyclicAt :=
  fun _ h => Bindings.Cyclic.step h

theorem CycleFree.empty : CycleFree b .empty := Clear.empty

/-! ## Evaluation -/

/-- An expression that leads into a circle gives up, and none is put into the cache. -/
theorem Resolves.cyclic {d : Nat} {e : String} {st st' : State}
    {r : Except LookupError String} {tr : Trace} (h : Resolves b s d e st r st' tr)
    (hf : CycleFree b st.cache) : CycleFree b st'.cache ∧ (b.CyclicAt e → GivesUp r) :=
  h.trapped b.trap_cyclicAt hf

theorem Evaluates.cyclic {d : Nat} {text : String} {st st' : State}
    {r : Except LookupError String} {tr : Trace} (h : Evaluates b s d text st r st' tr)
    (hf : CycleFree b st.cache) : CycleFree b st'.cache ∧
      (0 < d → (∃ inner, .span inner ∈ Template.pieces text ∧
        b.CyclicAt (Template.expression inner)) → GivesUp r) :=
  h.trapped b.trap_cyclicAt hf

theorem Expands.cyclic {d : Nat} {ps : List (Piece (List Char))} {st st' : State}
    {r : Except LookupError (List Char)} {tr : Trace} (h : Expands b s d ps st r st' tr)
    (hf : CycleFree b st.cache) : CycleFree b st'.cache ∧
      (0 < d → (∃ inner, .span inner ∈ ps ∧ b.CyclicAt (Template.expression inner)) →
        GivesUp r) :=
  h.trapped b.trap_cyclicAt hf

/-! ## Texts -/

/-- What becomes of a piece: a character stays, and so does a placeholder whose expression leads
into a circle. -/
def Stands (b : Bindings) : Piece (List Char) → List Char → Prop
  | .char c, part => part = [c]
  | .span inner, part => b.CyclicAt (Template.expression inner) → part = Template.write inner

theorem Expands.stands {d : Nat} {ps : List (Piece (List Char))} {st st' : State}
    {r : Except LookupError (List Char)} {tr : Trace} (h : Expands b s d ps st r st' tr)
    (hf : CycleFree b st.cache) {cs : List Char} (hr : r = .ok cs) :
    ∃ parts, cs = parts.flatten ∧ List.Forall₂ (Stands b) ps parts :=
  match h with
  | .nil => by
      cases hr
      exact ⟨[], rfl, .nil⟩
  | .char (c := c) (r := r) h => by
      cases r with
      | error err => cases hr
      | ok rest =>
          cases hr
          obtain ⟨parts, rfl, hparts⟩ := h.stands hf rfl
          exact ⟨[c] :: parts, rfl, .cons rfl hparts⟩
  | .value (v := v) (r := r) h₁ h₂ => by
      cases r with
      | error err => cases hr
      | ok rest =>
          cases hr
          obtain ⟨hf₁, hup⟩ := h₁.cyclic hf
          obtain ⟨parts, rfl, hparts⟩ := h₂.stands hf₁ rfl
          have hcyclic : Stands b (.span _) v.toList := fun hinner =>
            absurd (hup hinner) (not_givesUp_ok v)
          exact ⟨v.toList :: parts, rfl, .cons hcyclic hparts⟩
  | .left (r := r) h₁ _ h₂ => by
      cases r with
      | error err => cases hr
      | ok rest =>
          cases hr
          obtain ⟨parts, rfl, hparts⟩ := h₂.stands (h₁.cyclic hf).1 rfl
          exact ⟨Template.write _ :: parts, rfl, .cons (fun _ => rfl) hparts⟩
  | .aborted _ _ _ => by cases hr

/-- After every history that only reads, an expression that leads into a circle of variables is
not kept, is refused because values nest too deep, and stays in the texts that are processed;
and every evaluation comes to an end without a value deeper than one level below the limit. -/
theorem cycles_never_resolve (b : Bindings) {ops : List Operation}
    (hops : ∀ op ∈ ops, op.Reads fun _ => True) (journal₀ : Journal) :
    let r := (runAll ops (⟨b, .empty⟩, journal₀)).1
    (∀ e value, r.cache.get? e = some value → ¬ b.CyclicAt e) ∧
    (∀ s expression journal, b.CyclicAt (trimText expression) →
      ∃ text, (r.resolveExpression s expression journal).1 = .error (.recursionLimit text)) ∧
    (∀ s text journal, ∃ parts, (r.process s text journal).1.toList = parts.flatten ∧
      List.Forall₂ (Stands b) (Template.pieces text) parts) ∧
    (∀ s text journal,
      let Run := Evaluates b s 0 text ⟨r.cache, journal⟩ (.ok (r.process s text journal).1)
        ⟨(r.process s text journal).2.1.cache, (r.process s text journal).2.2⟩
      (∃ tr, Run tr) ∧ ∀ tr, Run tr → ∀ v ∈ tr, v.1 ≤ depthLimit + 1) ∧
    (∀ s expression journal,
      let Run := Resolves b s 0 (trimText expression) ⟨r.cache, journal⟩
        (r.resolveExpression s expression journal).1
        ⟨(r.resolveExpression s expression journal).2.1.cache,
          (r.resolveExpression s expression journal).2.2⟩
      (∃ tr, Run tr) ∧ ∀ tr, Run tr → ∀ v ∈ tr, v.1 ≤ depthLimit + 1) := by
  have hread : (runAll ops (⟨b, .empty⟩, journal₀)).1.bindings = b ∧
      CycleFree b (runAll ops (⟨b, .empty⟩, journal₀)).1.cache :=
    runAll_reads .empty (fun _ h hf => (h.cyclic hf).1) (fun _ h hf => (h.cyclic hf).1)
      hops journal₀
  revert hread
  generalize (runAll ops (⟨b, .empty⟩, journal₀)).1 = r
  rintro ⟨rfl, hf⟩
  refine ⟨hf, ?_, ?_, ?_, ?_⟩
  · intro s expression journal hcyclic
    obtain ⟨tr, htr⟩ := resolves_resolveExpression r s expression journal
    obtain ⟨err, herr, hdeep⟩ := (htr.cyclic hf).2 hcyclic
    obtain ⟨text, rfl⟩ := LookupError.tooDeep_iff.1 hdeep
    exact ⟨text, herr⟩
  · intro s text journal
    obtain ⟨tr, htr⟩ := expands_process r s text journal
    exact htr.stands hf rfl
  · intro s text journal
    exact ⟨evaluates_process r s text journal, fun tr h => h.depth_le (Nat.zero_le _)⟩
  · intro s expression journal
    exact ⟨resolves_resolveExpression r s expression journal,
      fun tr h => h.depth_le (Nat.zero_le _)⟩

theorem cycles_never_resolve_ping :
    let b : Bindings := { Bindings.ofVariables [("ping", "{{b}}{{%pong}}"), ("b", "1")] with
      scope := ⟨EnvironmentTable.empty.setShared "pong" "x{{ping}}", ""⟩ }
    let ops : List Operation := [.process .bare "{{ping}} {{b}}", .resolve .bare "pong"]
    let r := (runAll ops (⟨b, .empty⟩, [])).1
    (∀ op ∈ ops, op.Reads fun _ => True) ∧ b.CyclicAt "% pong" ∧
    (∀ e value, r.cache.get? e = some value → ¬ b.CyclicAt e) ∧
    r.cache.get? "b" = some "1" ∧
    (∃ text, (r.resolveExpression .bare " % pong" []).1 = .error (.recursionLimit text)) ∧
    ∃ parts, (r.process .bare "{{b}}{{% pong}}" []).1.toList = parts.flatten ∧
      List.Forall₂ (Stands b) (Template.pieces "{{b}}{{% pong}}") parts := by
  intro b ops r
  have hops : ∀ op ∈ ops, op.Reads fun _ => True := by
    simp [ops, Operation.Reads]
  have hping : b.Names "ping" "pong" :=
    ⟨"{{b}}{{%pong}}", by decide +kernel, by decide +kernel, "%pong", by decide +kernel,
      by decide +kernel⟩
  have hpong : b.Names "pong" "ping" :=
    ⟨"x{{ping}}", by decide +kernel, by decide +kernel, "ping", by decide +kernel,
      by decide +kernel⟩
  have hcyclic : b.CyclicAt "% pong" := ⟨"pong", .refl, .head hpong (.single hping)⟩
  obtain ⟨hcache, hresolve, hprocess, -, -⟩ := cycles_never_resolve b hops []
  exact ⟨hops, hcyclic, hcache, by decide +kernel, hresolve .bare " % pong" [] hcyclic,
    hprocess .bare "{{b}}{{% pong}}" []⟩

end Stencil.Resolver
