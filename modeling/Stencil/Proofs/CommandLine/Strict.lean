import Stencil.CommandLine.Run
import Stencil.Proofs.Resolver.Audit

/-!
# Strict runs

A strict run fails if its text still holds a placeholder. By the audit of the run, a placeholder
that was left is found again wherever it stands in the text, at whatever depth its value was
missing. One that was left in the value of a variable and percent-encoded with it is no
placeholder any more, so exactly these are missed (`strict_misses_only_encoded`).
-/

namespace Stencil.CommandLine

open Resolver Text

/-- What a run resolves: the resolver, its surroundings, the content and the journal so far. There
is nothing to resolve if the run fails before. -/
def prepare (o : Options) (s : Surroundings) :
    Option (Resolver × Surroundings × String × Journal) :=
  match s.files.readText o.file with
  | .error _ => none
  | .ok content =>
    let (table, warnings) := loadTable s.files (baseDirectory o.file)
    match selectEnvironment table o.environment? with
    | .error _ => none
    | .ok environment =>
      match fillInputs o s content (Journal.warn [] warnings) with
      | (.error _, _) => none
      | (.ok (content, files), journal) =>
        some (resolver o table environment, { s with files }, content, journal)

variable {o : Options} {s : Surroundings}

/-- The text of a run is what its preparation is resolved to. -/
theorem prepare_of_run {text : String} (h : (run o s).result = .ok text) :
    ∃ r s' content journal, prepare o s = some (r, s', content, journal) ∧
      (CommandLine.resolve o s' r content journal).1 = .ok text := by
  unfold run at h
  unfold prepare
  cases hread : s.files.readText o.file with
  | error cause =>
      rw [hread] at h
      cases h
  | ok content =>
      rw [hread] at h
      dsimp only at h ⊢
      cases henvironment : selectEnvironment (loadTable s.files (baseDirectory o.file)).1
          o.environment? with
      | error e =>
          rw [henvironment] at h
          cases h
      | ok environment =>
          rw [henvironment] at h
          dsimp only at h ⊢
          rcases hinputs : fillInputs o s content
            (Journal.warn [] (loadTable s.files (baseDirectory o.file)).2)
            with ⟨_ | ⟨content', files⟩, journal⟩
          · rw [hinputs] at h
            cases h
          · rw [hinputs] at h
            exact ⟨_, _, _, _, rfl, h⟩

/-- A run begins with an empty cache. -/
theorem cache_resolver (table : EnvironmentTable) (environment : String) :
    (resolver o table environment).cache = .empty := by
  unfold resolver
  generalize hr : (Resolver.new table environment).withBaseDirectory (baseDirectory o.file) = r
  have hcache : r.cache = .empty := by rw [← hr]; rfl
  clear hr
  induction o.assignments generalizing r with
  | nil => exact hcache
  | cons v rest ih => exact ih (r.declare v.1 v.2) hcache

theorem cache_of_prepare {r : Resolver} {s' : Surroundings} {content : String}
    {journal : Journal} (h : prepare o s = some (r, s', content, journal)) : r.cache = .empty := by
  unfold prepare at h
  split at h
  · cases h
  · dsimp only at h
    split at h
    · cases h
    · split at h
      · cases h
      · obtain ⟨rfl, -⟩ := Prod.mk.inj (Option.some.inj h)
        exact cache_resolver _ _

/-- In a strict run that succeeds no placeholder is found in the text. -/
theorem unresolved_of_resolve {r : Resolver} {content text : String} {journal : Journal}
    (hstrict : o.strict = true) (h : (CommandLine.resolve o s r content journal).1 = .ok text) :
    text = (r.process s content journal).1 ∧ Template.unresolved text = [] := by
  unfold CommandLine.resolve at h
  dsimp only at h
  split at h
  · cases h
  next hleft =>
    cases h
    exact ⟨rfl, Classical.byContradiction fun hne => hleft ⟨hstrict, hne⟩⟩

/-- A strict run that succeeds has left no placeholder, and has met none without a value but those
that were lost. -/
theorem audited_of_resolve {r : Resolver} (hr : r.cache = .empty) {content text : String}
    {journal : Journal} (hstrict : o.strict = true)
    (h : (CommandLine.resolve o s r content journal).1 = .ok text) :
    let seen := (Auditor.process ⟨r.bindings, .empty⟩ s content journal).1
    text = seen.text ∧ seen.left = [] ∧ (seen.failed = [] ↔ seen.lost = []) ∧
      (r.bindings.KeepsValues content → seen.failed = []) := by
  obtain ⟨htext, hnone⟩ := unresolved_of_resolve hstrict h
  -- the audit begins, like the resolver, with nothing kept
  obtain ⟨b, cache⟩ := r
  obtain rfl : cache = .empty := hr
  obtain ⟨haudit, hsound⟩ := process_audited_new b s content journal
  rw [haudit] at htext
  dsimp only
  have hleft : (Auditor.process ⟨b, .empty⟩ s content journal).1.left = [] :=
    Classical.byContradiction fun hne =>
      Rendering.unresolved_ne_nil hsound hne (htext ▸ hnone)
  have hfailed : (Auditor.process ⟨b, .empty⟩ s content journal).1.failed = [] ↔
      (Auditor.process ⟨b, .empty⟩ s content journal).1.lost = [] := by
    rw [Rendering.failed, hleft, List.nil_append]
  exact ⟨htext, hleft, hfailed, fun h => hfailed.2 (lost_eq_nil_new s h journal)⟩

/-- Placeholders without a value are missed only when the value in which they were left is
percent-encoded. After every history, a text in which one was left holds some placeholder; so the
unresolved placeholders of the text tell whether any was met, unless some were lost and nothing
else looks like a placeholder. A strict run that succeeds has left none, and has met none but the
lost ones; and none is lost where no percent sign stands in front of a variable. -/
theorem strict_misses_only_encoded (b : Bindings) (ops : List Operation) (journal₀ : Journal)
    (s : Surroundings) (text : String) (journal : Journal) (o : Options) :
    (let out := ((runAll ops (⟨b, .empty⟩, journal₀)).1.process s text journal).1
      let seen := ((auditAll ops (⟨b, .empty⟩, journal₀)).1.process s text journal).1
      out = seen.text ∧
      (seen.left ≠ [] → Template.unresolved out ≠ []) ∧
      ((seen.failed ≠ [] → Template.unresolved out ≠ []) ↔
        (seen.lost = [] ∨ Template.unresolved out ≠ [])) ∧
      (seen.left ≠ [] ∨ occurs ['{', '{'] out.toList = false →
        ((seen.failed ≠ [] → Template.unresolved out ≠ []) ↔
          (seen.lost = [] ∨ seen.left ≠ []))) ∧
      ((∀ op ∈ ops, op.Reads fun _ => True) → b.KeepsValues text → seen.lost = [])) ∧
    (∀ printed, o.strict = true → (run o s).result = .ok printed →
      ∃ r s' content journal, prepare o s = some (r, s', content, journal) ∧
        let seen := (Auditor.process ⟨r.bindings, .empty⟩ s' content journal).1
        printed = seen.text ∧ seen.left = [] ∧ (seen.failed = [] ↔ seen.lost = []) ∧
        (r.bindings.KeepsValues content → seen.failed = [])) := by
  refine ⟨?_, ?_⟩
  · obtain ⟨htext, hsound⟩ := process_audited b ops journal₀ s text journal
    dsimp only
    rw [htext]
    exact ⟨rfl, Rendering.unresolved_ne_nil hsound, Rendering.failed_iff hsound,
      Rendering.failed_iff_of_left_or_clean hsound,
      fun hops h => lost_eq_nil_of_keepsValues b hops journal₀ s h journal⟩
  · intro printed hstrict h
    obtain ⟨r, s', content, journal, hprepare, hresolve⟩ := prepare_of_run h
    refine ⟨r, s', content, journal, hprepare, ?_⟩
    exact audited_of_resolve (cache_of_prepare hprepare) hstrict hresolve

/-- A percent sign hides a placeholder without a value from a strict run. -/
theorem strict_misses_encoded :
    let b := Bindings.ofVariables [("a", "{{missing}}")]
    let out := (Resolver.process ⟨b, .empty⟩ .bare "{{%a}}" []).1
    let o : Options := ⟨"r.http", none, [("a", "{{missing}}")], none, none, true⟩
    let s : Surroundings := { Surroundings.bare with
      files := (FileSystem.empty []).set ["r.http"] (.file "{{%a}}".toUTF8) }
    (Auditor.process ⟨b, .empty⟩ .bare "{{%a}}" []).1.failed = ["missing".toList] ∧
    out = "%7B%7Bmissing%7D%7D" ∧ Template.unresolved out = [] ∧
    (run o s).result.toOption = some "%7B%7Bmissing%7D%7D" := by
  refine ⟨?_, ?_, ?_, ?_⟩
  · decide +kernel
  · decide +kernel
  · decide +kernel
  · decide +kernel

theorem strict_misses_only_encoded_greeting :
    let b := Bindings.ofVariables [("a", "{{missing}}"), ("c", "x{{a}}y")]
    let ops : List Operation := [.process .bare "{{c}}{{%d}}", .declare "d" "1 2"]
    let o : Options := ⟨"r.http", none, [("a", "hello {{c}}"), ("c", "you")], none, none, true⟩
    let s : Surroundings := { Surroundings.bare with
      files := (FileSystem.empty []).set ["r.http"] (.file "{{a}}".toUTF8) }
    Template.unresolved ((runAll ops (⟨b, .empty⟩, [])).1.process .bare "{{c}}{{%d}}" []).1 ≠ [] ∧
    (run o s).result = .ok "hello you" ∧
    ∃ r s' content journal, prepare o s = some (r, s', content, journal) ∧
      (Auditor.process ⟨r.bindings, .empty⟩ s' content journal).1.failed = [] := by
  intro b ops o s
  have hok : (run o s).result = .ok "hello you" := by
    have hsome : (run o s).result.toOption = some "hello you" := by decide +kernel
    revert hsome
    generalize (run o s).result = result
    intro hsome
    cases result with
    | ok text => exact congrArg _ (Option.some.inj hsome)
    | error e => cases hsome
  have hleft := (strict_misses_only_encoded b ops [] .bare "{{c}}{{%d}}" [] o).1.2.1
    (by decide +kernel)
  refine ⟨hleft, hok, ?_⟩
  obtain ⟨r, s', content, journal, hprepare, -, -, -, hkeeps⟩ :=
    (strict_misses_only_encoded b [] [] s "" [] o).2 _ rfl hok
  refine ⟨r, s', content, journal, hprepare, hkeeps ?_⟩
  have hcheck : (prepare o s).all (fun p => p.1.bindings.check
      (fun e => !(stripPercent e).2 || (p.1.bindings.template? (stripPercent e).1).isNone) 2
      p.2.2.1) = true := by decide +kernel
  rw [hprepare, Option.all_some] at hcheck
  refine Bindings.everywhere_of_check ?_ hcheck
  intro e he hencoded
  simpa [hencoded] using he

end Stencil.CommandLine
