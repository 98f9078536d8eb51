import Stencil.Proofs.Resolver.Containment
import Stencil.Proofs.Resolver.Plain

/-!
# Isolation

What a text becomes depends on no more than its evaluation can meet. Two resolvers may differ in
all environments but the selected one, in variables and responses that no reference reaches, and in
where they stand; if what is seen from the selected environment and what the surroundings answer is
the same, then so are the new text, the questions, the draws and the warnings
(`process_isolated`). In the two runs only errors may be told apart, by the places that they name,
so outcomes are compared by `SameOutcome`: an error matters by whether it ends the text around it.
-/

namespace Stencil

open Text

/-! ## Outcomes -/

/-- The same value, or two errors of which both or none say that values nest too deep. -/
inductive SameOutcome {α : Type} : Except LookupError α → Except LookupError α → Prop
  | ok (a : α) : SameOutcome (.ok a) (.ok a)
  | error {e e' : LookupError} : e.tooDeep = e'.tooDeep → SameOutcome (.error e) (.error e')

namespace SameOutcome

variable {α β : Type} {r r' : Except LookupError α}

theorem refl (r : Except LookupError α) : SameOutcome r r := by
  cases r with
  | ok a => exact .ok a
  | error e => exact .error rfl

theorem map (h : SameOutcome r r') (f : α → β) : SameOutcome (r.map f) (r'.map f) := by
  cases h with
  | ok a => exact .ok (f a)
  | error he => exact .error he

theorem eq_ok {a : α} (h : SameOutcome (.ok a) r') : r' = .ok a := by
  cases h
  rfl

theorem eq_error {e : LookupError} (h : SameOutcome (.error e : Except _ α) r') :
    ∃ e', r' = .error e' ∧ e.tooDeep = e'.tooDeep := by
  cases h with
  | error he => exact ⟨_, rfl, he⟩

end SameOutcome

/-- The same outcome, with the same journal or the same warnings. -/
def SameRun {α β : Type} (p q : Except LookupError α × β) : Prop :=
  SameOutcome p.1 q.1 ∧ p.2 = q.2

theorem SameRun.of_eq {α β : Type} {p q : Except LookupError α × β} (h : p = q) :
    SameRun p q := by
  subst h
  exact ⟨.refl _, rfl⟩

namespace Resolver

/-! ## What two runs have in common -/

/-- From the selected environment, which is the same, the tables look the same. -/
structure SameView (t₁ t₂ : EnvironmentScope) : Prop where
  current : t₁.current = t₂.current
  shared : ∀ key, t₁.table.shared? key = t₂.table.shared? key
  own : ∀ key, t₁.table.own? t₁.current key = t₂.table.own? t₁.current key
  known : t₁.table.has t₁.current = t₂.table.has t₁.current

/-- The surroundings give the same answers: those of the files are about the settings files, which
the two may look for in different directories. -/
structure SameAnswers (ctx₁ ctx₂ : SystemContext) (s₁ s₂ : Surroundings) : Prop where
  now : s₁.now = s₂.now
  zone : s₁.zone = s₂.zone
  process : s₁.process = s₂.process
  prompter : s₁.prompter = s₂.prompter
  random : s₁.random = s₂.random
  isFile : ∀ name ∈ SystemFunction.settingFiles ctx₁.scope.current,
    s₁.files.isFile (SystemFunction.settingPath ctx₁ name) =
      s₂.files.isFile (SystemFunction.settingPath ctx₂ name)
  readText : ∀ name ∈ SystemFunction.settingFiles ctx₁.scope.current,
    s₁.files.isFile (SystemFunction.settingPath ctx₁ name) = true →
    s₁.files.readText (SystemFunction.settingPath ctx₁ name) =
      s₂.files.readText (SystemFunction.settingPath ctx₂ name)

/-- The request whose response a name refers to. -/
def requestOf? (name : String) : Option String :=
  if RequestChain.isReference name then (RequestChain.parts? name).map (·.1) else none

/-- A name stands for the same variable of the file and for the same response. -/
structure SameMeaning (b₁ b₂ : Bindings) (name : String) : Prop where
  declared : b₁.declared.get? name = b₂.declared.get? name
  response : ∀ request, requestOf? name = some request →
    b₁.responses.get? request = b₂.responses.get? request

instance (b₁ b₂ : Bindings) (name : String) : Decidable (SameMeaning b₁ b₂ name) :=
  decidable_of_iff
    (b₁.declared.get? name = b₂.declared.get? name ∧
      ∀ request ∈ requestOf? name, b₁.responses.get? request = b₂.responses.get? request)
    ⟨fun ⟨a, b⟩ => ⟨a, b⟩, fun ⟨a, b⟩ => ⟨a, b⟩⟩

end Resolver

/-! ## Environments -/

namespace Resolver.SameView

variable {t₁ t₂ : EnvironmentScope}

theorem lookup? (h : SameView t₁ t₂) (name : String) : t₁.lookup? name = t₂.lookup? name := by
  simp only [EnvironmentScope.lookup?, EnvironmentTable.get?, ← h.current, h.shared, h.own]

theorem remark (h : SameView t₁ t₂) : t₁.remark = t₂.remark := by
  simp only [EnvironmentScope.remark, EnvironmentScope.isUnknown, ← h.current, h.known]

theorem get (h : SameView t₁ t₂) (name : String) : t₁.get name = t₂.get name := by
  simp only [EnvironmentScope.get, h.lookup?, h.remark]

/-- Another environment in the table is not seen. -/
theorem add (scope : EnvironmentScope) {env : Environment} (hname : env.name ≠ scope.current)
    (hshared : env.name ≠ EnvironmentTable.sharedName) :
    SameView scope ⟨scope.table.add env, scope.current⟩ where
  current := rfl
  shared := by
    intro key
    simp only [EnvironmentTable.shared?, EnvironmentTable.add, if_neg hshared]
  own := by
    intro key
    simp only [EnvironmentTable.own?, EnvironmentTable.add, if_neg hshared, Dict.get?_insert,
      if_neg (Ne.symm hname)]
  known := by
    simp only [EnvironmentTable.has, EnvironmentTable.add, if_neg hshared, Dict.contains,
      Dict.get?_insert, if_neg (Ne.symm hname)]

end Resolver.SameView

/-! ## System functions -/

theorem Resolver.SameAnswers.of_baseDirectory {ctx₁ ctx₂ : SystemContext}
    (h : ctx₁.baseDirectory = ctx₂.baseDirectory) (s : Surroundings) :
    SameAnswers ctx₁ ctx₂ s s where
  now := rfl
  zone := rfl
  process := rfl
  prompter := rfl
  random := rfl
  isFile := by
    intro name _
    simp only [SystemFunction.settingPath, h]
  readText := by
    intro name _ _
    simp only [SystemFunction.settingPath, h]

namespace SystemFunction

open Resolver (SameView SameAnswers)

variable {ctx₁ ctx₂ : SystemContext} {s₁ s₂ : Surroundings}

theorem processText_same (hview : SameView ctx₁.scope ctx₂.scope)
    (h : SameAnswers ctx₁ ctx₂ s₁ s₂) (args : List String) :
    processText ctx₁ s₁ args = processText ctx₂ s₂ args := by
  cases args with
  | nil => rfl
  | cons requested rest =>
      have hname : processName ctx₁ requested = processName ctx₂ requested := by
        simp only [processName, hview.lookup?]
      simp only [processText, hname, h.process]

theorem find?_settingFiles_same (hview : SameView ctx₁.scope ctx₂.scope)
    (h : SameAnswers ctx₁ ctx₂ s₁ s₂) :
    (settingFiles ctx₁.scope.current).find? (fun name => s₁.files.isFile (settingPath ctx₁ name)) =
      (settingFiles ctx₂.scope.current).find? fun name =>
        s₂.files.isFile (settingPath ctx₂ name) := by
  rw [← hview.current, ← List.head?_filter, ← List.head?_filter, List.filter_congr h.isFile]

/-- Both read the same settings, though errors may name different directories. -/
theorem settingText_same (hview : SameView ctx₁.scope ctx₂.scope)
    (h : SameAnswers ctx₁ ctx₂ s₁ s₂) (args : List String) :
    SameRun (settingText ctx₁ s₁ args) (settingText ctx₂ s₂ args) := by
  cases args with
  | nil => exact .of_eq rfl
  | cons key rest =>
      simp only [settingText, ← find?_settingFiles_same hview h]
      cases hfile : (settingFiles ctx₁.scope.current).find? fun name =>
          s₁.files.isFile (settingPath ctx₁ name) with
      | none => exact ⟨.error rfl, rfl⟩
      | some name =>
          have hfound : s₁.files.isFile (settingPath ctx₁ name) = true := by
            have hsome := List.find?_some hfile
            exact hsome
          have hread := h.readText name (List.mem_of_find?_eq_some hfile) hfound
          dsimp only
          rw [← hread]
          cases s₁.files.readText (settingPath ctx₁ name) with
          | error cause => exact ⟨.error rfl, rfl⟩
          | ok content =>
              refine ⟨?_, rfl⟩
              dsimp only
              cases (Dotenv.read content).values.get? key with
              | none => exact .error rfl
              | some value => exact .ok value

theorem apply_same (hview : SameView ctx₁.scope ctx₂.scope) (h : SameAnswers ctx₁ ctx₂ s₁ s₂)
    (f : SystemFunction) (args : List String) (journal : Journal) :
    SameRun (f.apply ctx₁ s₁ args journal) (f.apply ctx₂ s₂ args journal) := by
  cases f with
  | processEnv =>
      refine .of_eq ?_
      simp only [apply, processText_same hview h]
  | dotenv =>
      obtain ⟨hvalue, hwarnings⟩ := settingText_same hview h args
      refine ⟨hvalue.map _, ?_⟩
      simp only [apply, hwarnings]
  | _ =>
      -- the others look at neither environments nor files
      refine .of_eq ?_
      simp only [apply, answer, timestampText, datetimeText, Surroundings.draw, h.now, h.zone,
        h.prompter, h.random]

theorem call_same (hview : SameView ctx₁.scope ctx₂.scope) (h : SameAnswers ctx₁ ctx₂ s₁ s₂)
    (expression : String) (journal : Journal) :
    SameRun (call ctx₁ s₁ expression journal) (call ctx₂ s₂ expression journal) := by
  unfold call
  split
  · exact .of_eq rfl
  · split
    · unfold applyNamed
      split
      · exact apply_same hview h _ _ journal
      · exact .of_eq rfl
    · exact .of_eq rfl

end SystemFunction

/-! ## Names -/

namespace Resolver

variable {b₁ b₂ : Bindings} {s₁ s₂ : Surroundings}

theorem resolve_same {c₁ c₂ : RequestChain} {name : String}
    (h : ∀ request, (RequestChain.parts? name).map (·.1) = some request →
      c₁.get? request = c₂.get? request) : c₁.resolve name = c₂.resolve name := by
  unfold RequestChain.resolve
  split
  · rfl
  next request source part path hparts =>
    have hrequest := h request (by rw [hparts]; rfl)
    simp only [hrequest]

namespace SameMeaning

variable {name : String}

theorem template?_eq (hview : SameView b₁.scope b₂.scope) (h : SameMeaning b₁ b₂ name) :
    b₁.template? name = b₂.template? name := by
  simp only [Bindings.template?, h.declared, hview.lookup?]

theorem remarks_eq (hview : SameView b₁.scope b₂.scope) (h : SameMeaning b₁ b₂ name) :
    b₁.remarks name = b₂.remarks name := by
  simp only [Bindings.remarks, h.declared, hview.get]

theorem answer_same (hview : SameView b₁.scope b₂.scope)
    (hanswers : SameAnswers b₁.context b₂.context s₁ s₂) (h : SameMeaning b₁ b₂ name)
    (journal : Journal) :
    SameRun (answer b₁ s₁ name journal) (answer b₂ s₂ name journal) := by
  unfold answer
  split
  · exact .of_eq rfl
  · split
    · obtain ⟨hvalue, hjournal⟩ := SystemFunction.call_same hview hanswers name journal
      exact ⟨hvalue.map _, hjournal⟩
    · split
      next href =>
        refine .of_eq ?_
        rw [resolve_same fun request hrequest => h.response request ?_]
        rw [requestOf?, if_pos href]
        exact hrequest
      next => exact .of_eq rfl

end SameMeaning

/-! ## Evaluation -/

/-- An expression means the same for both. -/
def SameAt (b₁ b₂ : Bindings) (e : String) : Prop := SameMeaning b₁ b₂ (stripPercent e).1

mutual

/-- An evaluation by the one is, but for the wording of errors, an evaluation by the other. -/
theorem Resolves.isolated (hview : SameView b₁.scope b₂.scope)
    (hanswers : SameAnswers b₁.context b₂.context s₁ s₂) {d : Nat} {e : String} {st st' : State}
    {r : Except LookupError String} {tr : Trace} : Resolves b₁ s₁ d e st r st' tr →
    b₁.EverywhereAt (SameAt b₁ b₂) e →
    ∃ r', SameOutcome r r' ∧ Resolves b₂ s₂ d e st r' st' tr
  | .kept he, _ => ⟨_, .refl _, .kept he⟩
  | .answered he htemplate hanswer, hat => by
      rw [hat.1.template?_eq hview] at htemplate
      obtain ⟨hvalue, hjournal⟩ := hat.1.answer_same hview hanswers st.journal
      rw [hanswer] at hvalue hjournal
      refine ⟨_, .refl _, .answered he htemplate ?_⟩
      exact Prod.ext hvalue.eq_ok hjournal.symm
  | .refused he htemplate hanswer, hat => by
      rw [hat.1.template?_eq hview] at htemplate
      obtain ⟨hvalue, hjournal⟩ := hat.1.answer_same hview hanswers st.journal
      rw [hanswer] at hvalue hjournal
      obtain ⟨err', herr', hdeep⟩ := hvalue.eq_error
      refine ⟨.error err', .error hdeep, .refused he htemplate ?_⟩
      exact Prod.ext herr' hjournal.symm
  | .named he htemplate h, hat => by
      obtain ⟨r', hsame, h'⟩ := h.isolated hview hanswers (hat.2 _ htemplate)
      obtain rfl := hsame.eq_ok
      rw [hat.1.template?_eq hview] at htemplate
      rw [hat.1.remarks_eq hview] at h'
      exact ⟨_, .refl _, .named he htemplate h'⟩
  | .abandoned he htemplate h, hat => by
      obtain ⟨r', hsame, h'⟩ := h.isolated hview hanswers (hat.2 _ htemplate)
      obtain ⟨err', rfl, hdeep⟩ := hsame.eq_error
      rw [hat.1.template?_eq hview] at htemplate
      rw [hat.1.remarks_eq hview] at h'
      exact ⟨.error err', .error hdeep, .abandoned he htemplate h'⟩

theorem Evaluates.isolated (hview : SameView b₁.scope b₂.scope)
    (hanswers : SameAnswers b₁.context b₂.context s₁ s₂) {d : Nat} {text : String} {st st' : State}
    {r : Except LookupError String} {tr : Trace} : Evaluates b₁ s₁ d text st r st' tr →
    b₁.Everywhere (SameAt b₁ b₂) text →
    ∃ r', SameOutcome r r' ∧ Evaluates b₂ s₂ d text st r' st' tr
  | .verbatim hocc, _ => ⟨_, .refl _, .verbatim hocc⟩
  | .tooDeep hocc hd, _ => ⟨_, .refl _, .tooDeep hocc hd⟩
  | .filled hocc hd h, hall => by
      obtain ⟨r', hsame, h'⟩ := h.isolated hview hanswers fun inner hmem => hall.at hmem
      exact ⟨_, hsame.map _, .filled hocc hd h'⟩

theorem Expands.isolated (hview : SameView b₁.scope b₂.scope)
    (hanswers : SameAnswers b₁.context b₂.context s₁ s₂) {d : Nat} {ps : List (Piece (List Char))} {st st' : State}
    {r : Except LookupError (List Char)} {tr : Trace} : Expands b₁ s₁ d ps st r st' tr →
    (∀ inner, .span inner ∈ ps → b₁.EverywhereAt (SameAt b₁ b₂) (Template.expression inner)) →
    ∃ r', SameOutcome r r' ∧ Expands b₂ s₂ d ps st r' st' tr
  | .nil, _ => ⟨_, .refl _, .nil⟩
  | .char h, hall => by
      obtain ⟨r', hsame, h'⟩ :=
        h.isolated hview hanswers fun inner hmem => hall inner (List.mem_cons_of_mem _ hmem)
      exact ⟨_, hsame.map _, .char h'⟩
  | .value h₁ h₂, hall => by
      obtain ⟨r₁', hsame₁, h₁'⟩ := h₁.isolated hview hanswers (hall _ List.mem_cons_self)
      obtain ⟨r₂', hsame₂, h₂'⟩ :=
        h₂.isolated hview hanswers fun inner hmem => hall inner (List.mem_cons_of_mem _ hmem)
      obtain rfl := hsame₁.eq_ok
      exact ⟨_, hsame₂.map _, .value h₁' h₂'⟩
  | .left h₁ hleft h₂, hall => by
      obtain ⟨r₁', hsame₁, h₁'⟩ := h₁.isolated hview hanswers (hall _ List.mem_cons_self)
      obtain ⟨r₂', hsame₂, h₂'⟩ :=
        h₂.isolated hview hanswers fun inner hmem => hall inner (List.mem_cons_of_mem _ hmem)
      obtain ⟨err', rfl, hdeep⟩ := hsame₁.eq_error
      rw [hdeep] at hleft
      exact ⟨_, hsame₂.map _, .left h₁' hleft h₂'⟩
  | .aborted h₁ hd herr, hall => by
      obtain ⟨r₁', hsame₁, h₁'⟩ := h₁.isolated hview hanswers (hall _ List.mem_cons_self)
      obtain ⟨err', rfl, hdeep⟩ := hsame₁.eq_error
      exact ⟨.error err', .error hdeep, .aborted h₁' hd (hdeep ▸ herr)⟩

end

/-! ## Texts -/

/-- The resolver with another table. -/
def withTable (r : Resolver) (table : EnvironmentTable) : Resolver :=
  { r with bindings := { r.bindings with scope := ⟨table, r.bindings.scope.current⟩ } }

/-- Two resolvers make the same of a text, and from there on keep the same values and have asked,
drawn and warned alike. -/
def ProcessAlike (r₁ r₂ : Resolver) (s₁ s₂ : Surroundings) (text : String)
    (journal : Journal) : Prop :=
  (r₁.process s₁ text journal).1 = (r₂.process s₂ text journal).1 ∧
  (r₁.process s₁ text journal).2.1.cache = (r₂.process s₂ text journal).2.1.cache ∧
  (r₁.process s₁ text journal).2.2 = (r₂.process s₂ text journal).2.2

variable {r₁ r₂ : Resolver} {text : String}

theorem processAlike_of_same (hcache : r₁.cache = r₂.cache)
    (hview : SameView r₁.bindings.scope r₂.bindings.scope)
    (hanswers : SameAnswers r₁.bindings.context r₂.bindings.context s₁ s₂)
    (hmeaning : r₁.bindings.Everywhere (SameAt r₁.bindings r₂.bindings) text)
    (journal : Journal) : ProcessAlike r₁ r₂ s₁ s₂ text journal := by
  obtain ⟨tr, htr⟩ := evaluates_process r₁ s₁ text journal
  obtain ⟨result, hsame, htr'⟩ := htr.isolated hview hanswers hmeaning
  obtain rfl := hsame.eq_ok
  -- the rules allow the other resolver no other result
  rw [hcache] at htr'
  obtain ⟨hout, hstate⟩ := htr'.eq_process
  obtain ⟨hkept, hjournal⟩ := State.mk.inj hstate
  exact ⟨Except.ok.inj hout, hkept, hjournal⟩

/-- A table that looks the same from the selected environment serves as well. -/
theorem processAlike_withTable {r : Resolver} {table : EnvironmentTable}
    (hview : SameView r.bindings.scope ⟨table, r.bindings.scope.current⟩) (s : Surroundings)
    (text : String) (journal : Journal) : ProcessAlike r (r.withTable table) s s text journal := by
  have hcache : r.cache = (r.withTable table).cache := rfl
  have hbase : r.bindings.context.baseDirectory =
      (r.withTable table).bindings.context.baseDirectory := rfl
  have hmeaning : r.bindings.Everywhere (SameAt r.bindings (r.withTable table).bindings) text := by
    intro e _
    exact ⟨rfl, fun _ _ => rfl⟩
  exact processAlike_of_same hcache hview (.of_baseDirectory hbase s) hmeaning journal

/-- Two resolvers process a text alike if they have kept the same values before, tables that look
the same from the environment that is selected, the same meaning for every expression that the
evaluation of the text can meet, and surroundings that answer alike. So the entries of an
environment that is not selected do not matter to any text. -/
theorem process_isolated (hcache : r₁.cache = r₂.cache)
    (hview : SameView r₁.bindings.scope r₂.bindings.scope)
    (hanswers : SameAnswers r₁.bindings.context r₂.bindings.context s₁ s₂)
    (hmeaning : ∀ e, Reaches r₁.bindings text e →
      SameMeaning r₁.bindings r₂.bindings (stripPercent e).1)
    (journal : Journal) :
    ProcessAlike r₁ r₂ s₁ s₂ text journal ∧
    ∀ (env : Environment), env.name ≠ r₁.bindings.scope.current →
      env.name ≠ EnvironmentTable.sharedName → ∀ (text' : String) (journal' : Journal),
        ProcessAlike r₁ (r₁.withTable (r₁.bindings.scope.table.add env)) s₁ s₁ text' journal' := by
  refine ⟨processAlike_of_same hcache hview hanswers hmeaning journal, ?_⟩
  intro env hname hshared text' journal'
  exact processAlike_withTable (.add _ hname hshared) s₁ text' journal'

theorem process_isolated_indirect :
    let dev : Environment := ⟨"dev", .ofList [("url", "{{host}}/{{login.response.body.*}}")]⟩
    let prod (key : String) : Environment := ⟨"prod", .ofList [("key", key), ("host", key)]⟩
    let table (key : String) : EnvironmentTable :=
      ((EnvironmentTable.empty.setShared "key" "HOME").add dev).add (prod key)
    let responses : RequestChain := RequestChain.empty.set "login" ⟨200, [], "x", by decide⟩
    let r₁ : Resolver := ⟨⟨⟨table "SECRET", "dev"⟩, some "a", ⟨.ofList [("host", "h"), ("b", "1")]⟩,
      responses.set "other" ⟨200, [], "1", by decide⟩⟩, .empty⟩
    let r₂ : Resolver := ⟨⟨⟨table "PATH", "dev"⟩, some "b", ⟨.ofList [("host", "h")]⟩,
      responses⟩, .empty⟩
    let s : Surroundings := { Surroundings.bare with process := fun name => some name }
    let text := "{{url}} {{$processEnv %key}} {{$dotenv k}}"
    SameView r₁.bindings.scope r₂.bindings.scope ∧
    SameAnswers r₁.bindings.context r₂.bindings.context s s ∧
    (∀ e, Reaches r₁.bindings text e → SameMeaning r₁.bindings r₂.bindings (stripPercent e).1) ∧
    (r₁.process s text []).1 = "h/x HOME {{$dotenv k}}" ∧
    (r₂.process s text []).1 = "h/x HOME {{$dotenv k}}" := by
  intro dev prod table responses r₁ r₂ s text
  have hview : SameView r₁.bindings.scope r₂.bindings.scope := by
    refine ⟨rfl, fun key => rfl, fun key => ?_, by decide +kernel⟩
    have hdev : r₁.bindings.scope.table.environments.get? "dev" =
        r₂.bindings.scope.table.environments.get? "dev" := by decide +kernel
    have hcurrent : r₁.bindings.scope.current = "dev" := rfl
    rw [EnvironmentTable.own?, EnvironmentTable.own?, hcurrent, hdev]
  have hanswers : SameAnswers r₁.bindings.context r₂.bindings.context s s := by
    have hnone : ∀ name ∈ SystemFunction.settingFiles r₁.bindings.context.scope.current,
        s.files.isFile (SystemFunction.settingPath r₁.bindings.context name) = false := by
      decide +kernel
    refine ⟨rfl, rfl, rfl, rfl, rfl, by decide +kernel, fun name hname hfile => ?_⟩
    rw [hnone name hname] at hfile
    cases hfile
  have hmeaning : ∀ e, Reaches r₁.bindings text e →
      SameMeaning r₁.bindings r₂.bindings (stripPercent e).1 := by
    have hcheck : r₁.bindings.check
        (fun e => decide (SameMeaning r₁.bindings r₂.bindings (stripPercent e).1)) 3 text = true := by
      decide +kernel
    exact Bindings.everywhere_of_check (fun _ => of_decide_eq_true) hcheck
  have hcache : r₁.cache = r₂.cache := rfl
  obtain ⟨⟨hout, -, -⟩, -⟩ := process_isolated hcache hview hanswers hmeaning []
  have hfirst : (r₁.process s text []).1 = "h/x HOME {{$dotenv k}}" := by decide +kernel
  exact ⟨hview, hanswers, hmeaning, hfirst, hout ▸ hfirst⟩

end Resolver

end Stencil
