import Stencil.Proofs.Resolver.History
import Stencil.Proofs.Resolver.Plain

/-!
# Resolving with a cache is plain rendering

Whatever a resolver was used for before, on whatever texts, it renders a template as
`Plain.render` does, provided that values nest within the limit in it. The cache may hold values
that were found at any depth, in the middle of other evaluations and of ones that failed, so the
invariant speaks of every entry by itself (`Faithful`): where the plain value of its expression
is defined, the entry is this value. Two facts carry it:

* a value that is found is the plain one (`Resolves.sound`), at any depth, because an evaluation
  that meets the limit has no value at all;
* where values nest within the limit, the limit is not met (`Resolves.shallow`).
-/

namespace Stencil.Resolver

open Text

variable {b : Bindings} {s : Surroundings}

/-! ## The limit is not met -/

mutual

theorem Resolves.shallow {n d : Nat} {e : String} {st st' : State}
    {r : Except LookupError String} {tr : Trace} : Resolves b s d e st r st' tr →
    b.nestsBelow n e = true → d + n ≤ depthLimit → Shallow r
  | .kept _, _, _ => .ok _
  | .answered _ _ _, _, _ => .ok _
  | .refused _ _ hanswer, _, _ =>
      .error (answer_shallow b s _ st.journal _ (by rw [hanswer]))
  | .named _ _ _, _, _ => .ok _
  | .abandoned _ htemplate h, hn, hd =>
      h.shallow (Bindings.nests_of_nestsBelow hn htemplate) (by omega)

/-- Where a template nests within what is left of the limit, it has a value. -/
theorem Evaluates.shallow {n d : Nat} {text : String} {st st' : State}
    {r : Except LookupError String} {tr : Trace} : Evaluates b s d text st r st' tr →
    b.nests n text = true → d + n ≤ depthLimit + 1 → Shallow r
  | .verbatim _, _, _ => .ok _
  | .tooDeep hocc hd, hn, hle => by
      obtain rfl : n = 0 := by omega
      rw [Bindings.nests, hocc] at hn
      cases hn
  | .filled hocc _ h, hn, hle => by
      cases n with
      | zero =>
          rw [Bindings.nests, hocc] at hn
          cases hn
      | succ n =>
          have hfilled := h.shallow (fun _ => Bindings.nestsBelow_of_nests hn) (by omega)
          exact hfilled.map _

theorem Expands.shallow {n d : Nat} {ps : List (Piece (List Char))} {st st' : State}
    {r : Except LookupError (List Char)} {tr : Trace} : Expands b s d ps st r st' tr →
    (∀ inner, .span inner ∈ ps → b.nestsBelow n (Template.expression inner) = true) →
    d + n ≤ depthLimit → Shallow r
  | .nil, _, _ => .ok _
  | .char h, hn, hd =>
      (h.shallow (fun inner hmem => hn inner (List.mem_cons_of_mem _ hmem)) hd).map _
  | .value _ h, hn, hd =>
      (h.shallow (fun inner hmem => hn inner (List.mem_cons_of_mem _ hmem)) hd).map _
  | .left _ _ h, hn, hd =>
      (h.shallow (fun inner hmem => hn inner (List.mem_cons_of_mem _ hmem)) hd).map _
  | .aborted h _ _, hn, hd => .error (h.shallow (hn _ List.mem_cons_self) hd _ rfl)

end

/-! ## What is found is the plain value -/

/-- A value is the plain value of its expression, where that is defined. -/
def Agrees (b : Bindings) (s : Surroundings) (e value : String) : Prop :=
  ∀ n, b.nestsBelow n e = true → b.CalmAt e →
    Plain.value b s (Plain.render b s n) e = some value

/-- The entries of a cache are plain values. -/
def Faithful (b : Bindings) (s : Surroundings) (cache : Dict String) : Prop :=
  ∀ e value, cache.get? e = some value → Agrees b s e value

theorem Faithful.empty : Faithful b s .empty := by
  intro e value h
  rw [Dict.get?_empty] at h
  cases h

theorem Faithful.insert {cache : Dict String} (h : Faithful b s cache) {e value : String}
    (hvalue : Agrees b s e value) : Faithful b s (cache.insert e value) := by
  intro e' value' h'
  rw [Dict.get?_insert] at h'
  split at h'
  next heq =>
    obtain rfl := Option.some.inj h'
    exact heq ▸ hvalue
  next => exact h e' value' h'

/-- The answer of a leaf is its plain value. -/
theorem agrees_of_answer (hs : s.Steady) {e value : String} {journal journal' : Journal}
    (htemplate : b.template? (stripPercent e).1 = none)
    (hanswer : answer b s (stripPercent e).1 journal = (.ok value, journal')) :
    Agrees b s e (encodeIf (stripPercent e).2 value) := by
  intro n _ hcalm
  rw [Plain.value_of_leaf htemplate, answer_steady hs b hcalm.1 [] journal, hanswer]
  rfl

/-- The value of a template is the plain value of its name. -/
theorem agrees_of_template {e template value : String}
    (htemplate : b.template? (stripPercent e).1 = some template)
    (h : ∀ n, b.nests n template = true → b.Calm template →
      value = Plain.render b s n template) :
    Agrees b s e (encodeIf (stripPercent e).2 value) := by
  intro n hn hcalm
  rw [Plain.value_of_template htemplate,
    h n (Bindings.nests_of_nestsBelow hn htemplate) (hcalm.2 _ htemplate)]

mutual

/-- A value that is found is the plain one, and the cache stays faithful also where none is. -/
theorem Resolves.sound (hs : s.Steady) {d : Nat} {e : String} {st st' : State}
    {r : Except LookupError String} {tr : Trace} : Resolves b s d e st r st' tr →
    Faithful b s st.cache →
    Faithful b s st'.cache ∧ ∀ value, r = .ok value → Agrees b s e value
  | .kept hkept, hf => ⟨hf, by rintro value ⟨⟩; exact hf _ _ hkept⟩
  | .answered _ htemplate hanswer, hf => by
      have hagrees := agrees_of_answer hs htemplate hanswer
      exact ⟨hf.insert hagrees, by rintro value ⟨⟩; exact hagrees⟩
  | .refused _ _ _, hf => ⟨hf, by rintro value ⟨⟩⟩
  | .named _ htemplate h, hf => by
      -- below the top a template that has a value has the plain one, however deep it nests
      obtain ⟨hf', hrender⟩ := h.sound hs hf
      have hagrees := agrees_of_template htemplate fun n hn hcalm =>
        hrender _ rfl n hn hcalm (by omega)
      exact ⟨hf'.insert hagrees, by rintro value ⟨⟩; exact hagrees⟩
  | .abandoned _ _ h, hf => ⟨(h.sound hs hf).1, by rintro value ⟨⟩⟩

theorem Evaluates.sound (hs : s.Steady) {d : Nat} {text : String} {st st' : State}
    {r : Except LookupError String} {tr : Trace} : Evaluates b s d text st r st' tr →
    Faithful b s st.cache →
    Faithful b s st'.cache ∧ ∀ value, r = .ok value → ∀ n, b.nests n text = true →
      b.Calm text → (d = 0 → n ≤ depthLimit + 1) → value = Plain.render b s n text
  | .verbatim hocc, hf => by
      refine ⟨hf, ?_⟩
      rintro value ⟨⟩ n _ _ _
      rw [Plain.render_of_not_occurs hocc]
  | .tooDeep _ _, hf => ⟨hf, by rintro value ⟨⟩⟩
  | .filled (r := r) hocc _ h, hf => by
      obtain ⟨hf', hfill⟩ := h.sound hs hf
      refine ⟨hf', ?_⟩
      intro value hr n hn hcalm hd
      cases r with
      | error err => cases hr
      | ok cs =>
          cases hr
          cases n with
          | zero =>
              -- a template with placeholders nests at least once
              rw [Bindings.nests, hocc] at hn
              cases hn
          | succ n =>
              rw [hfill cs rfl n (fun inner hmem => Bindings.nestsBelow_of_nests hn hmem)
                (fun inner hmem => Bindings.Everywhere.at hcalm hmem) (by omega)]
              rfl

theorem Expands.sound (hs : s.Steady) {d : Nat} {ps : List (Piece (List Char))}
    {st st' : State} {r : Except LookupError (List Char)} {tr : Trace} :
    Expands b s d ps st r st' tr → Faithful b s st.cache →
    Faithful b s st'.cache ∧ ∀ cs, r = .ok cs → ∀ n,
      (∀ inner, .span inner ∈ ps → b.nestsBelow n (Template.expression inner) = true) →
      (∀ inner, .span inner ∈ ps → b.CalmAt (Template.expression inner)) →
      (d = 0 → n ≤ depthLimit) → cs = Plain.fill (Plain.value b s (Plain.render b s n)) ps
  | .nil, hf => ⟨hf, by rintro cs ⟨⟩ n _ _ _; rfl⟩
  | .char (r := r) h, hf => by
      obtain ⟨hf', hfill⟩ := h.sound hs hf
      refine ⟨hf', ?_⟩
      intro cs hr n hn hcalm hd
      cases r with
      | error err => cases hr
      | ok rest =>
          cases hr
          rw [Plain.fill, ← hfill rest rfl n (fun inner hmem => hn inner (.tail _ hmem))
            (fun inner hmem => hcalm inner (.tail _ hmem)) hd]
  | .value (r := r) h₁ h₂, hf => by
      obtain ⟨hf₁, hvalue⟩ := h₁.sound hs hf
      obtain ⟨hf₂, hfill⟩ := h₂.sound hs hf₁
      refine ⟨hf₂, ?_⟩
      intro cs hr n hn hcalm hd
      cases r with
      | error err => cases hr
      | ok rest =>
          cases hr
          have hv := hvalue _ rfl n (hn _ List.mem_cons_self) (hcalm _ List.mem_cons_self)
          rw [Plain.fill, hv, ← hfill rest rfl n (fun inner hmem => hn inner (.tail _ hmem))
            (fun inner hmem => hcalm inner (.tail _ hmem)) hd]
  | .left (r := r) h₁ hleft h₂, hf => by
      obtain ⟨hf₁, -⟩ := h₁.sound hs hf
      obtain ⟨hf₂, hfill⟩ := h₂.sound hs hf₁
      refine ⟨hf₂, ?_⟩
      intro cs hr n hn hcalm hd
      cases r with
      | error err => cases hr
      | ok rest =>
          cases hr
          -- the error is that of a leaf: below the top by the rule, at the top by the limit
          have herr := hleft.elim
            (fun hd0 => h₁.shallow (hn _ List.mem_cons_self) (by have := hd hd0; omega) _ rfl) id
          obtain ⟨htemplate, hanswer⟩ := h₁.answer_of_error herr
          have hsteady := answer_steady hs b (hcalm _ List.mem_cons_self).1 [] st.journal
          rw [Plain.fill, Plain.value_of_error htemplate (hsteady.trans hanswer),
            ← hfill rest rfl n (fun inner hmem => hn inner (.tail _ hmem))
              (fun inner hmem => hcalm inner (.tail _ hmem)) hd]
  | .aborted h₁ _ _, hf => ⟨(h₁.sound hs hf).1, by rintro cs ⟨⟩⟩

end

/-- Where values nest within the limit, an expression has its plain value or, like it, none. -/
theorem Resolves.toOption_eq (hs : s.Steady) {n d : Nat} {e : String} {st st' : State}
    {r : Except LookupError String} {tr : Trace} (h : Resolves b s d e st r st' tr)
    (hf : Faithful b s st.cache) (hn : b.nestsBelow n e = true) (hcalm : b.CalmAt e)
    (hd : d + n ≤ depthLimit) : r.toOption = Plain.value b s (Plain.render b s n) e := by
  cases r with
  | ok value => exact ((h.sound hs hf).2 value rfl n hn hcalm).symm
  | error err =>
      obtain ⟨htemplate, hanswer⟩ := h.answer_of_error (h.shallow hn hd err rfl)
      have hsteady := answer_steady hs b hcalm.1 [] st.journal
      rw [Plain.value_of_error htemplate (hsteady.trans hanswer)]
      rfl

/-! ## Resolvers -/

/-- The cache is faithful after every history that only reads. -/
theorem faithful_runAll (hs : s.Steady) {ops : List Operation}
    (hops : ∀ op ∈ ops, op.Reads (· = s)) (journal : Journal) :
    (runAll ops (⟨b, .empty⟩, journal)).1.bindings = b ∧
      Faithful b s (runAll ops (⟨b, .empty⟩, journal)).1.cache := by
  refine runAll_reads (P := Faithful b s) .empty ?_ ?_ hops journal
  · intro s' e st r st' tr hs' h
    subst hs'
    exact fun hf => (h.sound hs hf).1
  · intro s' text st r st' tr hs' h
    subst hs'
    exact fun hf => (h.sound hs hf).1

theorem process_of_faithful (hs : s.Steady) {r : Resolver}
    (hf : Faithful r.bindings s r.cache) {text : String}
    (hn : r.bindings.nests (depthLimit + 1) text = true) (hcalm : r.bindings.Calm text)
    (journal : Journal) :
    (r.process s text journal).1 = Plain.render r.bindings s (depthLimit + 1) text := by
  obtain ⟨tr, htr⟩ := evaluates_process r s text journal
  exact (htr.sound hs hf).2 _ rfl _ hn hcalm fun _ => Nat.le_refl _

theorem resolveExpression_of_faithful (hs : s.Steady) {r : Resolver}
    (hf : Faithful r.bindings s r.cache) {expression : String}
    (hn : r.bindings.nestsBelow depthLimit (trimText expression) = true)
    (hcalm : r.bindings.CalmAt (trimText expression)) (journal : Journal) :
    (r.resolveExpression s expression journal).1.toOption =
      Plain.value r.bindings s (Plain.render r.bindings s depthLimit) (trimText expression) := by
  obtain ⟨tr, htr⟩ := resolves_resolveExpression r s expression journal
  exact htr.toOption_eq hs hf hn hcalm (by omega)

/-- A resolver renders a template as plain rendering does, whatever it was used for before, if
values nest at most `depthLimit` deep in those that the template names. So it is with the value of
a single expression. -/
theorem memoised_eq_plain (b : Bindings) {s : Surroundings} (hs : s.Steady)
    {ops : List Operation} (hops : ∀ op ∈ ops, op.Reads (· = s)) (journal₀ : Journal) :
    let r := (runAll ops (⟨b, .empty⟩, journal₀)).1
    (∀ text, b.nests (depthLimit + 1) text = true → b.Calm text →
      ∀ room, depthLimit < room → ∀ journal,
        (r.process s text journal).1 = Plain.render b s room text) ∧
    (∀ expression, b.nestsBelow depthLimit (trimText expression) = true →
      b.CalmAt (trimText expression) → ∀ room, depthLimit ≤ room → ∀ journal,
        (r.resolveExpression s expression journal).1.toOption =
          Plain.value b s (Plain.render b s room) (trimText expression)) := by
  obtain ⟨hb, hf⟩ := faithful_runAll (b := b) hs hops journal₀
  revert hb hf
  generalize (runAll ops (⟨b, .empty⟩, journal₀)).1 = r
  rintro rfl hf
  refine ⟨?_, ?_⟩
  · intro text hn hcalm room hroom journal
    rw [Plain.render_of_nests hn hroom, process_of_faithful hs hf hn hcalm journal]
  · intro expression hn hcalm room hroom journal
    rw [Plain.value_of_nestsBelow hn hroom,
      resolveExpression_of_faithful hs hf hn hcalm journal]

theorem memoised_eq_plain_greeting :
    let b := Bindings.ofVariables [("a", "x{{b}}"), ("b", "y z"), ("loop", "{{loop}}")]
    let ops : List Operation := [.process .bare "{{b}} {{loop}}", .resolve .bare "a", .clearCache,
      .process .bare "{{a}} {{$guid}}"]
    let r := (runAll ops (⟨b, .empty⟩, [])).1
    Surroundings.Steady .bare ∧ (∀ op ∈ ops, op.Reads (· = .bare)) ∧
    b.tame (depthLimit + 1) "{{a}}/{{ %a}}/{{c}}" = true ∧
    (r.process .bare "{{a}}/{{ %a}}/{{c}}" []).1 =
      Plain.render b .bare 40 "{{a}}/{{ %a}}/{{c}}" ∧
    Plain.render b .bare 40 "{{a}}/{{ %a}}/{{c}}" = "xy z/xy%20z/{{c}}" ∧
    (r.resolveExpression .bare " %a" []).1.toOption =
      Plain.value b .bare (Plain.render b .bare 40) "%a" := by
  intro b ops r
  have hs : Surroundings.Steady .bare := by
    intro prompter h
    cases h
  have hops : ∀ op ∈ ops, op.Reads (· = .bare) := by
    simp [ops, Operation.Reads]
  have htame : b.tame (depthLimit + 1) "{{a}}/{{ %a}}/{{c}}" = true := by decide +kernel
  have hn := Bindings.nests_of_check htame
  have hcalm := Bindings.calm_of_tame htame
  have hmem : .span " %a".toList ∈ Template.pieces "{{a}}/{{ %a}}/{{c}}" := by decide +kernel
  obtain ⟨hprocess, hresolve⟩ := memoised_eq_plain b hs hops []
  refine ⟨hs, hops, htame, hprocess _ hn hcalm 40 (by decide) [], by decide +kernel, ?_⟩
  exact hresolve " %a" (Bindings.nestsBelow_of_nests hn hmem)
    (Bindings.Everywhere.at hcalm hmem) 40 (by decide) []

end Stencil.Resolver
