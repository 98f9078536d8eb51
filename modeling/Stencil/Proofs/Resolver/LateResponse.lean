import Stencil.Proofs.Resolver.Memo

/-!
# Responses that come late

A text is processed, then the response to a request is captured that had none, then the text is
processed again. A reference to the response that stands in the text itself is looked up again
and finds its value, for what has no value is not kept. A reference inside the value of a variable
is not: its placeholder was left in that value, and the value was kept with it. So the second
time the variables of the text have the values from before the response and everything else has
the values from after it (`remembered`).
-/

namespace Stencil

open Text

namespace Resolver

/-- What names stand for when one more response is captured. -/
def Bindings.withResponse (b : Bindings) (name : String) (response : Response) : Bindings :=
  { b with responses := b.responses.set name response }

/-- Processes a text, captures a response and processes the text again. -/
def reprocess (r : Resolver) (s : Surroundings) (name : String) (response : Response)
    (text : String) (journal journal' : Journal) : String :=
  (((r.process s text journal).2.1.setResponse name response).process s text journal').1

/-- Whether processing a text again after a response came late is like processing it with the
response from the start. -/
def Refreshes (b : Bindings) (s : Surroundings) (name : String) (response : Response)
    (text : String) : Prop :=
  ∀ journal journal' journal'',
    reprocess ⟨b, .empty⟩ s name response text journal journal' =
      (process ⟨b.withResponse name response, .empty⟩ s text journal'').1

/-- The values of expressions after a change from `b` to `b'`: what names a variable has the value
from before, and a leaf has the value from after. -/
def remembered (b b' : Bindings) (s : Surroundings) (room : Nat) (e : String) : Option String :=
  if (b.template? (stripPercent e).1).isSome then Plain.value b s (Plain.render b s room) e
  else Plain.value b' s (Plain.render b' s room) e

/-- A leaf that has no value before a change from `b` to `b'` and has one after it. -/
def ComesLate (b b' : Bindings) (s : Surroundings) (e : String) : Prop :=
  b.template? (stripPercent e).1 = none ∧
    (answer b s (stripPercent e).1 []).1.toOption = none ∧
    (answer b' s (stripPercent e).1 []).1.toOption ≠ none

variable {b : Bindings} {s : Surroundings} {name : String} {response : Response}

/-! ## One more response -/

@[simp] theorem Bindings.template?_withResponse (x : String) :
    (b.withResponse name response).template? x = b.template? x := rfl

theorem Bindings.nests_withResponse (n : Nat) (text : String) :
    (b.withResponse name response).nests n text = b.nests n text := by
  induction n generalizing text with
  | zero => rfl
  | succ n ih =>
      have hnests : (b.withResponse name response).nests n = b.nests n := funext ih
      rw [nests, nests, hnests]
      rfl

theorem Bindings.calm_withResponse {text : String} (h : b.Calm text) :
    (b.withResponse name response).Calm text := by
  intro e he
  refine h e ?_
  clear h
  induction he with
  | here hmem => exact .here hmem
  | through hmem htemplate _ ih => exact .through hmem htemplate ih

end Resolver

namespace RequestChain

/-- A reference that has a value keeps it when the response to another request is captured. -/
theorem resolve_set {chain : RequestChain} {name : String} (hnew : chain.get? name = none)
    (response : Response) {expression value : String}
    (h : chain.resolve expression = .ok value) :
    (chain.set name response).resolve expression = .ok value := by
  unfold resolve at h ⊢
  cases hparts : parts? expression with
  | none => rw [hparts] at h; cases h
  | some parts =>
      obtain ⟨request, source, part, path⟩ := parts
      rw [hparts] at h
      dsimp only at h ⊢
      cases hget : chain.get? request with
      | none =>
          -- without a response there is no value
          rw [hget] at h
          dsimp only at h
          split at h
          · cases h
          · split at h
            · cases h
            · cases h
      | some captured =>
          have hne : request ≠ name := by
            rintro rfl
            rw [hnew] at hget
            cases hget
          have hset : (chain.set name response).get? request = some captured := by
            rw [← hget]
            simp [set, get?, hne]
          rw [hget] at h
          rw [hset]
          exact h

end RequestChain

namespace Resolver

variable {b : Bindings} {s : Surroundings} {name : String} {response : Response}

/-- An answer stays as it is when the response to another request is captured. -/
theorem answer_withResponse (hnew : b.responses.get? name = none) {x value : String}
    {journal journal' : Journal} (h : answer b s x journal = (.ok value, journal')) :
    answer (b.withResponse name response) s x journal = (.ok value, journal') := by
  unfold answer at h ⊢
  split at h
  · cases h
  next hx =>
    rw [if_neg hx]
    split at h
    next hsystem =>
      rw [if_pos hsystem]
      exact h
    next hsystem =>
      rw [if_neg hsystem]
      split at h
      next href =>
        rw [if_pos href]
        obtain ⟨hvalue, rfl⟩ := Prod.mk.inj h
        rw [show (b.withResponse name response).responses.resolve x = .ok value from
          RequestChain.resolve_set hnew response hvalue]
      next => cases h

theorem value_withResponse_of_template {render : String → String} {e template : String}
    (h : b.template? (stripPercent e).1 = some template) :
    Plain.value (b.withResponse name response) s render e =
      some (encodeIf (stripPercent e).2 (render template)) :=
  Plain.value_of_template (b := b.withResponse name response) h

theorem value_withResponse_of_leaf {render : String → String} {e : String}
    (h : b.template? (stripPercent e).1 = none) :
    Plain.value (b.withResponse name response) s render e =
      ((answer (b.withResponse name response) s (stripPercent e).1 []).1.toOption).map
        (encodeIf (stripPercent e).2) :=
  Plain.value_of_leaf (b := b.withResponse name response) h

/-- The plain value of a leaf stays as it is when the response to another request is captured. -/
theorem value_mono (hnew : b.responses.get? name = none) {room : Nat} {e value : String}
    (htemplate : b.template? (stripPercent e).1 = none)
    (h : Plain.value b s (Plain.render b s room) e = some value) :
    Plain.value (b.withResponse name response) s
      (Plain.render (b.withResponse name response) s room) e = some value := by
  rw [Plain.value_of_leaf htemplate] at h
  rw [value_withResponse_of_leaf htemplate]
  rcases hanswer : answer b s (stripPercent e).1 [] with ⟨_ | found, journal⟩
  · rw [hanswer] at h
    cases h
  · rw [hanswer] at h
    rw [answer_withResponse hnew hanswer]
    exact h

/-- Where no answer comes late, the plain value of a leaf is the same before and after. -/
theorem value_eq_of_not_comesLate (hnew : b.responses.get? name = none) {room : Nat} {e : String}
    (htemplate : b.template? (stripPercent e).1 = none)
    (hlate : ¬ ComesLate b (b.withResponse name response) s e) :
    Plain.value b s (Plain.render b s room) e =
      Plain.value (b.withResponse name response) s
        (Plain.render (b.withResponse name response) s room) e := by
  cases hvalue : Plain.value b s (Plain.render b s room) e with
  | some value => exact (value_mono hnew htemplate hvalue).symm
  | none =>
      rw [Plain.value_of_leaf htemplate, Option.map_eq_none_iff] at hvalue
      have hnone : (answer (b.withResponse name response) s (stripPercent e).1 []).1.toOption =
          none :=
        Classical.byContradiction fun hsome => hlate ⟨htemplate, hvalue, hsome⟩
      rw [value_withResponse_of_leaf htemplate, hnone]
      rfl

/-- A template from which no late answer is reached renders the same before and after. -/
theorem render_eq_of_not_comesLate (hnew : b.responses.get? name = none) {room : Nat}
    {text : String}
    (hlate : b.Everywhere (fun e => ¬ ComesLate b (b.withResponse name response) s e) text) :
    Plain.render b s room text = Plain.render (b.withResponse name response) s room text := by
  induction room generalizing text with
  | zero => rfl
  | succ room ih =>
      rw [Plain.render, Plain.render]
      refine congrArg String.ofList (Plain.fill_congr ?_)
      intro inner hmem
      have hexpr := Template.mem_unresolved.2 ⟨inner, hmem, rfl⟩
      cases htemplate : b.template? (stripPercent (Template.expression inner)).1 with
      | none => exact value_eq_of_not_comesLate hnew htemplate (hlate _ (.here hexpr))
      | some template =>
          rw [Plain.value_of_template htemplate, value_withResponse_of_template htemplate,
            ih fun e he => hlate e (.through hexpr htemplate he)]

/-! ## The first time -/

/-- Where values nest within the limit, every variable that a text names is kept. -/
theorem Expands.kept_of_template {n : Nat} {ps : List (Piece (List Char))} {st st' : State}
    {r : Except LookupError (List Char)} {tr : Trace} (h : Expands b s 0 ps st r st' tr)
    (hn : ∀ inner, .span inner ∈ ps → b.nestsBelow n (Template.expression inner) = true)
    (hlimit : n ≤ depthLimit) :
    ∀ inner, .span inner ∈ ps →
      (b.template? (stripPercent (Template.expression inner)).1).isSome →
      (st'.cache.get? (Template.expression inner)).isSome :=
  match h with
  | .nil => by intro inner hmem; cases hmem
  | .char h => by
      intro inner hmem
      rcases List.mem_cons.1 hmem with hmem | hmem
      · cases hmem
      · exact h.kept_of_template (fun inner hmem => hn inner (.tail _ hmem)) hlimit inner hmem
  | .value h₁ h₂ => by
      intro inner hmem htemplate
      rcases List.mem_cons.1 hmem with hmem | hmem
      · cases hmem
        exact h₂.kept_mono _ h₁.isSome_of_ok
      · exact h₂.kept_of_template (fun inner hmem => hn inner (.tail _ hmem)) hlimit inner hmem
          htemplate
  | .left h₁ _ h₂ => by
      intro inner hmem htemplate
      rcases List.mem_cons.1 hmem with hmem | hmem
      · -- the error is that of a leaf, for the limit is not met
        cases hmem
        have herr := h₁.shallow (hn _ List.mem_cons_self) (by omega) _ rfl
        rw [(h₁.answer_of_error herr).1] at htemplate
        cases htemplate
      · exact h₂.kept_of_template (fun inner hmem => hn inner (.tail _ hmem)) hlimit inner hmem
          htemplate
  | .aborted _ hd _ => absurd hd (Nat.lt_irrefl 0)

/-! ## The second time -/

/-- The entries of a cache are remembered values. -/
def Settled (b b' : Bindings) (s : Surroundings) (cache : Dict String) : Prop :=
  ∀ e value, cache.get? e = some value → ∀ n, b.nestsBelow n e = true → b.CalmAt e →
    remembered b b' s n e = some value

/-- Plain values from before are remembered values. -/
theorem Faithful.settled (hnew : b.responses.get? name = none) {cache : Dict String}
    (hf : Faithful b s cache) : Settled b (b.withResponse name response) s cache := by
  intro e value hkept n hn hcalm
  have hvalue := hf e value hkept n hn hcalm
  unfold remembered
  split
  · exact hvalue
  next hleaf =>
    rw [Option.not_isSome_iff_eq_none] at hleaf
    exact value_mono hnew hleaf hvalue

theorem remembered_of_leaf {b' : Bindings} {n : Nat} {e : String}
    (htemplate : b.template? (stripPercent e).1 = none) :
    remembered b b' s n e = Plain.value b' s (Plain.render b' s n) e := by
  rw [remembered, htemplate]
  rfl

/-- A leaf, or a variable that is kept, has its remembered value, and what is kept after it are
remembered values. -/
theorem Resolves.remembered_eq (hs : s.Steady) {b' : Bindings} (hb : b'.template? = b.template?)
    {d n : Nat} {e : String} {st st' : State} {r : Except LookupError String} {tr : Trace}
    (h : Resolves b' s d e st r st' tr) (hsettled : Settled b b' s st.cache)
    (hkept : (b.template? (stripPercent e).1).isSome → (st.cache.get? e).isSome)
    (hn : b.nestsBelow n e = true) (hcalm : b.CalmAt e) :
    r.toOption = remembered b b' s n e ∧ Settled b b' s st'.cache := by
  -- the steady answer of a leaf, where the calmness of the expression is at hand
  have hleaf : ∀ {x : Except LookupError String} {journal : Journal},
      b'.template? (stripPercent e).1 = none → b.CalmAt e →
      answer b' s (stripPercent e).1 st.journal = (x, journal) → ∀ m,
      remembered b b' s m e = x.toOption.map (encodeIf (stripPercent e).2) := by
    intro x journal htemplate hcalm hanswer m
    have hsteady := answer_steady hs b' hcalm.1 [] st.journal
    rw [remembered_of_leaf (hb ▸ htemplate), Plain.value_of_leaf htemplate, hsteady, hanswer]
  -- a variable that is not kept cannot come here
  have hnamed : ∀ {template : String}, st.cache.get? e = none →
      b'.template? (stripPercent e).1 ≠ some template := by
    intro template hnone htemplate
    rw [hb] at htemplate
    rw [htemplate, hnone] at hkept
    cases hkept rfl
  cases h with
  | kept hfound => exact ⟨(hsettled _ _ hfound n hn hcalm).symm, hsettled⟩
  | answered _ htemplate hanswer =>
      refine ⟨(hleaf htemplate hcalm hanswer n).symm, ?_⟩
      intro e' value hfound m hm hcalm'
      rw [Dict.get?_insert] at hfound
      split at hfound
      next heq =>
        subst heq
        rw [hleaf htemplate hcalm' hanswer m]
        exact hfound
      next => exact hsettled e' value hfound m hm hcalm'
  | refused _ htemplate hanswer => exact ⟨(hleaf htemplate hcalm hanswer n).symm, hsettled⟩
  | named hnone htemplate _ => exact absurd htemplate (hnamed hnone)
  | abandoned hnone htemplate _ => exact absurd htemplate (hnamed hnone)

/-- A text whose variables are kept is filled with remembered values. -/
theorem Expands.remembered_eq (hs : s.Steady) {b' : Bindings} (hb : b'.template? = b.template?)
    {n : Nat} {ps : List (Piece (List Char))} {st st' : State}
    {r : Except LookupError (List Char)} {tr : Trace} (h : Expands b' s 0 ps st r st' tr)
    (hsettled : Settled b b' s st.cache)
    (hps : ∀ inner, .span inner ∈ ps → b.nestsBelow n (Template.expression inner) = true ∧
      b.CalmAt (Template.expression inner) ∧
      ((b.template? (stripPercent (Template.expression inner)).1).isSome →
        (st.cache.get? (Template.expression inner)).isSome)) :
    r = .ok (Plain.fill (remembered b b' s n) ps) :=
  match h with
  | .nil => rfl
  | .char h => by
      rw [h.remembered_eq hs hb hsettled fun inner hmem => hps inner (.tail _ hmem)]
      rfl
  | .value h₁ h₂ => by
      obtain ⟨hn, hcalm, hkept⟩ := hps _ List.mem_cons_self
      obtain ⟨hvalue, hsettled₁⟩ := h₁.remembered_eq hs hb hsettled hkept hn hcalm
      have hrest := h₂.remembered_eq hs hb hsettled₁ fun inner hmem =>
        let ⟨hn, hcalm, hkept⟩ := hps inner (.tail _ hmem)
        ⟨hn, hcalm, fun htemplate => h₁.kept_mono _ (hkept htemplate)⟩
      rw [hrest, Plain.fill, ← hvalue]
      rfl
  | .left h₁ _ h₂ => by
      obtain ⟨hn, hcalm, hkept⟩ := hps _ List.mem_cons_self
      obtain ⟨hvalue, hsettled₁⟩ := h₁.remembered_eq hs hb hsettled hkept hn hcalm
      have hrest := h₂.remembered_eq hs hb hsettled₁ fun inner hmem =>
        let ⟨hn, hcalm, hkept⟩ := hps inner (.tail _ hmem)
        ⟨hn, hcalm, fun htemplate => h₁.kept_mono _ (hkept htemplate)⟩
      rw [hrest, Plain.fill, ← hvalue]
      rfl
  | .aborted _ hd _ => absurd hd (Nat.lt_irrefl 0)

/-- What is processed again after a response came late is filled with remembered values. -/
theorem reprocess_eq (hs : s.Steady) (hnew : b.responses.get? name = none) (response : Response)
    {text : String} (hn : b.nests (depthLimit + 1) text = true) (hcalm : b.Calm text)
    (journal journal' : Journal) :
    reprocess ⟨b, .empty⟩ s name response text journal journal' =
      String.ofList (Plain.fill (remembered b (b.withResponse name response) s depthLimit)
        (Template.pieces text)) := by
  -- the first time: plain values are kept, and all variables of the text are
  obtain ⟨tr, h⟩ := expands_process ⟨b, .empty⟩ s text journal
  have hfaithful := (h.sound hs .empty).1
  have hkept := h.kept_of_template (fun inner => Bindings.nestsBelow_of_nests hn) (Nat.le_refl _)
  -- the second time: what is kept is taken, and only leaves are looked up
  obtain ⟨tr', h'⟩ := expands_process
    ((Resolver.process ⟨b, .empty⟩ s text journal).2.1.setResponse name response) s text journal'
  have htemplate : (b.withResponse name response).template? = b.template? := rfl
  have heq := Expands.remembered_eq hs htemplate h' (hfaithful.settled hnew)
    fun inner hmem => ⟨Bindings.nestsBelow_of_nests hn hmem, Bindings.Everywhere.at hcalm hmem, hkept inner hmem⟩
  rw [reprocess, ← String.toList_inj, String.toList_ofList]
  exact Except.ok.inj heq

/-! ## Both times -/

/-- With the response from the start, a text is filled with the values from after it. -/
theorem process_withResponse (hs : s.Steady) {text : String}
    (hn : b.nests (depthLimit + 1) text = true) (hcalm : b.Calm text) (journal : Journal) :
    (process ⟨b.withResponse name response, .empty⟩ s text journal).1 =
      String.ofList (Plain.fill (Plain.value (b.withResponse name response) s
        (Plain.render (b.withResponse name response) s depthLimit)) (Template.pieces text)) :=
  process_of_faithful (r := ⟨b.withResponse name response, .empty⟩) hs .empty
    ((Bindings.nests_withResponse _ _).trans hn) (Bindings.calm_withResponse hcalm) journal

theorem refreshes_iff_fill_eq (hs : s.Steady) (hnew : b.responses.get? name = none)
    (response : Response) {text : String} (hn : b.nests (depthLimit + 1) text = true)
    (hcalm : b.Calm text) :
    Refreshes b s name response text ↔
      Plain.fill (remembered b (b.withResponse name response) s depthLimit)
          (Template.pieces text) =
        Plain.fill (Plain.value (b.withResponse name response) s
          (Plain.render (b.withResponse name response) s depthLimit)) (Template.pieces text) := by
  constructor
  · intro h
    have heq := h [] [] []
    rw [reprocess_eq hs hnew response hn hcalm, process_withResponse hs hn hcalm] at heq
    exact String.ofList_injective heq
  · intro h journal journal' journal''
    rw [reprocess_eq hs hnew response hn hcalm, process_withResponse hs hn hcalm, h]

/-- A text refreshes if the variables that it names have the same values before and after. -/
theorem refreshes_of_value_eq (hs : s.Steady) (hnew : b.responses.get? name = none)
    (response : Response) {text : String} (hn : b.nests (depthLimit + 1) text = true)
    (hcalm : b.Calm text)
    (h : ∀ inner, .span inner ∈ Template.pieces text →
      (b.template? (stripPercent (Template.expression inner)).1).isSome →
      Plain.value b s (Plain.render b s depthLimit) (Template.expression inner) =
        Plain.value (b.withResponse name response) s
          (Plain.render (b.withResponse name response) s depthLimit) (Template.expression inner)) :
    Refreshes b s name response text := by
  rw [refreshes_iff_fill_eq hs hnew response hn hcalm]
  refine Plain.fill_congr ?_
  intro inner hmem
  cases htemplate : b.template? (stripPercent (Template.expression inner)).1 with
  | none => exact remembered_of_leaf htemplate
  | some template =>
      rw [remembered, htemplate, ← h inner hmem (by rw [htemplate]; rfl)]
      rfl

/-- The text of a placeholder refreshes only if the variable that it names has the same value
before and after. -/
theorem value_eq_of_refreshes (hs : s.Steady) (hnew : b.responses.get? name = none)
    (response : Response) {inner : List Char} (hreadable : Template.Readable inner)
    (hn : b.nestsBelow depthLimit (Template.expression inner) = true)
    (hcalm : b.CalmAt (Template.expression inner)) {template : String}
    (htemplate : b.template? (stripPercent (Template.expression inner)).1 = some template)
    (h : Refreshes b s name response (String.ofList (Template.write inner))) :
    Plain.value b s (Plain.render b s depthLimit) (Template.expression inner) =
      Plain.value (b.withResponse name response) s
        (Plain.render (b.withResponse name response) s depthLimit) (Template.expression inner) := by
  rw [refreshes_iff_fill_eq hs hnew response ((Bindings.nests_write hreadable _).trans hn)
    (Bindings.calm_write hreadable hcalm), Template.pieces_write hreadable] at h
  simp only [Plain.fill, remembered, htemplate, Option.isSome_some, if_true,
    Plain.value_of_template htemplate, value_withResponse_of_template htemplate,
    List.append_nil] at h
  rw [Plain.value_of_template htemplate, value_withResponse_of_template htemplate]
  exact congrArg some (String.toList_inj.1 h)

/-- When a response came late, exactly the references to it inside the values of variables are
missed. A text that is processed again is filled with the remembered values, so it refreshes if no
late answer is reached through a variable that it names; and all texts refresh if and only if
every variable has the same value before and after. -/
theorem late_response_refreshes_iff (b : Bindings) {s : Surroundings} (hs : s.Steady)
    {name : String} (hnew : b.responses.get? name = none) (response : Response) :
    let b' := b.withResponse name response
    let before := Plain.value b s (Plain.render b s depthLimit)
    let after := Plain.value b' s (Plain.render b' s depthLimit)
    (∀ text, b.nests (depthLimit + 1) text = true → b.Calm text →
      (Refreshes b s name response text ↔
        Plain.fill (fun e => if (b.template? (stripPercent e).1).isSome then before e else after e)
          (Template.pieces text) = Plain.fill after (Template.pieces text)) ∧
      ((∀ e ∈ Template.unresolved text, ∀ template,
          b.template? (stripPercent e).1 = some template →
          b.Everywhere (fun e' => ¬ ComesLate b b' s e') template) →
        Refreshes b s name response text)) ∧
    ((∀ text, b.nests (depthLimit + 1) text = true → b.Calm text →
        Refreshes b s name response text) ↔
      ∀ inner, Template.Readable inner →
        b.nestsBelow depthLimit (Template.expression inner) = true →
        b.CalmAt (Template.expression inner) →
        (b.template? (stripPercent (Template.expression inner)).1).isSome →
        before (Template.expression inner) = after (Template.expression inner)) := by
  intro b' before after
  refine ⟨?_, ?_, ?_⟩
  · intro text hn hcalm
    refine ⟨refreshes_iff_fill_eq hs hnew response hn hcalm, ?_⟩
    intro hlate
    refine refreshes_of_value_eq hs hnew response hn hcalm ?_
    intro inner hmem hsome
    obtain ⟨template, htemplate⟩ := Option.isSome_iff_exists.1 hsome
    have hexpr := Template.mem_unresolved.2 ⟨inner, hmem, rfl⟩
    have hrender : Plain.render b s depthLimit template = Plain.render b' s depthLimit template :=
      render_eq_of_not_comesLate hnew (hlate _ hexpr template htemplate)
    rw [Plain.value_of_template htemplate, value_withResponse_of_template htemplate, hrender]
  · intro h inner hreadable hn hcalm hsome
    obtain ⟨template, htemplate⟩ := Option.isSome_iff_exists.1 hsome
    exact value_eq_of_refreshes hs hnew response hreadable hn hcalm htemplate
      (h _ ((Bindings.nests_write hreadable _).trans hn) (Bindings.calm_write hreadable hcalm))
  · intro h text hn hcalm
    refine refreshes_of_value_eq hs hnew response hn hcalm ?_
    intro inner hmem hsome
    exact h inner (Template.readable_of_mem_pieces hmem)
      (Bindings.nestsBelow_of_nests hn hmem) (Bindings.Everywhere.at hcalm hmem) hsome

/-- A reference that was left in the value of a variable stays there. -/
theorem late_response_missed :
    let b := Bindings.ofVariables [("a", "{{n.response.body.*}}")]
    let response : Response := ⟨200, [], "x", by decide⟩
    Surroundings.Steady .bare ∧ b.responses.get? "n" = none ∧
    b.tame (depthLimit + 1) "{{a}}" = true ∧
    reprocess ⟨b, .empty⟩ .bare "n" response "{{a}}" [] [] = "{{n.response.body.*}}" ∧
    (process ⟨b.withResponse "n" response, .empty⟩ .bare "{{a}}" []).1 = "x" ∧
    ¬ Refreshes b .bare "n" response "{{a}}" := by
  intro b response
  have hsecond : reprocess ⟨b, .empty⟩ .bare "n" response "{{a}}" [] [] =
      "{{n.response.body.*}}" := by decide +kernel
  have hfresh : (process ⟨b.withResponse "n" response, .empty⟩ .bare "{{a}}" []).1 = "x" := by
    decide +kernel
  refine ⟨?_, rfl, by decide +kernel, hsecond, hfresh, ?_⟩
  · intro prompter h
    cases h
  · intro h
    have heq := h [] [] []
    rw [hsecond, hfresh] at heq
    exact absurd heq (by decide)

theorem late_response_refreshes_iff_login :
    let b := Bindings.ofVariables [("a", "{{n.response.body.*}}"), ("c", "1")]
    let response : Response := ⟨200, [], "x", by decide⟩
    Surroundings.Steady .bare ∧ b.responses.get? "n" = none ∧
    Refreshes b .bare "n" response "{{c}} {{n.response.body.*}}" ∧
    ¬ Refreshes b .bare "n" response "{{c}} {{a}}" := by
  intro b response
  have hs : Surroundings.Steady .bare := by
    intro prompter h
    cases h
  have hnew : b.responses.get? "n" = none := rfl
  obtain ⟨htext, -⟩ := late_response_refreshes_iff b hs hnew response
  refine ⟨hs, hnew, ?_, ?_⟩
  · have htame : b.tame (depthLimit + 1) "{{c}} {{n.response.body.*}}" = true := by decide +kernel
    refine ((htext _ (Bindings.nests_of_check htame) (Bindings.calm_of_tame htame)).1).2 ?_
    decide +kernel
  · have htame : b.tame (depthLimit + 1) "{{c}} {{a}}" = true := by decide +kernel
    rw [(htext _ (Bindings.nests_of_check htame) (Bindings.calm_of_tame htame)).1]
    decide +kernel

end Resolver

end Stencil
