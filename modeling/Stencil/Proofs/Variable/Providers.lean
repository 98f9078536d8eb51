import Stencil.FileVariables
import Stencil.Proofs.RequestChain.References
import Stencil.Proofs.Resolver.History
import Stencil.Proofs.Template.Placeholders

/-!
# Providers

A provider gives a variable for a name, and says whether it has the name. For variables of a file
and for environments the two are the same; a captured response that answers a reference is had.
System functions are the exception: a call is read with quotes, but its function is looked for in
the first word between blanks. The two agree on all calls but those that begin with a quote, and
no such call is had although its function may well answer (`providers_have_answers`).
-/

namespace Stencil

open Text

/-! ## Variables of a file and environments -/

theorem FileVariables.exists_get_iff (vars : FileVariables) (name : String) :
    (∃ v, vars.get name = .ok v) ↔ vars.has name := by
  rw [has, get]
  cases vars.get? name <;> simp

theorem EnvironmentScope.exists_get_iff (scope : EnvironmentScope) (name : String) :
    (∃ v, scope.get name = .ok v) ↔ scope.has name := by
  rw [has, get]
  cases scope.lookup? name <;> simp

/-! ## Captured responses -/

/-- A reference that has a value is one to a captured response. -/
theorem RequestChain.exists_of_resolve_eq_ok {chain : RequestChain} {e value : String}
    (h : chain.resolve e = .ok value) : ∃ request part path response,
      parts? e = some (request, "response", part, path) ∧
        chain.get? request = some response := by
  rw [resolve] at h
  split at h
  next => cases h
  next request source part path hparts =>
    by_cases hrequest : source = "request"
    · rw [if_pos hrequest] at h
      cases h
    · rw [if_neg hrequest] at h
      by_cases hsource : source = "response"
      · subst hsource
        rw [if_neg (not_not.2 rfl)] at h
        cases hget : chain.get? request with
        | none =>
            rw [hget] at h
            cases h
        | some response => exact ⟨request, part, path, response, hparts, hget⟩
      · rw [if_pos hsource] at h
        cases h

theorem RequestChain.has_of_get {chain : RequestChain} {e : String} {v : Variable}
    (h : chain.get e = .ok v) : chain.has e = true := by
  cases hvalue : chain.resolve e with
  | error cause =>
      rw [get, hvalue] at h
      cases h
  | ok value =>
      obtain ⟨request, part, path, response, hparts, hget⟩ := exists_of_resolve_eq_ok hvalue
      obtain ⟨he, hrequest, -, -⟩ := (parts?_eq_some_iff ..).1 hparts
      have hreference : isReference e = true := by
        have hoccurs : occurs ".response.".toList e.toList = true := by
          rw [he]
          exact occurs_append ".response.".toList request.toList
            (part.toList ++ '.' :: path.toList)
        rw [isReference, hoccurs, Bool.true_or]
      have hcontains : chain.responses.contains request = true := by
        show (chain.get? request).isSome = true
        rw [hget]
        rfl
      rw [has, hreference, he, cutChar?_append hrequest]
      simpa using hcontains

/-! ## Calls of system functions -/

namespace Arguments

/-- The first character that is no blank is a quote. -/
def BeginsQuoted (e : String) : Prop :=
  ∃ blanks quote rest, e.toList = blanks ++ quote :: rest ∧ (∀ c ∈ blanks, isBlank c) ∧
    isQuote quote

/-- Blanks in front of an argument are skipped. -/
theorem read_trimStart (cs : List Char) : read .between (trimStart cs) = read .between cs := by
  have hblanks : ∀ c ∈ cs.takeWhile isBlank, isBlank c := List.all_eq_true.1 List.all_takeWhile
  have hread := read_blanks hblanks (trimStart cs)
  rw [trimStart_append] at hread
  exact hread.symm

theorem beginsQuoted_iff (e : String) :
    BeginsQuoted e ↔ ∃ quote rest, trimStart e.toList = quote :: rest ∧ isQuote quote := by
  constructor
  · rintro ⟨blanks, quote, rest, he, hblanks, hquote⟩
    refine ⟨quote, rest, ?_, hquote⟩
    rw [he, trimStart, List.dropWhile_append_of_pos hblanks]
    exact trimStart_cons_of_not_blank (isBlank_of_isQuote hquote)
  · rintro ⟨quote, rest, htrim, hquote⟩
    refine ⟨e.toList.takeWhile isBlank, quote, rest, ?_, ?_, hquote⟩
    · rw [← htrim, trimStart_append]
    · exact List.all_eq_true.1 List.all_takeWhile

/-- Where no quote begins the text, the first argument is the first word. -/
theorem head?_split {e : String} (h : ¬ BeginsQuoted e) :
    (split e).head? = (firstWord? e.toList).map String.ofList := by
  rw [split, ← read_trimStart, firstWord?]
  cases htrim : trimStart e.toList with
  | nil => rfl
  | cons c rest =>
      have hblank : isBlank c = false := trimStart_head htrim
      have hquote : ¬ isQuote c := fun hquote =>
        h ((beginsQuoted_iff e).2 ⟨c, rest, htrim, hquote⟩)
      rw [read, if_neg hquote, if_neg (by simp [hblank]), read_bare]
      simp [hblank]

end Arguments

namespace SystemFunction

/-- A call that succeeds is one of a system function. -/
theorem exists_of_call_eq_ok {ctx : SystemContext} {s : Surroundings} {e : String}
    {journal : Journal} {v : Variable} (h : (call ctx s e journal).1 = .ok v) :
    ∃ r, (Arguments.split e).head? = some (String.ofList ('$' :: r)) ∧
      (ofName? (String.ofList r)).isSome := by
  rw [call] at h
  split at h
  next => cases h
  next name args hsplit =>
    split at h
    next r hname =>
      refine ⟨r, ?_, ?_⟩
      · rw [hsplit, ← hname, String.ofList_toList]
        rfl
      · rw [applyNamed] at h
        split at h
        next f hf =>
          rw [hf]
          rfl
        next => cases h
    next => cases h

/-- No call that begins with a quote is had. -/
theorem has_of_beginsQuoted {e : String} (h : Arguments.BeginsQuoted e) : has e = false := by
  obtain ⟨quote, rest, htrim, hquote⟩ := (Arguments.beginsQuoted_iff e).1 h
  have hdollar : quote ≠ '$' := by
    rintro rfl
    cases hquote
  rw [has, firstWord?, htrim]
  simp [Arguments.isBlank_of_isQuote hquote, hdollar]

theorem has_iff_of_call {ctx : SystemContext} {s : Surroundings} {e : String} {journal : Journal}
    {v : Variable} (h : (call ctx s e journal).1 = .ok v) :
    has e = true ↔ ¬ Arguments.BeginsQuoted e := by
  constructor
  · intro hhas hquoted
    rw [has_of_beginsQuoted hquoted] at hhas
    cases hhas
  · intro hunquoted
    obtain ⟨r, hhead, hname⟩ := exists_of_call_eq_ok h
    rw [Arguments.head?_split hunquoted, Option.map_eq_some_iff] at hhead
    obtain ⟨word, hword, htext⟩ := hhead
    rw [has, hword, String.ofList_injective htext]
    exact hname

end SystemFunction

/-! ## All providers -/

/-- What a provider gives it has. For variables of a file and environments the converse holds as
well; for system functions the first holds exactly of calls that do not begin with a quote. -/
theorem providers_have_answers (vars : FileVariables) (scope : EnvironmentScope)
    (chain : RequestChain) (ctx : SystemContext) (s : Surroundings) (journal : Journal)
    (n : String) :
    ((∃ v, vars.get n = .ok v) ↔ vars.has n) ∧
      ((∃ v, scope.get n = .ok v) ↔ scope.has n) ∧
      (∀ v, chain.get n = .ok v → chain.has n) ∧
      ∀ v, (SystemFunction.call ctx s n journal).1 = .ok v →
        (SystemFunction.has n ↔ ¬ Arguments.BeginsQuoted n) := by
  refine ⟨vars.exists_get_iff n, scope.exists_get_iff n, fun v hget => ?_, fun v hcall => ?_⟩
  · exact RequestChain.has_of_get hget
  · exact SystemFunction.has_iff_of_call hcall

/-- A call with blanks in front is had, and so is a reference that is answered. -/
theorem providers_have_answers_call :
    let ctx : SystemContext := ⟨⟨.empty, ""⟩, none⟩
    (∃ v, (SystemFunction.call ctx .bare "  $timestamp" []).1 = .ok v) ∧
      SystemFunction.has "  $timestamp" ∧
      (RequestChain.empty.set "a" ⟨200, [], "x", by decide⟩).has "a.response.body.*" := by
  intro ctx
  have hcall : (SystemFunction.call ctx .bare "  $timestamp" []).1 =
      .ok (SystemFunction.timestamp.toVariable "0") := by decide
  have hunquoted : ¬ Arguments.BeginsQuoted "  $timestamp" := by
    rw [Arguments.beginsQuoted_iff]
    rintro ⟨quote, rest, htrim, hquote⟩
    cases htrim
    cases hquote
  obtain ⟨-, -, -, hsystem⟩ :=
    providers_have_answers .empty ⟨.empty, ""⟩ .empty ctx .bare [] "  $timestamp"
  obtain ⟨-, -, hchain, -⟩ := providers_have_answers .empty ⟨.empty, ""⟩
    (RequestChain.empty.set "a" ⟨200, [], "x", by decide⟩) ctx .bare [] "a.response.body.*"
  refine ⟨⟨_, hcall⟩, (hsystem _ hcall).2 hunquoted, ?_⟩
  exact hchain ⟨"a.response.body.*", "x", .requestChain, none⟩ (by decide)

/-- The time is given to a call in quotes, which is not had. -/
theorem providers_miss_quoted_call :
    ¬ ∀ (ctx : SystemContext) s e journal v, (SystemFunction.call ctx s e journal).1 = .ok v →
      SystemFunction.has e := by
  intro h
  have hcall : (SystemFunction.call ⟨⟨.empty, ""⟩, none⟩ .bare "'$timestamp'" []).1 =
      .ok (SystemFunction.timestamp.toVariable "0") := by decide
  exact absurd (h _ _ _ _ _ hcall) (by decide)

end Stencil
