import Stencil.Proofs.Resolver.Evaluation

/-!
# The journal grows

Resolving adds to the journal and takes nothing away: what a system function does is put in front
of it (`SystemFunction.call_suffix`), and so is what evaluations do along every derivation. The
questions that were asked before a text is processed are therefore the first ones of all that were
asked in the end (`process_suffix`, `Journal.prompts_prefix`).
-/

namespace Stencil

namespace Journal

theorem suffix_warn (journal : Journal) (texts : List String) : journal <:+ journal.warn texts :=
  List.suffix_append _ _

/-- Questions that were asked before stand in front. -/
theorem prompts_prefix {journal journal' : Journal} (h : journal <:+ journal') :
    journal.prompts <+: journal'.prompts := by
  obtain ⟨later, rfl⟩ := h
  rw [prompts, prompts, List.reverse_append, List.filterMap_append]
  exact List.prefix_append _ _

end Journal

namespace SystemFunction

variable (ctx : SystemContext) (s : Surroundings)

theorem answer_suffix (args : List String) (journal : Journal) :
    journal <:+ (answer s args journal).2 := by
  cases args with
  | nil => exact List.suffix_rfl
  | cons name description =>
      unfold answer
      dsimp only
      split
      · exact List.suffix_rfl
      · dsimp only [Surroundings.ask]
        split
        · exact List.suffix_cons _ _
        · exact List.suffix_cons _ _

theorem apply_suffix (f : SystemFunction) (args : List String) (journal : Journal) :
    journal <:+ (f.apply ctx s args journal).2 := by
  cases f with
  | guid | uuid => exact List.suffix_cons _ _
  | randomInt =>
      unfold apply
      dsimp only
      split
      · exact List.suffix_rfl
      · exact List.suffix_cons _ _
  | dotenv => exact journal.suffix_warn _
  | prompt => exact answer_suffix s args journal
  | timestamp | datetime | localDatetime | processEnv => exact List.suffix_rfl

theorem call_suffix (expression : String) (journal : Journal) :
    journal <:+ (call ctx s expression journal).2 := by
  unfold call
  split
  · exact List.suffix_rfl
  · split
    · unfold applyNamed
      split
      · exact apply_suffix ctx s _ _ journal
      · exact List.suffix_rfl
    · exact List.suffix_rfl

end SystemFunction

namespace Resolver

open Text

variable {b : Bindings} {s : Surroundings}

theorem answer_suffix (b : Bindings) (s : Surroundings) (name : String) (journal : Journal) :
    journal <:+ (answer b s name journal).2 := by
  unfold answer
  split
  · exact List.suffix_rfl
  · split
    · exact SystemFunction.call_suffix b.context s name journal
    · split
      · exact List.suffix_rfl
      · exact List.suffix_rfl

mutual

theorem Resolves.journal_suffix {d : Nat} {e : String} {st st' : State}
    {r : Except LookupError String} {tr : Trace} :
    Resolves b s d e st r st' tr → st.journal <:+ st'.journal
  | .kept _ => List.suffix_rfl
  | .answered _ _ h | .refused _ _ h => by
      have hsuffix := answer_suffix b s (stripPercent e).1 st.journal
      rwa [h] at hsuffix
  | .named _ _ h | .abandoned _ _ h => (st.journal.suffix_warn _).trans h.journal_suffix

theorem Evaluates.journal_suffix {d : Nat} {text : String} {st st' : State}
    {r : Except LookupError String} {tr : Trace} :
    Evaluates b s d text st r st' tr → st.journal <:+ st'.journal
  | .verbatim _ | .tooDeep _ _ => List.suffix_rfl
  | .filled _ _ h => h.journal_suffix

theorem Expands.journal_suffix {d : Nat} {ps : List (Piece (List Char))} {st st' : State}
    {r : Except LookupError (List Char)} {tr : Trace} :
    Expands b s d ps st r st' tr → st.journal <:+ st'.journal
  | .nil => List.suffix_rfl
  | .char h => h.journal_suffix
  | .value h₁ h₂ => h₁.journal_suffix.trans h₂.journal_suffix
  | .left h₁ _ h₂ => h₁.journal_suffix.trans h₂.journal_suffix
  | .aborted h₁ _ _ => h₁.journal_suffix

end

/-- Processing a text adds to the journal. -/
theorem process_suffix (r : Resolver) (s : Surroundings) (text : String) (journal : Journal) :
    journal <:+ (r.process s text journal).2.2 := by
  obtain ⟨_, h⟩ := evaluates_process r s text journal
  exact h.journal_suffix

end Resolver

end Stencil
