import Stencil.Proofs.Resolver.Evaluation

/-!
# Histories of a resolver

What is done with a resolver, one operation after the other, each in surroundings of its own.
`runAll_reads` is the induction over histories that only read what names stand for: what holds of
the empty cache and is kept by the evaluation of one text or one expression holds of the cache
after all of them.
-/

namespace Stencil

/-- A machine without files or process variables, on which nobody can be asked. -/
def Surroundings.bare : Surroundings where
  now := ⟨0, 0⟩
  zone := 0
  process := fun _ => none
  files := ⟨.empty, []⟩
  directory := ""
  prompter := none
  random := fun _ => 0

namespace Resolver

/-- Variables of the file and nothing else. -/
def Bindings.ofVariables (values : List (String × String)) : Bindings where
  scope := ⟨.empty, ""⟩
  baseDirectory := none
  declared := ⟨.ofList values⟩
  responses := .empty

/-- What is done with a resolver. Several variables are set one after the other. -/
inductive Operation where
  | process (s : Surroundings) (text : String)
  | resolve (s : Surroundings) (expression : String)
  | declare (name value : String)
  | setVariable (name value : String)
  | setResponse (name : String) (response : Response)
  | clearCache

namespace Operation

/-- Does an operation; the journal goes from one to the next. -/
def run : Operation → Resolver × Journal → Resolver × Journal
  | .process s text, (r, journal) => (r.process s text journal).2
  | .resolve s expression, (r, journal) => (r.resolveExpression s expression journal).2
  | .declare name value, (r, journal) => (r.declare name value, journal)
  | .setVariable name value, (r, journal) => (r.setVariable name value, journal)
  | .setResponse name response, (r, journal) => (r.setResponse name response, journal)
  | .clearCache, (r, journal) => (r.clearCache, journal)

/-- An operation that leaves what names stand for as it is, in surroundings that are allowed. -/
def Reads (allowed : Surroundings → Prop) : Operation → Prop
  | .process s _ => allowed s
  | .resolve s _ => allowed s
  | .clearCache => True
  | _ => False

theorem Reads.bindings_run {allowed : Surroundings → Prop} {op : Operation}
    (h : op.Reads allowed) (p : Resolver × Journal) : (op.run p).1.bindings = p.1.bindings := by
  cases op with
  | process s text => rfl
  | resolve s expression => rfl
  | clearCache => rfl
  | declare name value => exact h.elim
  | setVariable name value => exact h.elim
  | setResponse name response => exact h.elim

end Operation

/-- Does operations one after the other. -/
def runAll (ops : List Operation) (start : Resolver × Journal) : Resolver × Journal :=
  ops.foldl (fun p op => op.run p) start

/-- What holds at the start and is kept by every operation holds at the end. -/
theorem runAll_invariant {P : Resolver × Journal → Prop} {ops : List Operation}
    (hstep : ∀ op ∈ ops, ∀ p, P p → P (op.run p)) {start : Resolver × Journal}
    (h : P start) : P (runAll ops start) := by
  induction ops generalizing start with
  | nil => exact h
  | cons op ops ih =>
      have hop : P (op.run start) := hstep op List.mem_cons_self start h
      exact ih (fun op' hmem => hstep op' (List.mem_cons_of_mem _ hmem)) hop

/-- A property of caches that evaluation keeps, over all histories that only read. -/
theorem runAll_reads {b : Bindings} {allowed : Surroundings → Prop} {P : Dict String → Prop}
    (hempty : P .empty)
    (hresolve : ∀ {s e st r st' tr}, allowed s → Resolves b s 0 e st r st' tr →
      P st.cache → P st'.cache)
    (hevaluate : ∀ {s text st r st' tr}, allowed s → Evaluates b s 0 text st r st' tr →
      P st.cache → P st'.cache)
    {ops : List Operation} (hops : ∀ op ∈ ops, op.Reads allowed) (journal : Journal) :
    (runAll ops (⟨b, .empty⟩, journal)).1.bindings = b ∧
      P (runAll ops (⟨b, .empty⟩, journal)).1.cache := by
  refine runAll_invariant (P := fun p => p.1.bindings = b ∧ P p.1.cache) ?_ ⟨rfl, hempty⟩
  rintro op hmem ⟨r, journal⟩ ⟨hb, hP⟩
  have hreads := hops op hmem
  refine ⟨(hreads.bindings_run _).trans hb, ?_⟩
  subst hb
  cases op with
  | process s text =>
      obtain ⟨tr, htr⟩ := evaluates_process r s text journal
      exact hevaluate hreads htr hP
  | resolve s expression =>
      obtain ⟨tr, htr⟩ := resolves_resolveExpression r s expression journal
      exact hresolve hreads htr hP
  | clearCache => exact hempty
  | declare name value => exact hreads.elim
  | setVariable name value => exact hreads.elim
  | setResponse name response => exact hreads.elim

end Resolver

end Stencil
