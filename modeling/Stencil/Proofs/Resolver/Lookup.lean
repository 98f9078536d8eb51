import Stencil.Resolver

/-!
# What expressions name

An expression without its percent sign names a variable of the file or of the environments, whose
value is a template (`Bindings.template?`), or it is a leaf with an answer of its own
(`answer`). The main statements are that a lookup evaluates the template or gives the answer, and
does nothing else (`lookup_of_template`, `lookup_of_leaf`), and that no answer blames the depth
of nesting (`answer_shallow`).
-/

namespace Stencil

/-! ## Errors of depth -/

/-- Whether an error says that values nest too deep. -/
def LookupError.tooDeep : LookupError → Bool
  | .recursionLimit _ => true
  | _ => false

theorem LookupError.tooDeep_iff {e : LookupError} :
    e.tooDeep = true ↔ ∃ text, e = .recursionLimit text := by
  cases e <;> simp [tooDeep]

/-- If a result is an error, it does not say that values nest too deep. -/
def Shallow {α : Type} (r : Except LookupError α) : Prop :=
  ∀ e, r = .error e → e.tooDeep = false

namespace Shallow

variable {α β : Type}

theorem ok (a : α) : Shallow (.ok a) := by
  intro e h
  cases h

theorem error {e : LookupError} (h : e.tooDeep = false) : Shallow (.error e : Except _ α) := by
  intro e' h'
  cases h'
  exact h

theorem map {r : Except LookupError α} (h : Shallow r) (f : α → β) : Shallow (r.map f) := by
  cases r with
  | ok a => exact ok (f a)
  | error e => exact error (h e rfl)

theorem bind {r : Except LookupError α} (h : Shallow r) {f : α → Except LookupError β}
    (hf : ∀ a, Shallow (f a)) : Shallow (r >>= f) := by
  cases r with
  | ok a => exact hf a
  | error e => exact error (h e rfl)

/-- Wrapping a cause of another kind does not speak of depth. -/
theorem mapError {ε : Type} (r : Except ε α) {f : ε → LookupError}
    (hf : ∀ e, (f e).tooDeep = false) : Shallow (r.mapError f) := by
  cases r with
  | ok a => exact ok a
  | error e => exact error (hf e)

end Shallow

/-! ## System functions -/

namespace SystemFunction

variable (ctx : SystemContext) (s : Surroundings)

theorem shiftedIfAny_shallow (zone : Int) (t : Instant) (args : List String) :
    Shallow (shiftedIfAny zone t args) := by
  unfold shiftedIfAny
  split
  · exact .ok t
  · exact .mapError _ fun _ => rfl

theorem timestampText_shallow (args : List String) : Shallow (timestampText s args) :=
  .bind (shiftedIfAny_shallow 0 s.now args) fun _ => .ok _

theorem datetimeText_shallow (zone : Int) (universal : Bool) (args : List String) :
    Shallow (datetimeText s zone universal args) := by
  cases args with
  | nil => exact .error rfl
  | cons form offset => exact .bind (shiftedIfAny_shallow zone s.now offset) fun _ => .ok _

theorem processName_shallow (requested : String) : Shallow (processName ctx requested) := by
  unfold processName
  split
  · split
    · exact .ok _
    · exact .error rfl
  · exact .ok _

theorem processText_shallow (args : List String) : Shallow (processText ctx s args) := by
  cases args with
  | nil => exact .error rfl
  | cons requested rest =>
      refine .bind (processName_shallow ctx requested) fun name => ?_
      split
      · exact .ok _
      · exact .error rfl

theorem settingText_shallow (args : List String) : Shallow (settingText ctx s args).1 := by
  cases args with
  | nil => exact .error rfl
  | cons key rest =>
      unfold settingText
      dsimp only
      split
      · exact .error rfl
      · split
        · exact .error rfl
        · dsimp only
          split
          · exact .ok _
          · exact .error rfl

theorem answer_shallow (args : List String) (journal : Journal) :
    Shallow (answer s args journal).1 := by
  cases args with
  | nil => exact .error rfl
  | cons name description =>
      unfold answer
      dsimp only
      split
      · exact .error rfl
      · dsimp only [Surroundings.ask]
        split
        · exact .ok _
        · exact .error rfl

theorem apply_shallow (f : SystemFunction) (args : List String) (journal : Journal) :
    Shallow (f.apply ctx s args journal).1 := by
  cases f with
  | guid => exact .ok _
  | uuid => exact .ok _
  | timestamp => exact (timestampText_shallow s args).map _
  | datetime => exact (datetimeText_shallow s 0 true args).map _
  | localDatetime => exact (datetimeText_shallow s s.zone false args).map _
  | randomInt =>
      unfold apply
      dsimp only
      split
      · exact .error rfl
      · exact .ok _
  | processEnv => exact (processText_shallow ctx s args).map _
  | dotenv => exact (settingText_shallow ctx s args).map _
  | prompt => exact answer_shallow s args journal

/-- The error of a call never says that values nest too deep. -/
theorem call_shallow (expression : String) (journal : Journal) :
    Shallow (call ctx s expression journal).1 := by
  unfold call
  split
  · exact .error rfl
  · split
    · unfold applyNamed
      split
      · exact apply_shallow ctx s _ _ journal
      · exact .error rfl
    · exact .error rfl

end SystemFunction

/-! ## References to requests -/

namespace RequestChain

theorem bodyValue_shallow (response : Response) (path : String) :
    Shallow (bodyValue response path) := by
  unfold bodyValue
  split
  · exact .ok _
  · split
    · exact .mapError _ fun _ => rfl
    · exact .error rfl

theorem headerValue_shallow (response : Response) (name : String) :
    Shallow (headerValue response name) := by
  unfold headerValue
  split
  · exact .ok _
  · exact .error rfl

/-- The error of a reference never says that values nest too deep. -/
theorem resolve_shallow (chain : RequestChain) (expression : String) :
    Shallow (chain.resolve expression) := by
  unfold resolve
  split
  · exact .error rfl
  · split
    · exact .error rfl
    · split
      · exact .error rfl
      · split
        · exact .error rfl
        · split
          · exact bodyValue_shallow _ _
          · split
            · exact headerValue_shallow _ _
            · exact .error rfl

end RequestChain

/-! ## Variables and leaves -/

namespace Resolver

/-- The template that a name stands for: a variable of the file, or else one of the environments.
System functions and references to requests are no names. -/
def Bindings.template? (b : Bindings) (name : String) : Option String :=
  if name = "" ∨ name.toList.head? = some '$' ∨ RequestChain.isReference name then none
  else (b.declared.get? name).or (b.scope.lookup? name)

/-- The warnings that go with the use of a variable. -/
def Bindings.remarks (b : Bindings) (name : String) : List String :=
  match b.declared.get? name, b.scope.get name with
  | none, .ok v => warnings name v
  | _, _ => []

/-- The answer of an expression that names no variable, and the journal after it. -/
def answer (b : Bindings) (s : Surroundings) (name : String) (journal : Journal) :
    Except LookupError String × Journal :=
  if name = "" then (.error (.invalidSyntax .emptyExpression), journal)
  else if name.toList.head? = some '$' then
    let (result, journal) := SystemFunction.call b.context s name journal
    (result.map Variable.value, journal)
  else if RequestChain.isReference name then (b.responses.resolve name, journal)
  else (.error (.undefined name), journal)

variable {b : Bindings} {s : Surroundings} {evaluate : String → Step String} {name : String}

/-- The lookup of a variable evaluates its template. -/
theorem lookup_of_template {value : String} (h : b.template? name = some value) (st : State) :
    lookup b s evaluate name st =
      evaluate value { st with journal := st.journal.warn (b.remarks name) } := by
  unfold Bindings.template? at h
  split at h
  · cases h
  next hname =>
    simp only [not_or] at hname
    obtain ⟨h1, h2, h3⟩ := hname
    simp only [lookup, h1, h2, h3, if_false, Bool.false_eq_true]
    cases hd : b.declared.get? name with
    | some v =>
        obtain rfl : v = value := by simpa [hd] using h
        simp [Bindings.remarks, hd, Journal.warn]
    | none =>
        have hv : b.scope.lookup? name = some value := by simpa [hd] using h
        simp [Bindings.remarks, hd, EnvironmentScope.get, hv]

/-- The lookup of a leaf gives its answer. -/
theorem lookup_of_leaf (h : b.template? name = none) (st : State) :
    lookup b s evaluate name st =
      ((answer b s name st.journal).1,
        { st with journal := (answer b s name st.journal).2 }) := by
  unfold lookup answer
  by_cases h1 : name = ""
  · simp [h1]
  · by_cases h2 : name.toList.head? = some '$'
    · simp [h1, h2, callSystem]
    · by_cases h3 : RequestChain.isReference name
      · simp [h1, h2, h3]
      · simp only [Bindings.template?, h1, h2, h3, or_self, if_false, Bool.false_eq_true,
          Option.or_eq_none_iff] at h
        simp [h1, h2, h3, h.1, h.2, EnvironmentScope.get]

/-- The answer of a leaf never says that values nest too deep. -/
theorem answer_shallow (b : Bindings) (s : Surroundings) (name : String) (journal : Journal) :
    Shallow (answer b s name journal).1 := by
  unfold answer
  split
  · exact .error rfl
  · split
    · exact (SystemFunction.call_shallow b.context s name journal).map _
    · split
      · exact RequestChain.resolve_shallow b.responses name
      · exact .error rfl

end Resolver

end Stencil
