import Stencil.CommandLine.Run
import Stencil.Proofs.Except
import Stencil.Proofs.Resolver.History
import Stencil.Proofs.Resolver.Journal
import Stencil.Proofs.Session.RoundTrip
import Stencil.Proofs.UserInput.Remembering

/-!
# The session file of a run

A run reads the request, selects an environment, opens the session, asks, and saves; only then does
it resolve placeholders, which may still fail. What fails before the user is asked leaves
everything as it was (`Stops.run_eq`). Without user inputs the session is not looked at
(`run_of_unmarked`). What filling in the inputs can come to is said once (`Fills`): the session is
saved before anything else can fail, and what was saved is what is opened the next time, the entries
that were there and the answers of the user (`Opens.adds`). The main statement is
`session_gains_answers`.
-/

namespace Stencil.CommandLine

open UserInput

/-! ## The course of a run -/

/-- The table of a run. -/
def tableOf (o : Options) (s : Surroundings) : EnvironmentTable :=
  (loadTable s.files (baseDirectory o.file)).1

/-- The journal of a run before the user is asked. -/
def opening (o : Options) (s : Surroundings) : Journal :=
  Journal.warn [] (loadTable s.files (baseDirectory o.file)).2

/-- Why a run ends before the user is asked. -/
inductive Stops (o : Options) (s : Surroundings) : Failure → Prop
  | request {cause : FileSystem.Error} : s.files.readText o.file = .error cause →
      Stops o s (.unreadable o.file cause)
  | environment {content name : String} : s.files.readText o.file = .ok content →
      o.environment? = some name → (tableOf o s).has name = false →
      Stops o s (.unknownEnvironment name (tableOf o s).names)
  | session {content environment path : String} {cause : Session.Error} :
      s.files.readText o.file = .ok content →
      selectEnvironment (tableOf o s) o.environment? = .ok environment →
      UserInput.has content = true → o.session? = some path →
      Session.load s.files path = .error cause → Stops o s (.session cause)

/-- A run that has user inputs to collect and has opened its session. -/
structure Opens (o : Options) (s : Surroundings) (content path : String) (session : Session) :
    Prop where
  read : s.files.readText o.file = .ok content
  selected : ∃ environment, selectEnvironment (tableOf o s) o.environment? = .ok environment
  marked : UserInput.has content = true
  named : o.session? = some path
  loaded : Session.load s.files path = .ok session

/-- Whatever is written to the session file, writing succeeds. -/
def Writable (o : Options) (s : Surroundings) : Prop :=
  ∀ path, o.session? = some path → ∀ content, ∃ files, s.files.provide path content = .ok files

/-- A result that is not known before the session is saved. -/
def PastSaving (o : Options) (result : Except Failure String) : Prop :=
  (∃ text, result = .ok text) ∨ o.strict = true ∧ ∃ left, result = .error (.unresolved left)

/-- The user has answered one of the questions, which asked for a name that is not secret. -/
def Answered (prompter : Option Prompter) (asked : List Prompt) (name text : String) : Prop :=
  ∃ ask i q, prompter = some ask ∧ asked[i]? = some q ∧ ask i q = .ok text ∧ q.name = name ∧
    q.password = false

/-- The endpoint whose inputs a run remembers. -/
def endpointOf (o : Options) (s : Surroundings) : String :=
  Endpoint.of (o.url?.getD "") s.toAscii?

/-- What a run leaves in the session file when the user was asked some questions. -/
structure Adds (o : Options) (s : Surroundings) (content path : String) (session : Session)
    (asked : List Prompt) : Prop where
  /-- These are the first questions of the run. -/
  first : asked <+: (run o s).journal.prompts
  /-- They ask once for each name that is secret or not in the session, in their order, -/
  wanted : asked.map (·.name) =
    if s.prompter.isSome then
      (names content).filter fun name => isSecret (marks content) name ||
        (session.get? (endpointOf o s) name).isNone
    else []
  /-- and hide what is secret. -/
  hidden : ∀ q ∈ asked, q.password = isSecret (marks content) q.name
  /-- The session file holds what it held before and the answers. -/
  reopened : ∃ reopened, Session.load (run o s).files path = .ok reopened ∧
    ∀ endpoint name text, reopened.get? endpoint name = some text ↔
      session.get? endpoint name = some text ∨
        endpoint = endpointOf o s ∧ Answered s.prompter asked name text

variable {o : Options} {s : Surroundings} {content environment path filled : String}
  {session : Session} {files : FileSystem} {journal : Journal} {failure : Failure}

theorem prompts_opening (o : Options) (s : Surroundings) : (opening o s).prompts = [] :=
  Journal.prompts_warn [] _

/-- The steps of a run once it has read the request. -/
theorem run_of_read (hread : s.files.readText o.file = .ok content) :
    run o s =
      match selectEnvironment (tableOf o s) o.environment? with
      | .error e => ⟨.error e, s.files, opening o s⟩
      | .ok environment =>
        match fillInputs o s content (opening o s) with
        | (.error e, journal) => ⟨.error e, s.files, journal⟩
        | (.ok (content, files), journal) =>
          let resolved := CommandLine.resolve o { s with files }
            (resolver o (tableOf o s) environment) content journal
          ⟨resolved.1, files, resolved.2⟩ := by
  unfold run
  rw [hread]
  rfl

/-- Resolving fails only in a strict run, and adds to the journal. -/
theorem resolve_cases (o : Options) (s : Surroundings) (r : Resolver) (content : String)
    (journal : Journal) :
    PastSaving o (CommandLine.resolve o s r content journal).1 ∧
      journal <:+ (CommandLine.resolve o s r content journal).2 := by
  have hsuffix := Resolver.process_suffix r s content journal
  unfold CommandLine.resolve
  dsimp only
  split
  next hstrict => exact ⟨.inr ⟨hstrict.1, _, rfl⟩, hsuffix⟩
  next => exact ⟨.inl ⟨_, rfl⟩, hsuffix.trans (Journal.suffix_warn _ _)⟩

/-- Once the inputs are filled in, the run is past saving. -/
theorem run_of_filled (hread : s.files.readText o.file = .ok content)
    (hselect : selectEnvironment (tableOf o s) o.environment? = .ok environment)
    (hfill : fillInputs o s content (opening o s) = (.ok (filled, files), journal)) :
    PastSaving o (run o s).result ∧ (run o s).files = files ∧
      journal <:+ (run o s).journal := by
  rw [run_of_read hread, hselect]
  dsimp only
  rw [hfill]
  obtain ⟨hpast, hsuffix⟩ := resolve_cases o { s with files }
    (resolver o (tableOf o s) environment) filled journal
  exact ⟨hpast, rfl, hsuffix⟩

/-! ## Filling in the inputs -/

/-- The call that collects the inputs of a run. -/
def callOf (o : Options) (s : Surroundings) (content : String) : Collection.Call :=
  ⟨content, o.url?.getD "", s.prompter, s.toAscii?⟩

/-- What is collected for a session. -/
def collected (o : Options) (s : Surroundings) (content : String) (session : Session)
    (journal : Journal) : Collection :=
  (callOf o s content).run ⟨session, journal⟩

/-- What filling in the inputs of a content can come to. -/
inductive Fills (o : Options) (s : Surroundings) (content : String) (journal : Journal) :
    Except Failure (String × FileSystem) × Journal → Prop
  | unmarked : UserInput.has content = false →
      Fills o s content journal (.ok (content, s.files), journal)
  | unopened {path : String} {cause : Session.Error} : UserInput.has content = true →
      o.session? = some path → Session.load s.files path = .error cause →
      Fills o s content journal (.error (.session cause), journal)
  | unsaved {path : String} {session : Session} {cause : FileSystem.Error} :
      UserInput.has content = true → o.session? = some path →
      Session.load s.files path = .ok session →
      s.files.provide path (Session.render
        (collected o s content session journal).session.entries).toUTF8 = .error cause →
      Fills o s content journal
        (.error (.session (.file cause)), (collected o s content session journal).journal)
  | saved {path : String} {session : Session} {files : FileSystem} :
      UserInput.has content = true → o.session? = some path →
      Session.load s.files path = .ok session →
      s.files.provide path (Session.render
        (collected o s content session journal).session.entries).toUTF8 = .ok files →
      Fills o s content journal
        (.ok (fillRequest content (collected o s content session journal).values, files),
          (collected o s content session journal).journal)
  /-- A session without a file is not kept. -/
  | forgotten : UserInput.has content = true → o.session? = none →
      Fills o s content journal
        (.ok (fillRequest content (collected o s content .empty journal).values, s.files),
          (collected o s content .empty journal).journal)

/-- Saving a session writes to its file, if it has one. -/
theorem saveSession_eq (session : Session) (fs : FileSystem) :
    saveSession session fs =
      match session.path? with
      | none => .ok fs
      | some path => (fs.provide path (Session.render session.entries).toUTF8).mapError fun cause =>
          .session (.file cause) := by
  unfold saveSession Session.save
  cases session.path? with
  | none => rfl
  | some path =>
      show ((fs.provide path _).mapError Session.Error.file).mapError Failure.session =
        (fs.provide path _).mapError _
      cases fs.provide path (Session.render session.entries).toUTF8 <;> rfl

/-- Collecting keeps the file of the session. -/
theorem path?_collected (session : Session) (journal : Journal) :
    (collected o s content session journal).session.path? = session.path? :=
  ((callOf o s content).collects ⟨session, journal⟩).path

theorem fills (o : Options) (s : Surroundings) (content : String) (journal : Journal) :
    Fills o s content journal (fillInputs o s content journal) := by
  have hcollect : ∀ session, Collection.collect content (o.url?.getD "") s.prompter session
      journal s.toAscii? = collected o s content session journal := fun _ => rfl
  unfold fillInputs
  simp only [hcollect, saveSession_eq, path?_collected]
  cases hmarked : UserInput.has content with
  | false => exact .unmarked hmarked
  | true =>
      cases hsession : o.session? with
      | none => exact .forgotten hmarked hsession
      | some path =>
          rw [openSession]
          cases hload : Session.load s.files path with
          | error cause => exact .unopened hmarked hsession hload
          | ok session =>
              simp only [Except.mapError, Session.path?_of_load hload]
              cases hprovide : s.files.provide path (Session.render
                  (collected o s content session journal).session.entries).toUTF8 with
              | error cause => exact .unsaved hmarked hsession hload hprovide
              | ok files => exact .saved hmarked hsession hload hprovide

/-! ## Runs that stop -/

theorem Stops.run_eq (h : Stops o s failure) :
    (run o s).result = .error failure ∧ (run o s).files = s.files ∧
      (run o s).journal.prompts = [] := by
  cases h with
  | request hread =>
      unfold run
      rw [hread]
      exact ⟨rfl, rfl, rfl⟩
  | @environment content name hread hname hmissing =>
      have hselect : selectEnvironment (tableOf o s) o.environment? =
          .error (.unknownEnvironment name (tableOf o s).names) := by
        rw [hname, selectEnvironment, if_neg (Bool.eq_false_iff.1 hmissing)]
      rw [run_of_read hread, hselect]
      exact ⟨rfl, rfl, prompts_opening o s⟩
  | @session content environment path cause hread hselect hmarked hnamed hload =>
      have hopen : openSession s.files o.session? = .error (.session cause) := by
        rw [hnamed, openSession, hload]
        rfl
      rw [run_of_read hread, hselect, fillInputs, hmarked, hopen]
      exact ⟨rfl, rfl, prompts_opening o s⟩

/-! ## Runs without user inputs -/

theorem fillInputs_of_unmarked (h : UserInput.has content = false) (journal : Journal) :
    fillInputs o s content journal = (.ok (content, s.files), journal) := by
  rw [fillInputs, h]
  rfl

/-- The session of a run without user inputs does not matter. -/
theorem run_of_unmarked (hread : s.files.readText o.file = .ok content)
    (h : UserInput.has content = false) (session? : Option String) :
    (run o s).files = s.files ∧ run { o with session? } s = run o s := by
  have hread' : s.files.readText { o with session? }.file = .ok content := hread
  rw [run_of_read hread, run_of_read hread']
  simp only [fillInputs_of_unmarked h]
  refine ⟨?_, rfl⟩
  cases selectEnvironment (tableOf o s) o.environment? <;> rfl

/-! ## Runs that collect -/

/-- The questions of a run with the replies of the user. -/
def repliesOf (o : Options) (s : Surroundings) (content : String) (session : Session) :
    List (Prompt × Except String String) :=
  (callOf o s content).replies ⟨session, opening o s⟩

/-- Nothing was asked before, so a reply is the one to the question with its number. -/
theorem mem_repliesOf_iff {q : Prompt} {reply : Except String String} :
    (q, reply) ∈ repliesOf o s content session ↔
      ∃ ask i, s.prompter = some ask ∧
        ((repliesOf o s content session).map (·.1))[i]? = some q ∧ ask i q = reply := by
  cases hprompter : s.prompter with
  | none =>
      have hnil : repliesOf o s content session = [] := by
        unfold repliesOf callOf
        rw [hprompter]
        rfl
      simp [hnil]
  | some ask =>
      have hasked : (opening o s).asked = 0 := Journal.asked_warn [] _
      have hreplies : repliesOf o s content session = (((repliesOf o s content session).map
          (·.1)).zipIdx (opening o s).asked).map fun e => (e.1, ask e.2 e.1) :=
        Collection.Call.replies_eq hprompter
      rw [hasked] at hreplies
      generalize (repliesOf o s content session).map (·.1) = asked at hreplies
      rw [hreplies]
      simp only [List.mem_map, Prod.exists, List.mem_zipIdx_iff_getElem?, Prod.mk.injEq,
        Option.some.injEq]
      constructor
      · rintro ⟨q', i, hi, rfl, rfl⟩
        exact ⟨ask, i, rfl, hi, rfl⟩
      · rintro ⟨_, i, rfl, hi, rfl⟩
        exact ⟨q, i, hi, rfl, rfl⟩

/-- What is stored are the answers. -/
theorem stored_iff_answered {name text : String} :
    Collection.Stored (repliesOf o s content session) name (.text text) ↔
      Answered s.prompter ((repliesOf o s content session).map (·.1)) name text := by
  constructor
  · rintro ⟨q, v, hq, hname, hplain, hv⟩
    obtain ⟨ask, i, hask, hi, hreply⟩ := mem_repliesOf_iff.1 hq
    cases hv
    exact ⟨ask, i, q, hask, hi, hreply, hname, hplain⟩
  · rintro ⟨ask, i, q, hask, hi, hreply, hname, hplain⟩
    exact ⟨q, text, mem_repliesOf_iff.2 ⟨ask, i, hask, hi, hreply⟩, hname, hplain, rfl⟩

/-- The texts of a session after the inputs were collected. -/
theorem get?_collected_iff {endpoint name text : String} :
    (collected o s content session (opening o s)).session.get? endpoint name = some text ↔
      session.get? endpoint name = some text ∨ endpoint = endpointOf o s ∧
        Answered s.prompter ((repliesOf o s content session).map (·.1)) name text := by
  have hentries := ((callOf o s content).collects ⟨session, opening o s⟩).entries endpoint name
  rw [← stored_iff_answered]
  constructor
  · intro h
    obtain ⟨value, hvalue, rfl⟩ := Option.map_eq_some_iff.1 h
    rcases (hentries value).1 hvalue with hold | ⟨hendpoint, hstored⟩
    · exact .inl (Option.map_eq_some_iff.2 ⟨value, hold, rfl⟩)
    · obtain ⟨q, v, hq, hname, hplain, rfl⟩ := hstored
      exact .inr ⟨hendpoint, q, v, hq, hname, hplain, rfl⟩
  · rintro (h | ⟨hendpoint, hstored⟩)
    · obtain ⟨value, hold, rfl⟩ := Option.map_eq_some_iff.1 h
      exact Option.map_eq_some_iff.2 ⟨value, (hentries value).2 (.inl hold), rfl⟩
    · exact Option.map_eq_some_iff.2 ⟨.text text, (hentries _).2 (.inr ⟨hendpoint, hstored⟩), rfl⟩

/-- The answers are texts, which the file holds as they are. -/
theorem storable_collected (hstorable : session.Storable) :
    (collected o s content session (opening o s)).session.Storable := by
  intro endpoint name value hvalue
  rcases (((callOf o s content).collects ⟨session, opening o s⟩).entries endpoint name value).1
    hvalue with hold | ⟨-, _, _, -, -, -, rfl⟩
  · exact hstorable endpoint name value hold
  · trivial

/-- A session that was opened is saved with what was collected, and can be opened again. -/
theorem Opens.saved (h : Opens o s content path session) (hstorable : session.Storable)
    (hwritable : Writable o s) :
    ∃ filled files, fillInputs o s content (opening o s) =
        (.ok (filled, files), (collected o s content session (opening o s)).journal) ∧
      Session.load files path = .ok (collected o s content session (opening o s)).session := by
  have hnamed {path' : String} (hpath : o.session? = some path') : path' = path :=
    Option.some.inj (hpath.symm.trans h.named)
  generalize hfill : fillInputs o s content (opening o s) = filling
  have hcases := fills o s content (opening o s)
  rw [hfill] at hcases
  cases hcases with
  | unmarked hunmarked => cases hunmarked.symm.trans h.marked
  | unopened _ hpath hload =>
      cases hnamed hpath
      cases hload.symm.trans h.loaded
  | unsaved _ hpath hload hprovide =>
      obtain ⟨files, hfiles⟩ := hwritable _ hpath _
      cases hprovide.symm.trans hfiles
  | @saved _ opened files _ hpath hload hprovide =>
      cases hnamed hpath
      cases hload.symm.trans h.loaded
      have hagain := Session.load_of_provide (storable_collected hstorable) hprovide
      rw [← Session.path?_of_load h.loaded, ← path?_collected] at hagain
      exact ⟨_, files, rfl, hagain⟩
  | forgotten _ hpath => cases hpath.symm.trans h.named

/-- A run that has opened its session leaves it with the answers, whatever comes of it then. -/
theorem Opens.adds (h : Opens o s content path session) (hstorable : session.Storable)
    (hwritable : Writable o s) :
    PastSaving o (run o s).result ∧
      Adds o s content path session ((repliesOf o s content session).map (·.1)) := by
  obtain ⟨environment, hselect⟩ := h.selected
  obtain ⟨filled, files, hfill, hload⟩ := h.saved hstorable hwritable
  obtain ⟨hpast, hfiles, hsuffix⟩ := run_of_filled h.read hselect hfill
  have hcollects := (callOf o s content).collects ⟨session, opening o s⟩
  have hprompts : (collected o s content session (opening o s)).journal.prompts =
      (repliesOf o s content session).map (·.1) := by
    have hall := hcollects.prompts
    rwa [prompts_opening, List.nil_append] at hall
  refine ⟨hpast, { first := ?_, wanted := ?_, hidden := ?_, reopened := ?_ }⟩
  · rw [← hprompts]
    exact Journal.prompts_prefix hsuffix
  · rw [List.map_map]
    exact hcollects.asks
  · rintro q hq
    obtain ⟨r, hr, rfl⟩ := List.mem_map.1 hq
    exact hcollects.hides r hr
  · exact ⟨_, hfiles ▸ hload, fun endpoint name text => get?_collected_iff⟩

/-! ## All runs -/

/-- Filling in the inputs changes nothing but the session file. -/
theorem files_of_fillInputs {before : Journal}
    (h : fillInputs o s content before = (.ok (filled, files), journal)) :
    files = s.files ∨ ∃ path written, o.session? = some path ∧
      s.files.provide path written = .ok files := by
  have hcases := fills o s content before
  rw [h] at hcases
  cases hcases with
  | unmarked => exact .inl rfl
  | saved _ hpath _ hprovide => exact .inr ⟨_, _, hpath, hprovide⟩
  | forgotten => exact .inl rfl

/-- A run changes nothing but its session file. -/
theorem files_run (o : Options) (s : Surroundings) :
    (run o s).files = s.files ∨ ∃ path written, o.session? = some path ∧
      s.files.provide path written = .ok (run o s).files := by
  cases hread : s.files.readText o.file with
  | error cause =>
      unfold run
      rw [hread]
      exact .inl rfl
  | ok content =>
      rw [run_of_read hread]
      cases selectEnvironment (tableOf o s) o.environment? with
      | error e => exact .inl rfl
      | ok environment =>
          dsimp only
          rcases hfill : fillInputs o s content (opening o s) with ⟨_ | ⟨filled, files⟩, journal⟩
          · exact .inl rfl
          · exact files_of_fillInputs hfill

/-- Where the session file can be written, filling in the inputs fails only with its opening. -/
theorem load_of_fillInputs {before : Journal} (hwritable : Writable o s)
    (h : fillInputs o s content before = (.error failure, journal)) :
    UserInput.has content = true ∧ ∃ path cause, o.session? = some path ∧
      Session.load s.files path = .error cause ∧ failure = .session cause := by
  have hcases := fills o s content before
  rw [h] at hcases
  cases hcases with
  | unopened hmarked hpath hload => exact ⟨hmarked, _, _, hpath, hload, rfl⟩
  | unsaved _ hpath _ hprovide =>
      obtain ⟨files, hfiles⟩ := hwritable _ hpath _
      cases hprovide.symm.trans hfiles

/-- An environment cannot be selected if it is asked for and unknown. -/
theorem unknown_of_selectEnvironment {table : EnvironmentTable} {requested : Option String}
    (h : selectEnvironment table requested = .error failure) :
    ∃ name, requested = some name ∧ table.has name = false ∧
      failure = .unknownEnvironment name table.names := by
  cases requested with
  | none => cases h
  | some name =>
      rw [selectEnvironment] at h
      split at h
      next => cases h
      next hmissing =>
        cases h
        exact ⟨name, rfl, Bool.eq_false_iff.2 hmissing, rfl⟩

/-- Why a run fails where the session file can be written. -/
theorem failure_cases (hwritable : Writable o s) (h : (run o s).result = .error failure) :
    Stops o s failure ∨ o.strict = true ∧ ∃ left, failure = .unresolved left := by
  cases hread : s.files.readText o.file with
  | error cause =>
      unfold run at h
      rw [hread] at h
      cases h
      exact .inl (.request hread)
  | ok content =>
      cases hselect : selectEnvironment (tableOf o s) o.environment? with
      | error e =>
          rw [run_of_read hread, hselect] at h
          cases h
          obtain ⟨name, hname, hmissing, rfl⟩ := unknown_of_selectEnvironment hselect
          exact .inl (.environment hread hname hmissing)
      | ok environment =>
          rcases hfill : fillInputs o s content (opening o s) with ⟨e | ⟨filled, files⟩, journal⟩
          · rw [run_of_read hread, hselect] at h
            dsimp only at h
            rw [hfill] at h
            cases h
            obtain ⟨hmarked, path, cause, hpath, hload, rfl⟩ := load_of_fillInputs hwritable hfill
            exact .inl (.session hread hselect hmarked hpath hload)
          · obtain ⟨hpast, -, -⟩ := run_of_filled hread hselect hfill
            rw [h] at hpast
            obtain ⟨text, hok⟩ | ⟨hstrict, left, hleft⟩ := hpast
            · cases hok
            · exact .inr ⟨hstrict, left, Except.error.inj hleft⟩

/-- A run changes nothing but its session file. Where it stops before the user is asked, it has
changed nothing and asked nothing, and without user inputs the session does not matter. Otherwise
the session file holds in the end what it held before and the answers of the user, also where the
run then fails; and it fails for no other reason than these. -/
theorem session_gains_answers (o : Options) (s : Surroundings) :
    ((run o s).files = s.files ∨ ∃ path written, o.session? = some path ∧
      s.files.provide path written = .ok (run o s).files) ∧
    (∀ failure, Stops o s failure → (run o s).result = .error failure ∧
      (run o s).files = s.files ∧ (run o s).journal.prompts = []) ∧
    (∀ content, s.files.readText o.file = .ok content → UserInput.has content = false →
      (run o s).files = s.files ∧ ∀ session?, run { o with session? } s = run o s) ∧
    (∀ content path session, Opens o s content path session → session.Storable → Writable o s →
      PastSaving o (run o s).result ∧ ∃ asked, Adds o s content path session asked) ∧
    (Writable o s → ∀ failure, (run o s).result = .error failure →
      Stops o s failure ∨ o.strict = true ∧ ∃ left, failure = .unresolved left) := by
  refine ⟨files_run o s, fun failure h => h.run_eq, fun content hread hunmarked => ?_,
    fun content path session h hstorable hwritable => ?_,
    fun hwritable failure h => failure_cases hwritable h⟩
  · exact ⟨(run_of_unmarked hread hunmarked none).1,
      fun session? => (run_of_unmarked hread hunmarked session?).2⟩
  · obtain ⟨hpast, hadds⟩ := h.adds hstorable hwritable
    exact ⟨hpast, _, hadds⟩

/-- The user and the pin are answered, the note is not. The run then fails for placeholders that are
left, and the session has the city as before and the user, but not the pin. Asked for an environment
that is unknown it changes nothing, nor does the run of a request without user inputs. -/
theorem session_gains_answers_strict :
    let request := "{{:user}} {{:pin!secret}} {{:note}} {{:city}} {{missing}}"
    let o : Options := ⟨"r.http", none, [], some "out/s.json", none, true⟩
    let s : Surroundings := { Surroundings.bare with
      files := [(["r.http"], .file request.toUTF8), (["plain.http"], .file "{{missing}}".toUTF8),
        (["out"], .directory), (["out", "s.json"],
          .file "\x7b\"\": \x7b\"city\": 42\x7d\x7d".toUTF8)].foldl
            (fun fs e => fs.set e.1 e.2) (FileSystem.empty [])
      prompter := some (terminal ["me\r\n".toList, "1234\n".toList]) }
    let lost := { o with environment? := some "dev" }
    let plain := { o with file := "plain.http" }
    (∃ left, (run o s).result = .error (.unresolved left)) ∧
    (∃ reopened, Session.load (run o s).files "out/s.json" = .ok reopened ∧
      reopened.get? "" "user" = some "me" ∧ reopened.get? "" "pin" = none ∧
      reopened.get? "" "city" = some "42") ∧
    ((run lost s).result = .error (.unknownEnvironment "dev" []) ∧ (run lost s).files = s.files) ∧
    (run plain s).files = s.files := by
  intro request o s lost plain
  let fortyTwo : Binary64 := ⟨false, 5910974510923776, 1027, by decide⟩
  let session := Session.set ⟨.empty, some "out/s.json"⟩ "" "city" (.number fortyTwo)
  have hread : s.files.readText "r.http" = .ok request := eq_ok_of_toOption (by decide +kernel)
  have hload : Session.load s.files "out/s.json" = .ok session :=
    eq_ok_of_toOption (by decide +kernel)
  have hselect : ∃ environment, selectEnvironment (tableOf o s) o.environment? = .ok environment :=
    ⟨_, rfl⟩
  have hopens : Opens o s request "out/s.json" session :=
    ⟨hread, hselect, by decide +kernel, rfl, hload⟩
  have hstorable : session.Storable := (Session.storable_empty _).set _ _ (by decide +kernel)
  have hwritable : Writable o s := by
    rintro path hpath content
    cases hpath
    have hok : (s.files.provide "out/s.json" ByteArray.empty).isOk = true := by decide +kernel
    obtain ⟨files, hfiles⟩ := exists_of_isOk hok
    exact FileSystem.exists_provide hfiles content
  obtain ⟨-, -, -, hcollect, -⟩ := session_gains_answers o s
  obtain ⟨hpast, asked, hadds⟩ := hcollect _ _ _ hopens hstorable hwritable
  refine ⟨?_, ?_, ?_, ?_⟩
  · obtain ⟨text, hok⟩ | ⟨-, hleft⟩ := hpast
    · have hnone : (run o s).result.toOption = none := by decide +kernel
      rw [hok] at hnone
      cases hnone
    · exact hleft
  · obtain ⟨reopened, hagain, hentries⟩ := hadds.reopened
    have hnames : asked.map (·.name) = ["user", "pin", "note"] :=
      hadds.wanted.trans (by decide +kernel)
    refine ⟨reopened, hagain, (hentries "" "user" "me").2 (.inr ⟨by decide +kernel, ?_⟩), ?_,
      (hentries "" "city" "42").2 (.inl (by decide +kernel))⟩
    · obtain ⟨q, hq, hname⟩ : ∃ q, asked[0]? = some q ∧ q.name = "user" := by
        have hfirst : (asked.map (·.name))[0]? = some "user" := by rw [hnames]; rfl
        rwa [List.getElem?_map, Option.map_eq_some_iff] at hfirst
      have hline : String.ofList (dropLineEnd "me\r\n".toList) = "me" := by decide +kernel
      refine ⟨_, 0, q, rfl, hq, congrArg Except.ok hline, hname, ?_⟩
      rw [hadds.hidden q (List.mem_of_getElem? hq), hname]
      decide +kernel
    · refine Option.eq_none_iff_forall_ne_some.2 fun text hpin => ?_
      obtain hold | ⟨-, ask, i, q, -, hq, -, hname, hplain⟩ := (hentries "" "pin" text).1 hpin
      · have hnone : session.get? "" "pin" = none := by decide +kernel
        cases hnone.symm.trans hold
      · rw [hadds.hidden q (List.mem_of_getElem? hq), hname] at hplain
        have hsecret : isSecret (marks request) "pin" = true := by decide +kernel
        cases hsecret.symm.trans hplain
  · obtain ⟨-, hstops, -⟩ := session_gains_answers lost s
    obtain ⟨hresult, hfiles, -⟩ := hstops _ (.environment hread rfl (by decide +kernel))
    have hnames : (tableOf lost s).names = [] := by decide +kernel
    rw [hnames] at hresult
    exact ⟨hresult, hfiles⟩
  · have hplain : s.files.readText "plain.http" = .ok "{{missing}}" :=
      eq_ok_of_toOption (by decide +kernel)
    exact ((session_gains_answers plain s).2.2.1 _ hplain (by decide +kernel)).1

end Stencil.CommandLine
